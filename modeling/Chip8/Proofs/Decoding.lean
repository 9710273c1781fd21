import Chip8.Instruction.Encoding

/-!
# The instruction table in numbers

A row of the instruction table has fixed digits, and operands in the digits between them; the number
of a word of the row is the sum of both (`Row.Spells`). Reading an integer, of either sign and any
size, accepts exactly the numbers that the thirty-five rows spell modulo 65536 and gives the row and
its operands back, with all fields of the word; any other integer is reported as an unknown word
(`decoded_iff_spelled`). Two numbers are spelled by two rows, and there the host calls give way.
-/

namespace Chip8

namespace Instruction

/-- Which digits of a word are operands. -/
inductive Layout where
  /-- None: all digits are fixed. -/
  | fixed
  /-- The last three, an address. -/
  | address
  /-- The second, a register, and the last two, a byte. -/
  | registerByte
  /-- The second and the third, two registers. -/
  | registers
  /-- The second and the third, two registers, and the last, a count. -/
  | registersCount
  /-- The second, a register. -/
  | register

namespace Layout

/-- The operands of a layout, each in its range. -/
abbrev Operands : Layout → Type
  | fixed => Unit
  | address => Addr
  | registerByte => Nibble × Byte
  | registers => Nibble × Nibble
  | registersCount => Nibble × Nibble × Nibble
  | register => Nibble

/-- What the operands add to the fixed digits. -/
def number : (l : Layout) → l.Operands → Nat
  | fixed, _ => 0
  | address, nnn => BitVec.toNat nnn
  | registerByte, (x, kk) => 0x100 * x.toNat + kk.toNat
  | registers, (x, y) => 0x100 * x.toNat + 0x10 * y.toNat
  | registersCount, (x, y, n) => 0x100 * x.toNat + 0x10 * y.toNat + n.toNat
  | register, x => 0x100 * BitVec.toNat x

end Layout

/-- A row of the instruction table: the fixed digits of its words, with zeros for the operands, and
the instruction that the operands make. -/
structure Row where
  digits : Nat
  layout : Layout
  make : layout.Operands → Instruction

/-- The rows of the instruction table, in the order of the instructions. -/
def table : List Row := [
  ⟨0x0000, .address, sys⟩,
  ⟨0x00E0, .fixed, fun _ => cls⟩,
  ⟨0x00EE, .fixed, fun _ => ret⟩,
  ⟨0x1000, .address, jump⟩,
  ⟨0x2000, .address, call⟩,
  ⟨0x3000, .registerByte, fun (x, kk) => skipEqByte x kk⟩,
  ⟨0x4000, .registerByte, fun (x, kk) => skipNeByte x kk⟩,
  ⟨0x5000, .registers, fun (x, y) => skipEq x y⟩,
  ⟨0x6000, .registerByte, fun (x, kk) => setByte x kk⟩,
  ⟨0x7000, .registerByte, fun (x, kk) => addByte x kk⟩,
  ⟨0x8000, .registers, fun (x, y) => copy x y⟩,
  ⟨0x8001, .registers, fun (x, y) => or x y⟩,
  ⟨0x8002, .registers, fun (x, y) => and x y⟩,
  ⟨0x8003, .registers, fun (x, y) => xor x y⟩,
  ⟨0x8004, .registers, fun (x, y) => add x y⟩,
  ⟨0x8005, .registers, fun (x, y) => sub x y⟩,
  ⟨0x8006, .registers, fun (x, y) => shiftRight x y⟩,
  ⟨0x8007, .registers, fun (x, y) => subFrom x y⟩,
  ⟨0x800E, .registers, fun (x, y) => shiftLeft x y⟩,
  ⟨0x9000, .registers, fun (x, y) => skipNe x y⟩,
  ⟨0xA000, .address, setIndex⟩,
  ⟨0xB000, .address, jumpFrom⟩,
  ⟨0xC000, .registerByte, fun (x, kk) => random x kk⟩,
  ⟨0xD000, .registersCount, fun (x, y, n) => draw x y n⟩,
  ⟨0xE09E, .register, skipKey⟩,
  ⟨0xE0A1, .register, skipNoKey⟩,
  ⟨0xF007, .register, getDelay⟩,
  ⟨0xF00A, .register, waitKey⟩,
  ⟨0xF015, .register, setDelay⟩,
  ⟨0xF018, .register, setSound⟩,
  ⟨0xF01E, .register, addIndex⟩,
  ⟨0xF029, .register, glyph⟩,
  ⟨0xF033, .register, decimal⟩,
  ⟨0xF055, .register, store⟩,
  ⟨0xF065, .register, load⟩]

/-- The family of the words of a row, their first digit. -/
def Row.family (row : Row) : Nat := row.digits / 0x1000

/-- The row makes this instruction of some operands, and the number of its word is this. -/
def Row.Spells (row : Row) (i : Instruction) (word : Nat) : Prop :=
  ∃ o, row.make o = i ∧ row.digits + row.layout.number o = word

/-- The fixed digits of a row and its operands make up the word of the instruction. The operands do
not reach the first digit. -/
theorem toNat_encode_make {row : Row} (hrow : row ∈ table) (o : row.layout.Operands) :
    (row.make o).encode.toNat = row.digits + row.layout.number o ∧
      row.digits % 0x1000 + row.layout.number o < 0x1000 := by
  revert row
  simp only [table, List.forall_mem_cons, List.not_mem_nil, false_implies, implies_true, and_true]
  and_intros
  all_goals
    intro o
    simp only [encode, Layout.number, Word.toNat_append, Nat.pow_eq, BitVec.toNat_ofNat, true_and]
    omega

/-- Every instruction is made by a row. -/
theorem exists_make_eq (i : Instruction) : ∃ row ∈ table, ∃ o, row.make o = i := by
  have hlt : i.ctorIdx < table.length := by cases i <;> exact Nat.le_of_ble_eq_true rfl
  refine ⟨table[i.ctorIdx], List.getElem_mem hlt, ?_⟩
  cases i with
  | cls | ret => exact ⟨(), rfl⟩
  | draw x y n => exact ⟨(x, y, n), rfl⟩
  | sys nnn | jump nnn | call nnn | setIndex nnn | jumpFrom nnn => exact ⟨nnn, rfl⟩
  | skipEqByte x kk | skipNeByte x kk | setByte x kk | addByte x kk | random x kk =>
    exact ⟨(x, kk), rfl⟩
  | skipEq x y | copy x y | or x y | and x y | xor x y | add x y | sub x y | shiftRight x y
  | subFrom x y | shiftLeft x y | skipNe x y => exact ⟨(x, y), rfl⟩
  | skipKey x | skipNoKey x | getDelay x | waitKey x | setDelay x | setSound x | addIndex x
  | glyph x | decimal x | store x | load x => exact ⟨x, rfl⟩

/-- The rows spell an instruction with the number of its word. -/
theorem exists_spells_iff (i : Instruction) (word : Nat) :
    (∃ row ∈ table, row.Spells i word) ↔ i.encode.toNat = word := by
  constructor
  · rintro ⟨row, hrow, o, rfl, rfl⟩
    exact (toNat_encode_make hrow o).1
  · rintro rfl
    obtain ⟨row, hrow, o, rfl⟩ := exists_make_eq i
    exact ⟨row, hrow, o, rfl, (toNat_encode_make hrow o).1.symm⟩

/-- A word of a row is of the family of the row. -/
theorem Row.Spells.family_eq {row : Row} (hrow : row ∈ table) {i : Instruction} {word : Nat}
    (hi : row.Spells i word) : row.family = word / 0x1000 := by
  obtain ⟨o, rfl, rfl⟩ := hi
  have hlow := (toNat_encode_make hrow o).2
  rw [Row.family]
  omega

/-- The words of instructions are those that can be decoded, also where two instructions share a
word. -/
theorem exists_decode?_iff (w : Word) :
    (∃ i, decode? w = some i) ↔ ∃ i : Instruction, i.encode = w := by
  constructor
  · rintro ⟨i, hi⟩
    exact ⟨i, encode_of_decode? hi⟩
  · rintro ⟨i, rfl⟩
    by_cases h0 : i = sys 0x0E0
    · subst h0
      exact ⟨cls, rfl⟩
    by_cases h1 : i = sys 0x0EE
    · subst h1
      exact ⟨ret, rfl⟩
    exact ⟨i, decode?_encode h0 h1⟩

end Instruction

namespace Decoded

/-- Reading an integer succeeds with the fields of its low sixteen bits. -/
theorem ofNumber_eq_ok_iff {opcode pc : Int} {d : Decoded} :
    ofNumber opcode pc = .ok d ↔
      Instruction.decode? (BitVec.ofInt 16 opcode) = some d.instruction ∧
        d = ofWord (BitVec.ofInt 16 opcode) d.instruction := by
  unfold ofNumber Instruction.decodeAt
  cases hi : Instruction.decode? (BitVec.ofInt 16 opcode) with
  | none => simp [hi, Except.map]
  | some i =>
    simp only [hi, Except.map, Except.ok.injEq, Option.some.injEq]
    constructor
    · rintro rfl
      exact ⟨rfl, rfl⟩
    · rintro ⟨rfl, hd⟩
      exact hd.symm

/-- Reading an integer fails with its low sixteen bits and the given address. -/
theorem ofNumber_eq_error_iff {opcode pc : Int} {f : Fault} :
    ofNumber opcode pc = .error f ↔
      Instruction.decode? (BitVec.ofInt 16 opcode) = none ∧
        f = ⟨.unknownOpcode, (BitVec.ofInt 16 opcode).toNat, pc⟩ := by
  unfold ofNumber Instruction.decodeAt
  cases hi : Instruction.decode? (BitVec.ofInt 16 opcode) with
  | none => simp [hi, Except.map, eq_comm]
  | some i => simp [hi, Except.map]

/-- Decoding any integer accepts just the words that the rows of the instruction table spell with
operands in their ranges, and gives back the row and its operands; the two host calls that are
words of other rows are read as these. The fields that come with it are those of the word. Where no
row spells the word, it is reported as unknown with the given address, and there is no other
failure. -/
theorem decoded_iff_spelled (opcode pc : Int) :
    let word := (opcode % 0x10000).toNat
    Instruction.table.length = 35 ∧
    (∀ i, (∃ d, ofNumber opcode pc = .ok d ∧ d.instruction = i) ↔
      (∃ row ∈ Instruction.table, row.Spells i word) ∧ i ≠ .sys 0x0E0 ∧ i ≠ .sys 0x0EE) ∧
    ((∃ d, ofNumber opcode pc = .ok d) ↔ ∃ row ∈ Instruction.table, ∃ i, row.Spells i word) ∧
    (∀ d, ofNumber opcode pc = .ok d → ∃ row ∈ Instruction.table,
      row.Spells d.instruction word ∧ d.opcode.toNat = word ∧
        d.nnn.toNat = 0x100 * d.x.toNat + d.kk.toNat ∧ d.kk.toNat = 0x10 * d.y.toNat + d.n.toNat ∧
        word = 0x1000 * row.family + d.nnn.toNat) ∧
    (∀ f, ofNumber opcode pc = .error f ↔
      (¬ ∃ row ∈ Instruction.table, ∃ i, row.Spells i word) ∧ f = ⟨.unknownOpcode, word, pc⟩) := by
  intro word
  have hword : (BitVec.ofInt 16 opcode).toNat = word := BitVec.toNat_ofInt ..
  have hspells : ∀ i : Instruction, (∃ row ∈ Instruction.table, row.Spells i word) ↔
      i.encode = BitVec.ofInt 16 opcode := by
    intro i
    rw [Instruction.exists_spells_iff, ← hword, BitVec.toNat_inj]
  have hany : (∃ row ∈ Instruction.table, ∃ i, row.Spells i word) ↔
      ∃ i, Instruction.decode? (BitVec.ofInt 16 opcode) = some i := by
    rw [Instruction.exists_decode?_iff]
    constructor
    · rintro ⟨row, hrow, i, hi⟩
      exact ⟨i, (hspells i).mp ⟨row, hrow, hi⟩⟩
    · rintro ⟨i, hi⟩
      obtain ⟨row, hrow, hi⟩ := (hspells i).mpr hi
      exact ⟨row, hrow, i, hi⟩
  refine ⟨rfl, fun i => ?_, ?_, fun d hd => ?_, fun f => ?_⟩
  · rw [hspells, ← Instruction.decode?_eq_some_iff]
    constructor
    · rintro ⟨d, hd, rfl⟩
      exact (ofNumber_eq_ok_iff.mp hd).1
    · intro hi
      exact ⟨ofWord (BitVec.ofInt 16 opcode) i, ofNumber_eq_ok_iff.mpr ⟨hi, rfl⟩, rfl⟩
  · rw [hany]
    constructor
    · rintro ⟨d, hd⟩
      exact ⟨d.instruction, (ofNumber_eq_ok_iff.mp hd).1⟩
    · rintro ⟨i, hi⟩
      exact ⟨ofWord (BitVec.ofInt 16 opcode) i, ofNumber_eq_ok_iff.mpr ⟨hi, rfl⟩⟩
  · obtain ⟨hi, hd⟩ := ofNumber_eq_ok_iff.mp hd
    generalize d.instruction = i at hi hd
    subst hd
    obtain ⟨row, hrow, hrowi⟩ := (hspells i).mpr (Instruction.encode_of_decode? hi)
    refine ⟨row, hrow, hrowi, hword, ?_, ?_, ?_⟩
    · exact (congrArg BitVec.toNat (Word.x_append_kk _)).symm.trans (Word.toNat_append ..)
    · exact (congrArg BitVec.toNat (Word.y_append_n _)).symm.trans (Word.toNat_append ..)
    · rw [hrowi.family_eq hrow, ← hword, ← Word.toNat_family]
      exact (congrArg BitVec.toNat (Word.family_append _)).symm.trans (Word.toNat_append ..)
  · rw [hany, ofNumber_eq_error_iff, hword, ← Option.isSome_iff_exists, Bool.not_eq_true,
      Option.isSome_eq_false_iff, Option.isNone_iff_eq_none]

/-- A negative number is read through its low sixteen bits as the addition that its row spells, the
word of two rows is read as the one that is no host call, and minus one is no instruction. -/
theorem decoded_iff_spelled_below_zero :
    (∃ d, ofNumber (-0x754C) 0x2F0 = .ok d ∧ d.instruction = .add 0xA 0xB ∧
      ∃ row ∈ Instruction.table, row.Spells (.add 0xA 0xB) 0x8AB4 ∧
        0x8AB4 = 0x1000 * row.family + 0xAB4) ∧
    (∃ row ∈ Instruction.table, row.Spells (.sys 0x0E0) 0x00E0) ∧
    (¬ ∃ d, ofNumber 0x00E0 0x200 = .ok d ∧ d.instruction = .sys 0x0E0) ∧
    ofNumber (-1) (-3) = .error ⟨.unknownOpcode, 0xFFFF, -3⟩ := by
  obtain ⟨-, -, -, hfields, -⟩ := decoded_iff_spelled (-0x754C) 0x2F0
  obtain ⟨-, hread, -, -, -⟩ := decoded_iff_spelled 0x00E0 0x200
  obtain ⟨-, -, hsome, -, hfault⟩ := decoded_iff_spelled (-1) (-3)
  have hd : ofNumber (-0x754C) 0x2F0 = .ok (ofWord 0x8AB4 (.add 0xA 0xB)) := rfl
  obtain ⟨row, hrow, hspells, -, -, -, hfamily⟩ := hfields _ hd
  have hshared : ∃ row ∈ Instruction.table, row.Spells (.sys 0x0E0) 0x00E0 :=
    (Instruction.exists_spells_iff ..).mpr (by decide)
  refine ⟨⟨_, hd, rfl, row, hrow, hspells, hfamily⟩, hshared, fun hsys => ?_, ?_⟩
  · exact ((hread (.sys 0x0E0)).mp hsys).2.1 rfl
  · refine (hfault _).mpr ⟨fun hrow => ?_, rfl⟩
    obtain ⟨d, hd⟩ := hsome.mpr hrow
    cases hd

end Decoded

end Chip8
