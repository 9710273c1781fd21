import Chip8.Proofs.Step
import Mathlib.Data.Int.Bitwise

/-!
# The machine's numbers as integers

What the cells of a machine hold, seen as integers without a width. `Instruction.compute` says
what an instruction does to them in integer arithmetic, where a result is reduced only if the
instruction says so: sums, differences and doubled bytes are, a glyph's address, a return address
and a masked random number are not. The cells hold just these results (`numbers_execute`), so
nothing is truncated to fit its cell (`numbers_exact`).
-/

namespace Chip8

/-- The numbers of a machine, whatever their size. -/
@[ext] structure Numbers where
  v : Nibble → Int
  i : Int
  pc : Int
  /-- Return addresses, the latest first. -/
  stack : List Int
  delay : Int
  sound : Int
  memory : Addr → Int

/-- What an instruction learns from the devices. -/
structure Readings where
  /-- The next number of the random source. -/
  random : Int
  /-- The keys that are held. -/
  held : Int → Bool
  /-- Whether a sprite hits a lit pixel, by the operands of its drawing. -/
  collision : Nibble → Nibble → Nibble → Bool

namespace Numbers

/-- The numbers with a register replaced. -/
def set (s : Numbers) (x : Nibble) (k : Int) : Numbers :=
  { s with v := fun y => if x = y then k else s.v y }

/-- The numbers with `VF` set to a flag and then `Vx` to a result. -/
def setFlagged (s : Numbers) (x : Nibble) (flag result : Int) : Numbers :=
  (s.set 0xF flag).set x result

/-- The numbers with the program counter replaced. -/
def goto (s : Numbers) (pc : Int) : Numbers := { s with pc := pc }

/-- The numbers with the program counter past one instruction. -/
def advance (s : Numbers) : Numbers := s.goto ((s.pc + 2) % 0x1000)

/-- The numbers past one more instruction if the condition holds. -/
def skipIf (s : Numbers) (c : Bool) : Numbers := if c then s.advance else s

/-- The number at an address, of which the low twelve bits count. -/
def cell (s : Numbers) (address : Int) : Int := s.memory (BitVec.ofInt 12 address)

/-- The numbers with a row put in memory from an address on. -/
def put (s : Numbers) (address : Int) (row : List Int) : Numbers :=
  { s with memory := fun a => (row[(a - BitVec.ofInt 12 address).toNat]?).getD (s.memory a) }

/-- The numbers with both timers counted down. -/
def countDown (s : Numbers) : Numbers :=
  { s with
    delay := if 0 < s.delay then s.delay - 1 else s.delay
    sound := if 0 < s.sound then s.sound - 1 else s.sound }

end Numbers

/-- What an instruction makes of the numbers of a machine. -/
def Instruction.compute (r : Readings) (s : Numbers) : Instruction → Numbers
  | sys _ | cls | waitKey _ => s
  | ret =>
    match s.stack with
    | [] => s
    | pc :: rest => { s with pc := pc, stack := rest }
  | jump nnn => s.goto nnn.toNat
  | call nnn => { s with pc := nnn.toNat, stack := s.pc :: s.stack }
  | skipEqByte x kk => s.skipIf (s.v x = kk.toNat)
  | skipNeByte x kk => s.skipIf (s.v x ≠ kk.toNat)
  | skipEq x y => s.skipIf (s.v x = s.v y)
  | skipNe x y => s.skipIf (s.v x ≠ s.v y)
  | setByte x kk => s.set x kk.toNat
  | addByte x kk => s.set x ((s.v x + kk.toNat) % 0x100)
  | copy x y => s.set x (s.v y)
  | or x y => s.set x ((s.v x).lor (s.v y))
  | and x y => s.set x ((s.v x).land (s.v y))
  | xor x y => s.set x ((s.v x).xor (s.v y))
  | add x y =>
    s.setFlagged x (if 0xFF < s.v x + s.v y then 1 else 0) ((s.v x + s.v y) % 0x100)
  | sub x y => s.setFlagged x (if s.v y < s.v x then 1 else 0) ((s.v x - s.v y) % 0x100)
  | shiftRight x _ => s.setFlagged x ((s.v x).land 0x01) (s.v x / 2)
  | subFrom x y => s.setFlagged x (if s.v x < s.v y then 1 else 0) ((s.v y - s.v x) % 0x100)
  | shiftLeft x _ => s.setFlagged x ((s.v x).land 0x80) (s.v x * 2 % 0x100)
  | setIndex nnn => { s with i := nnn.toNat }
  | jumpFrom nnn => s.goto ((nnn.toNat + s.v 0) % 0x1000)
  | random x kk => s.set x (r.random.land kk.toNat)
  | draw x y n => s.set 0xF (if r.collision x y n then 1 else 0)
  | skipKey x => s.skipIf (r.held (s.v x))
  | skipNoKey x => s.skipIf (!r.held (s.v x))
  | getDelay x => s.set x s.delay
  | setDelay x => { s with delay := s.v x }
  | setSound x => { s with sound := s.v x }
  | addIndex x => { s with i := (s.i + s.v x) % 0x10000 }
  | glyph x => { s with i := s.v x * 5 }
  | decimal x => s.put s.i [s.v x / 100, s.v x / 10 % 10, s.v x % 10]
  | store x =>
    s.put s.i ((List.range (x.toNat + 1)).map fun k => s.v (BitVec.ofNat 4 k))
  | load x => { s with v := fun y => if y ≤ x then s.cell (s.i + y.toNat) else s.v y }

namespace Byte

/-- Bytes are equal if their numbers are. -/
theorem beq_eq_decide (a b : Byte) : (a == b) = decide ((a.toNat : Int) = b.toNat) := by
  rw [Bool.beq_eq_decide_eq, decide_eq_decide, Int.ofNat_inj, BitVec.toNat_inj]

/-- A flag is one or zero. -/
theorem toNat_ofBool (c : Bool) : ((ofBool c).toNat : Int) = if c then 1 else 0 := by
  cases c <;> rfl

/-- A difference of bytes is reduced from below zero. -/
theorem toNat_sub (a b : Byte) : ((a - b).toNat : Int) = ((a.toNat : Int) - b.toNat) % 0x100 := by
  have hb := b.isLt
  rw [BitVec.toNat_sub]
  omega

/-- A mask takes the low bits of any integer, also of a negative one. -/
theorem toNat_ofInt_and (k : Int) (b : Byte) :
    ((BitVec.ofInt 8 k &&& b).toNat : Int) = k.land b.toNat := by
  have hbit : ∀ j, b.toNat.testBit j = true → j < 8 := fun j hj => by
    refine Nat.lt_of_not_le fun hle => ?_
    rw [Nat.testBit_lt_two_pow (Nat.lt_of_lt_of_le b.isLt (Nat.pow_le_pow_right (by decide) hle))]
      at hj
    cases hj
  cases k with
  | ofNat k =>
    show _ = ((k &&& b.toNat : Nat) : Int)
    rw [Int.ofNat_inj, Int.ofNat_eq_natCast, BitVec.ofInt_natCast, BitVec.toNat_and,
      BitVec.toNat_ofNat]
    apply Nat.eq_of_testBit_eq
    intro j
    rw [Nat.testBit_and, Nat.testBit_and, Nat.testBit_mod_two_pow]
    cases hj : b.toNat.testBit j with
    | false => rw [Bool.and_false, Bool.and_false]
    | true => simp [hbit j hj]
  | negSucc k =>
    show _ = ((b.toNat.ldiff k : Nat) : Int)
    rw [Int.ofNat_inj, BitVec.ofInt_negSucc_eq_not_ofNat]
    apply Nat.eq_of_testBit_eq
    intro j
    rw [BitVec.toNat_and, Nat.testBit_and, Nat.testBit_ldiff, BitVec.testBit_toNat,
      BitVec.getLsbD_not, BitVec.getLsbD_ofNat]
    cases hj : b.toNat.testBit j with
    | false => rw [Bool.and_false, Bool.false_and]
    | true => simp [hbit j hj]

end Byte

namespace Machine

variable {w h : Nat} {τ : Type}

/-- The numbers that a machine holds. -/
def numbers (m : Machine w h τ) : Numbers where
  v x := (m.reg x).toNat
  i := m.cpu.i.toNat
  pc := m.cpu.pc.toNat
  stack := m.cpu.stack.map fun a => (a.toNat : Int)
  delay := m.cpu.delay.toNat
  sound := m.cpu.sound.toNat
  memory a := (m.memory.get a).toNat

/-- What the devices of a machine tell the next instruction. -/
def readings (random : Nat → Int) (m : Machine w h τ) : Readings where
  random := random m.draws
  held := m.keypad.isHeld
  collision x y n := (m.screen.toggleAll (m.spritePoints x y n)).2.any id

/-- A register is set to the number of its byte. -/
theorem numbers_setReg (m : Machine w h τ) (x : Nibble) (b : Byte) :
    (m.setReg x b).numbers = m.numbers.set x b.toNat := by
  refine Numbers.ext (funext fun y => ?_) rfl rfl rfl rfl rfl rfl
  simp only [numbers, Numbers.set, reg, setReg, Bank.get_set]
  split <;> rfl

/-- A flag and a result are set to the numbers of their bytes. -/
theorem numbers_setFlagged (m : Machine w h τ) (x : Nibble) (flag result : Byte) :
    (m.setFlagged x flag result).numbers = m.numbers.setFlagged x flag.toNat result.toNat := by
  rw [setFlagged, numbers_setReg, numbers_setReg, Numbers.setFlagged]

/-- Moving past an instruction adds two to the program counter and reduces it. -/
theorem numbers_advance (m : Machine w h τ) : m.advance.numbers = m.numbers.advance := by
  have hpc := Word.toNat_advance m.cpu.pc 2
  simp only [advance, goto, numbers, Numbers.advance, Numbers.goto, hpc]
  rfl

/-- Skipping adds two more. -/
theorem numbers_skipIf (m : Machine w h τ) (c : Bool) :
    (m.skipIf c).numbers = m.numbers.skipIf c := by
  cases c with
  | false => rfl
  | true => exact numbers_advance m

/-- A cell counted from the index register. -/
theorem numbers_cell (m : Machine w h τ) (k : Nat) :
    m.numbers.cell (m.numbers.i + k) = (m.memory.get (m.cpu.i.addr + BitVec.ofNat 12 k)).toNat := by
  have haddr : BitVec.ofInt 12 (m.numbers.i + k) = m.cpu.i.addr + BitVec.ofNat 12 k := by
    rw [BitVec.ofInt_add]
    rfl
  rw [Numbers.cell, haddr]
  rfl

/-- A row of bytes is written as the row of their numbers. -/
theorem numbers_writeAll (m : Machine w h τ) {a : Addr} {address : Int}
    (ha : BitVec.ofInt 12 address = a) {row : List Byte} (hrow : row.length ≤ 2 ^ 12) :
    numbers { m with memory := m.memory.writeAll a row } =
      m.numbers.put address (row.map fun b => (b.toNat : Int)) := by
  refine Numbers.ext rfl rfl rfl rfl rfl rfl (funext fun c => ?_)
  simp only [Numbers.put, ha, List.getElem?_map]
  simp only [numbers, Bank.get_writeAll _ _ _ _ hrow]
  cases row[(c - a).toNat]? <;> rfl

/-- A row of bytes is stored at the index register as the row of their numbers. -/
theorem numbers_store (m : Machine w h τ) {row : List Byte} (hrow : row.length ≤ 2 ^ 12) :
    numbers { m with memory := m.memory.writeAll m.cpu.i.addr row } =
      m.numbers.put m.numbers.i (row.map fun b => (b.toNat : Int)) :=
  numbers_writeAll m (BitVec.ofInt_natCast ..) hrow

/-- The registers that are stored do not lap the memory. -/
theorem length_stored (m : Machine w h τ) (x : Nibble) :
    (m.cpu.v.read 0 (x.toNat + 1)).length ≤ Nat.pow 2 12 := by
  have hx := x.isLt
  rw [Bank.length_read]
  exact Nat.le_trans hx (by decide)

/-- Loading replaces the registers up to `Vx` by the cells from the index register on. -/
theorem reg_execute_load (random : Nat → Int) (m : Machine w h τ) (x y : Nibble) :
    (m.execute random (.load x)).1.reg y =
      if y ≤ x then m.memory.get (m.cpu.i.addr + BitVec.ofNat 12 y.toNat) else m.reg y := by
  have hlength : (m.memory.read m.cpu.i.addr (x.toNat + 1)).length ≤ 2 ^ 4 := by
    have hx := x.isLt
    rw [Bank.length_read]
    omega
  have hle : y.toNat < x.toNat + 1 ↔ y ≤ x := Nat.lt_succ_iff
  have hzero : y - 0 = y := BitVec.sub_zero y
  simp only [execute, reg, Bank.get_writeAll _ _ _ _ hlength, Bank.getElem?_read, hzero, hle]
  split <;> rfl

/-- Every instruction computes in the cells of the machine what it computes in the integers. -/
theorem numbers_execute (random : Nat → Int) (m : Machine w h τ) (i : Instruction) :
    (m.execute random i).1.numbers = i.compute (m.readings random) m.numbers := by
  cases i with
  | sys | cls | jump | call | setIndex | waitKey | setDelay | setSound => rfl
  | ret =>
    cases hs : m.cpu.stack with
    | nil => simp [execute, Instruction.compute, numbers, hs]
    | cons pc rest => simp [execute, Instruction.compute, numbers, reg, hs]
  | skipEqByte | skipNeByte | skipEq | skipNe =>
    simp only [execute, numbers_skipIf, bne, Byte.beq_eq_decide, ← decide_not]
    rfl
  | skipKey | skipNoKey => exact numbers_skipIf m _
  | setByte | copy | getDelay => exact numbers_setReg m _ _
  | or | and | xor | addByte =>
    rw [execute, numbers_setReg]
    rfl
  | add x y =>
    have hcarry : 0xFF < m.numbers.v x + m.numbers.v y ↔
        255 < (m.reg x).toNat + (m.reg y).toNat := Int.ofNat_lt
    rw [execute, numbers_setFlagged, Byte.toNat_ofBool, Instruction.compute]
    simp only [hcarry, decide_eq_true_eq]
    rfl
  | sub x y | subFrom x y =>
    rw [execute, numbers_setFlagged, Byte.toNat_ofBool, Byte.toNat_sub, Instruction.compute]
    simp only [decide_eq_true_eq, BitVec.lt_def, ← Int.ofNat_lt]
    rfl
  | shiftRight =>
    rw [execute, numbers_setFlagged]
    rfl
  | shiftLeft =>
    rw [execute, numbers_setFlagged, BitVec.toNat_shiftLeft, Nat.shiftLeft_eq]
    rfl
  | jumpFrom nnn =>
    -- twelve bits of the target are enough: the program counter is reduced to them
    have hpc : (nnn + (m.reg 0).setWidth 12).toWord.toNat =
        (nnn.toNat + (m.reg 0).toNat) % 4096 := by
      simp only [Addr.toWord, BitVec.toNat_setWidth, BitVec.toNat_add]
      omega
    exact Numbers.ext rfl rfl (congrArg Nat.cast hpc) rfl rfl rfl rfl
  | random x kk =>
    have hrandom := Byte.toNat_ofInt_and (random m.draws) kk
    refine (numbers_setReg m x _).trans ?_
    rw [hrandom]
    rfl
  | draw =>
    refine (numbers_setReg m 0xF _).trans ?_
    rw [Byte.toNat_ofBool]
    rfl
  | addIndex x =>
    have hi : (m.cpu.i + (m.reg x).setWidth 16).toNat =
        (m.cpu.i.toNat + (m.reg x).toNat) % 65536 := by
      rw [BitVec.toNat_add, BitVec.toNat_setWidth_of_le (by decide)]
    exact Numbers.ext rfl (congrArg Nat.cast hi) rfl rfl rfl rfl rfl
  | glyph x =>
    -- the greatest address is that of a glyph 255, so the index register holds it unreduced
    have hi : (BitVec.ofInt 16 (Glyph.address (m.reg x).toNat)).toNat = (m.reg x).toNat * 5 := by
      have hv := (m.reg x).isLt
      have haddress : Glyph.address (m.reg x).toNat = ((m.reg x).toNat * 5 : Nat) := rfl
      rw [haddress, BitVec.ofInt_natCast, BitVec.toNat_ofNat]
      omega
    exact Numbers.ext rfl (congrArg Nat.cast hi) rfl rfl rfl rfl rfl
  | decimal x =>
    have hlength : (m.reg x).decimalDigits.length ≤ 2 ^ 12 := Nat.le_of_ble_eq_true rfl
    exact numbers_store m hlength
  | store x =>
    have hrow : (m.cpu.v.read 0 (x.toNat + 1)).map (fun b => (b.toNat : Int)) =
        (List.range (x.toNat + 1)).map fun k => m.numbers.v (BitVec.ofNat 4 k) := by
      rw [Bank.read, List.map_map]
      refine List.map_congr_left fun k _ => ?_
      exact congrArg (fun a => ((m.cpu.v.get a).toNat : Int)) (BitVec.zero_add _)
    rw [execute, numbers_store _ (m.length_stored x), hrow, Instruction.compute]
  | load x =>
    refine Numbers.ext (funext fun y => ?_) rfl rfl rfl rfl rfl rfl
    have hreg := congrArg (fun b : Byte => (b.toNat : Int)) (reg_execute_load random m x y)
    refine hreg.trans ?_
    simp only [Instruction.compute, numbers_cell]
    split <;> rfl

/-- A key is put in its register through its low four bits. -/
theorem numbers_keyPressed {m : Machine w h τ} {x : Nibble} (hwait : m.isWaiting = true)
    (hx : m.cpu.keyRegister = some x) (key : Int) :
    (m.keyPressed key).machine.numbers = m.numbers.set x (key % 0x10) := by
  have hkey : (((keyOfNumber key).setWidth 8).toNat : Int) = key % 0x10 := by
    rw [BitVec.toNat_setWidth_of_le (by decide)]
    exact toNat_keyOfNumber key
  rw [← hkey, ← numbers_setReg]
  simp only [keyPressed, hwait, hx]
  rfl

/-- The timers count down to zero. -/
theorem numbers_updateTimers (m : Machine w h τ) :
    m.updateTimers.numbers = m.numbers.countDown := by
  have hcount : ∀ b : Byte, (b.countDown.toNat : Int) =
      if (0 : Int) < b.toNat then (b.toNat : Int) - 1 else b.toNat := fun b => by
    have hb := b.isLt
    rw [Byte.countDown_eq_ofNat, BitVec.toNat_ofNat]
    split <;> omega
  exact Numbers.ext rfl rfl rfl rfl (hcount m.cpu.delay) (hcount m.cpu.sound) rfl

/-- Numbers that are put in memory are put there as they are. -/
theorem numbers_loadNumbers {m : Machine w h τ} {numbers : List Int}
    (hload : (m.loadNumbers numbers).error = none) :
    (m.loadNumbers numbers).machine.numbers = m.numbers.put 0x200 numbers := by
  cases hp : Program.ofNumbers numbers with
  | error e => simp [loadNumbers, hp, failed] at hload
  | ok p =>
    have hstart : BitVec.ofInt 12 0x200 = Memory.programStart := by decide
    have hlength : p.bytes.length ≤ 2 ^ 12 := Nat.le_trans p.length_le (by decide)
    simp only [loadNumbers, hp]
    rw [Program.ofNumbers_eq_ok_iff.mp hp]
    exact numbers_writeAll m hstart hlength

/-- A step computes in the integers, unless it fails. -/
theorem numbers_step (random : Nat → Int) (m : Machine w h τ) :
    ((m.step random).error ≠ none ∧ (m.step random).machine.numbers = m.numbers.advance) ∨
    ∃ i, Instruction.decode? m.fetch = some i ∧
      (m.step random).machine.numbers = i.compute (m.readings random) m.numbers.advance := by
  obtain ⟨-, hstep⟩ | ⟨i, e, -, -, hstep⟩ | ⟨i, hi, -, hstep⟩ := step_cases random m
  · rw [hstep]
    exact .inl ⟨nofun, numbers_advance m⟩
  · rw [hstep]
    exact .inl ⟨nofun, numbers_advance m⟩
  · rw [hstep, done, numbers_execute, numbers_advance]
    exact .inr ⟨i, hi, rfl⟩

/-- A step over an instruction that is not refused carries it out. -/
theorem numbers_step_of_decode? {m : Machine w h τ} {i : Instruction}
    (hi : Instruction.decode? m.fetch = some i) (hrefusal : m.advance.refusal? i = none)
    (random : Nat → Int) :
    (m.step random).error = none ∧
      (m.step random).machine.numbers = i.compute (m.readings random) m.numbers.advance := by
  obtain ⟨hnone, -⟩ | ⟨j, e, hj, hr, -⟩ | ⟨j, hj, -, hs⟩ := step_cases random m
  · cases hi.symm.trans hnone
  · obtain rfl := Option.some.inj (hi.symm.trans hj)
    cases hrefusal.symm.trans hr
  · obtain rfl := Option.some.inj (hi.symm.trans hj)
    rw [hs, done, numbers_execute, numbers_advance]
    exact ⟨rfl, rfl⟩

/-- What a machine does comes to the same in its cells and in the integers. -/
structure Exact (m : Machine w h τ) : Prop where
  step : ∀ random,
    ((m.step random).error ≠ none ∧ (m.step random).machine.numbers = m.numbers.advance) ∨
    ∃ i, Instruction.decode? m.fetch = some i ∧
      (m.step random).machine.numbers = i.compute (m.readings random) m.numbers.advance
  keyPressed : ∀ x key, m.isWaiting = true → m.cpu.keyRegister = some x →
    (m.keyPressed key).machine.numbers = m.numbers.set x (key % 0x10)
  updateTimers : m.updateTimers.numbers = m.numbers.countDown
  loadNumbers : ∀ row, (m.loadNumbers row).error = none →
    (m.loadNumbers row).machine.numbers = m.numbers.put 0x200 row

/-- No number is truncated to fit its cell. -/
theorem numbers_exact (m : Machine w h τ) : m.Exact where
  step random := numbers_step random m
  keyPressed _ key hwait hx := numbers_keyPressed hwait hx key
  updateTimers := numbers_updateTimers m
  loadNumbers _ hload := numbers_loadNumbers hload

end Machine

end Chip8
