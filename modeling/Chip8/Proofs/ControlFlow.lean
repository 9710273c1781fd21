import Chip8.Proofs.Fault

/-!
# Where a machine goes on

Jumps and calls go on at an address of their word, returns at the latest return address, and all
other instructions at the next one, or at the one after it if they skip. Which words skip is told by
the registers and the held keys (`Machine.Skips`), and of two complementary words exactly one does.
The program counter has been advanced before an instruction is carried out, so a step goes two or
four cells on from wherever it is, also over the end of memory (`Machine.step_goes_on`).
-/

namespace Chip8

/-- The instruction skips the next one under a condition. -/
def Instruction.isSkip : Instruction → Bool
  | skipEqByte _ _ | skipNeByte _ _ | skipEq _ _ | skipNe _ _ | skipKey _ | skipNoKey _ => true
  | _ => false

/-- The instruction goes on at an address of its own. -/
def Instruction.isJump : Instruction → Bool
  | jump _ | call _ | ret | jumpFrom _ => true
  | _ => false

/-- Two words that skip under opposite conditions. -/
inductive Word.Complementary : Word → Word → Prop where
  | byte (x : Nibble) (kk : Byte) : Complementary (0x3#4 ++ x ++ kk) (0x4#4 ++ x ++ kk)
  | registers (x y : Nibble) :
    Complementary (0x5#4 ++ x ++ y ++ 0x0#4) (0x9#4 ++ x ++ y ++ 0x0#4)
  | key (x : Nibble) : Complementary (0xE#4 ++ x ++ 0x9E#8) (0xE#4 ++ x ++ 0xA1#8)

/-- The words of jumps and calls are those of three families. -/
theorem Instruction.family_of_isJump {i : Instruction} (hi : i.isJump = true) (hret : i ≠ ret) :
    i.encode.family ∈ [0x1#4, 0x2#4, 0xB#4] := by
  cases i with
  | jump | call | jumpFrom => simp [encode]
  | ret => exact absurd rfl hret
  | _ => cases hi

/-- Skipping is not jumping. -/
theorem Instruction.isJump_of_isSkip {i : Instruction} (hi : i.isSkip = true) :
    i.isJump = false := by
  cases i with
  | jump | call | ret | jumpFrom => cases hi
  | _ => rfl

/-- The word of an instruction that skips is of no other instruction. -/
theorem Instruction.decode?_encode_of_isSkip {i : Instruction} (hi : i.isSkip = true) :
    decode? i.encode = some i := by
  apply decode?_encode
  · rintro rfl
    cases hi
  · rintro rfl
    cases hi

/-- Complementary words are the words of instructions that skip. -/
theorem Word.Complementary.exists_encode {word word' : Word} (hword : word.Complementary word') :
    ∃ i i' : Instruction, i.encode = word ∧ i'.encode = word' ∧
      i.isSkip = true ∧ i'.isSkip = true := by
  cases hword with
  | byte x kk => exact ⟨.skipEqByte x kk, .skipNeByte x kk, rfl, rfl, rfl, rfl⟩
  | registers x y => exact ⟨.skipEq x y, .skipNe x y, rfl, rfl, rfl, rfl⟩
  | key x => exact ⟨.skipKey x, .skipNoKey x, rfl, rfl, rfl, rfl⟩

namespace Machine

variable {w h : Nat} {τ : Type} {m : Machine w h τ}

/-- The instruction of the word skips the next one. -/
def Skips (m : Machine w h τ) (word : Word) : Prop :=
  word.family = 0x3 ∧ m.reg word.x = word.kk ∨
  word.family = 0x4 ∧ m.reg word.x ≠ word.kk ∨
  word.family = 0x5 ∧ m.reg word.x = m.reg word.y ∨
  word.family = 0x9 ∧ m.reg word.x ≠ m.reg word.y ∨
  word.family = 0xE ∧ word.kk = 0x9E ∧
    ((m.reg word.x).toNat ≤ 15 ∧ m.keypad.held.get (keyOfNumber (m.reg word.x).toNat) = true) ∨
  word.family = 0xE ∧ word.kk = 0xA1 ∧
    (15 < (m.reg word.x).toNat ∨ m.keypad.held.get (keyOfNumber (m.reg word.x).toNat) = false)

instance (word : Word) : Decidable (m.Skips word) := inferInstanceAs (Decidable (_ ∨ _))

/-- Where an instruction goes on that the program counter has just moved past. -/
def target (m : Machine w h τ) : Instruction → Word
  | .jump nnn | .call nnn => nnn.toWord
  | .ret => m.cpu.stack.headD m.cpu.pc
  | .jumpFrom nnn => (nnn + (m.reg 0).setWidth 12).toWord
  | i => if m.Skips i.encode then m.cpu.pc.advance 2 else m.cpu.pc

/-- Of two complementary words one skips and the other does not. -/
theorem skips_iff_of_complementary {word word' : Word} (hword : word.Complementary word') :
    m.Skips word ↔ ¬ m.Skips word' := by
  cases hword with
  | byte | registers | key => simp [Skips]

/-- The word of an instruction that does not skip is of another family. -/
theorem not_skips_encode (m : Machine w h τ) {i : Instruction} (hi : i.isSkip = false) :
    ¬ m.Skips i.encode := by
  cases i with
  | skipEqByte | skipNeByte | skipEq | skipNe | skipKey | skipNoKey => cases hi
  | cls | ret => simp [Skips, Instruction.encode, Word.family]
  | _ => simp [Skips, Instruction.encode]

/-- Going on after a condition moves past one more instruction if it holds. -/
theorem pc_skipIf (m : Machine w h τ) (c : Bool) :
    (m.skipIf c).cpu.pc = if c then m.cpu.pc.advance 2 else m.cpu.pc := by
  rw [skipIf_eq_goto]
  rfl

/-- Carrying out an instruction leads to its target. -/
theorem pc_execute (random : Nat → Int) (m : Machine w h τ) (i : Instruction) :
    (m.execute random i).1.cpu.pc = m.target i := by
  have hnext : i.isSkip = false →
      m.cpu.pc = if m.Skips i.encode then m.cpu.pc.advance 2 else m.cpu.pc :=
    fun hi => (if_neg (not_skips_encode m hi)).symm
  cases i with
  | ret => cases hs : m.cpu.stack <;> simp [execute, target, hs]
  | jump | call | jumpFrom => rfl
  | skipEqByte | skipNeByte | skipEq | skipNe =>
    simp [execute, pc_skipIf, target, Skips, Instruction.encode]
  | skipKey | skipNoKey =>
    simp [execute, pc_skipIf, target, Skips, Instruction.encode, Keypad.isHeld_natCast]
  | _ => exact hnext rfl

/-- A step goes on at the target of its instruction, unless this is a call on a full stack or a
return on an empty one. -/
theorem pc_step {i : Instruction} (hi : Instruction.decode? m.fetch = some i)
    (hcall : ∀ nnn, i = .call nnn → m.cpu.stack.length < stackDepth)
    (hret : i = .ret → m.cpu.stack ≠ []) (random : Nat → Int) :
    (m.step random).machine.cpu.pc = m.advance.target i := by
  obtain ⟨hnone, -⟩ | ⟨j, e, hj, hr, hs⟩ | ⟨j, hj, -, hs⟩ := step_cases random m
  · cases hi.symm.trans hnone
  · obtain rfl := Option.some.inj (hi.symm.trans hj)
    rw [hs]
    cases i with
    | ret =>
      have hsome : m.advance.cpu.stack ≠ [] := hret rfl
      simp [refusal?, hsome] at hr
    | call nnn =>
      have hroom : ¬ stackDepth ≤ m.advance.cpu.stack.length :=
        Nat.not_le_of_lt (hcall nnn rfl)
      simp [refusal?, hroom] at hr
    | draw x y n =>
      -- drawing is refused on a screen without pixels, past the instruction all the same
      exact (if_neg (not_skips_encode m.advance rfl)).symm
    | _ => cases hr
  · obtain rfl := Option.some.inj (hi.symm.trans hj)
    rw [hs]
    exact pc_execute random m.advance i

/-- All instructions but jumps, calls and returns go on at the next one or the one after it. -/
theorem target_of_not_isJump (m : Machine w h τ) {i : Instruction} (hi : i.isJump = false) :
    m.target i = if m.Skips i.encode then m.cpu.pc.advance 2 else m.cpu.pc := by
  cases i with
  | jump | call | ret | jumpFrom => cases hi
  | _ => rfl

/-- A step over such an instruction moves on by two cells or by four, round the end of memory. -/
theorem toNat_pc_step_of_not_isJump {i : Instruction} (hi : i.isJump = false)
    (hdecode : Instruction.decode? m.fetch = some i) (random : Nat → Int) :
    (m.step random).machine.cpu.pc.toNat =
      (m.cpu.pc.toNat + if m.Skips m.fetch then 4 else 2) % 4096 := by
  have hpc : m.advance.cpu.pc.toNat = (m.cpu.pc.toNat + 2) % 4096 := Word.toNat_advance ..
  rw [pc_step hdecode (by rintro nnn rfl; cases hi) (by rintro rfl; cases hi) random,
    target_of_not_isJump _ hi, Instruction.encode_of_decode? hdecode]
  by_cases hskips : m.Skips m.fetch
  · have hskips' : m.advance.Skips m.fetch := hskips
    rw [if_pos hskips, if_pos hskips', Word.toNat_advance, hpc]
    exact Nat.mod_add_mod ..
  · have hskips' : ¬ m.advance.Skips m.fetch := hskips
    rw [if_neg hskips, if_neg hskips', hpc]

/-- A step over one of two complementary words skips exactly if a step over the other would not. -/
theorem toNat_pc_step_of_complementary {memory : Memory}
    (hword : m.fetch.Complementary { m with memory := memory }.fetch) (random : Nat → Int) :
    let here := (m.step random).machine.cpu.pc.toNat
    let there := ({ m with memory := memory }.step random).machine.cpu.pc.toNat
    here = (m.cpu.pc.toNat + 4) % 4096 ∧ there = (m.cpu.pc.toNat + 2) % 4096 ∨
      here = (m.cpu.pc.toNat + 2) % 4096 ∧ there = (m.cpu.pc.toNat + 4) % 4096 := by
  intro here there
  obtain ⟨i, i', hi, hi', hskip, hskip'⟩ := hword.exists_encode
  have hhere : here = (m.cpu.pc.toNat + if m.Skips m.fetch then 4 else 2) % 4096 :=
    toNat_pc_step_of_not_isJump (Instruction.isJump_of_isSkip hskip)
      (hi ▸ Instruction.decode?_encode_of_isSkip hskip) random
  have hthere : there = (m.cpu.pc.toNat +
      if m.Skips { m with memory := memory }.fetch then 4 else 2) % 4096 :=
    toNat_pc_step_of_not_isJump (Instruction.isJump_of_isSkip hskip')
      (hi' ▸ Instruction.decode?_encode_of_isSkip hskip') random
  have hskips : m.Skips m.fetch ↔ ¬ m.Skips { m with memory := memory }.fetch :=
    skips_iff_of_complementary hword
  by_cases hs : m.Skips m.fetch
  · rw [if_pos hs] at hhere
    rw [if_neg (hskips.mp hs)] at hthere
    exact .inl ⟨hhere, hthere⟩
  · rw [if_neg hs] at hhere
    rw [if_pos (not_not.mp (mt hskips.mpr hs))] at hthere
    exact .inr ⟨hhere, hthere⟩

/-- A defined word that is neither a call on a full stack nor a return on an empty one is carried
out. -/
theorem step_error_eq_none (hm : m.InRange) (hword : ¬ UndefinedWord m.fetch.toNat)
    (hcall : m.fetch.family = 0x2 → m.cpu.stack.length ≠ 16)
    (hret : m.fetch = 0x00EE → m.cpu.stack ≠ []) (hw : 0 < w) (hh : 0 < h)
    (random : Nat → Int) : (m.step random).error = none := by
  rw [Option.eq_none_iff_forall_ne_some]
  intro e he
  obtain ⟨cause, -, ⟨-, hundefined⟩ | ⟨-, hdigit, hfull⟩ | ⟨-, hreturn, hempty⟩⟩ :=
    (step_error_eq_some_iff hm hw hh random e).mp he
  · exact hword hundefined
  · rw [← Word.toNat_family] at hdigit
    exact hcall (BitVec.eq_of_toNat_eq hdigit) hfull
  · exact hret (BitVec.eq_of_toNat_eq hreturn) hempty

/-- A step goes on at the address in the word of a jump or a call, at the latest return address, or
at the address in the word and `V0` together. Any other step moves on by two cells, by four if the
word skips, round the end of memory from wherever it is; if another word had been there that skips
under the opposite condition, exactly one of the two would have skipped. -/
theorem step_goes_on (hm : m.InRange) (hword : ¬ UndefinedWord m.fetch.toNat)
    (hcall : m.fetch.family = 0x2 → m.cpu.stack.length ≠ 16)
    (hret : m.fetch = 0x00EE → m.cpu.stack ≠ []) (random : Nat → Int) :
    let word := m.fetch
    let pc := m.cpu.pc.toNat
    let after := m.step random
    let next := after.machine.cpu.pc.toNat
    (0 < w → 0 < h → after.error = none) ∧
    (word.family = 0x1 ∨ word.family = 0x2 → next = word.nnn.toNat) ∧
    (word = 0x00EE → m.cpu.stack.head? = some after.machine.cpu.pc) ∧
    (word.family = 0xB → next = (word.nnn.toNat + (m.reg 0).toNat) % 4096) ∧
    (m.Skips word → next = (pc + 4) % 4096) ∧
    (word.family ∉ [0x1, 0x2, 0xB] → word ≠ 0x00EE → ¬ m.Skips word → next = (pc + 2) % 4096) ∧
    (∀ memory, word.Complementary { m with memory := memory }.fetch →
      let there := ({ m with memory := memory }.step random).machine.cpu.pc.toNat
      next = (pc + 4) % 4096 ∧ there = (pc + 2) % 4096 ∨
        next = (pc + 2) % 4096 ∧ there = (pc + 4) % 4096) := by
  intro word pc after next
  obtain ⟨i, hi⟩ : ∃ i, Instruction.decode? word = some i := by
    rw [← Option.ne_none_iff_exists', Ne, Instruction.decode?_eq_none_iff_undefined]
    exact hword
  have hroom : ∀ nnn, i = .call nnn → m.cpu.stack.length < stackDepth := by
    rintro nnn rfl
    have hfamily : word.family = 0x2 := by
      rw [← Instruction.encode_of_decode? hi]
      exact Word.family_of_nnn _ nnn
    exact Nat.lt_of_le_of_ne hm.stack_length_le (hcall hfamily)
  have hreturn : i = .ret → m.cpu.stack ≠ [] := by
    rintro rfl
    exact hret (Instruction.encode_of_decode? hi).symm
  have hpc : after.machine.cpu.pc = m.advance.target i := pc_step hi hroom hreturn random
  refine ⟨fun hw hh => ?_, ?_, fun h0 => ?_, fun hB => ?_, fun hskips => ?_,
    fun hfamily h0 hskips => ?_, fun memory hcomplementary => ?_⟩
  · exact step_error_eq_none hm hword hcall hret hw hh random
  · rintro (hfamily | hfamily)
    · obtain rfl : i = .jump word.nnn := by simpa [Instruction.decode?, hfamily] using hi.symm
      exact (congrArg BitVec.toNat hpc).trans (Addr.toNat_toWord _)
    · obtain rfl : i = .call word.nnn := by simpa [Instruction.decode?, hfamily] using hi.symm
      exact (congrArg BitVec.toNat hpc).trans (Addr.toNat_toWord _)
  · obtain rfl : i = .ret := by
      rw [h0] at hi
      exact (Option.some.inj hi).symm
    obtain ⟨a, rest, hstack⟩ := List.exists_cons_of_ne_nil (hret h0)
    have hnext : after.machine.cpu.pc = m.cpu.stack.headD m.advance.cpu.pc := hpc
    rw [hnext, hstack]
    rfl
  · obtain rfl : i = .jumpFrom word.nnn := by simpa [Instruction.decode?, hB] using hi.symm
    have hnext : next = (word.nnn + (m.reg 0).setWidth 12).toWord.toNat :=
      congrArg BitVec.toNat hpc
    rw [hnext, Addr.toNat_toWord, BitVec.toNat_add, BitVec.toNat_setWidth_of_le (by decide)]
  · have hskip : i.isSkip = true := by
      rw [← Bool.not_eq_false]
      intro hnot
      apply not_skips_encode m hnot
      rwa [Instruction.encode_of_decode? hi]
    have hnext := toNat_pc_step_of_not_isJump (Instruction.isJump_of_isSkip hskip) hi random
    rwa [if_pos hskips] at hnext
  · have hjump : i.isJump = false := by
      rw [← Bool.not_eq_true]
      intro hjump
      apply hfamily
      rw [← Instruction.encode_of_decode? hi]
      apply Instruction.family_of_isJump hjump
      rintro rfl
      exact h0 (Instruction.encode_of_decode? hi).symm
    have hnext := toNat_pc_step_of_not_isJump hjump hi random
    rwa [if_neg hskips] at hnext
  · exact toNat_pc_step_of_complementary hcomplementary random

/-- A word that lies in the last cell and the first skips to the fourth cell of memory. If the
complementary word had been there, the machine would go on at the second. -/
theorem step_goes_on_at_last_cell :
    let m : Machine 64 32 Tone := (Machine.powerOn (.dark 64 32) 10).performAll
      ⟨fun _ => 0, fun _ => .error .notFound⟩
      [.loadNumbers [0x60, 0x31, 0x61, 0x07, 0xAF, 0xFF, 0xF1, 0x55, 0x1F, 0xFF],
        .step, .step, .step, .step, .step]
    let m' : Machine 64 32 Tone := { m with memory := m.memory.set 0xFFF 0x41 }
    m.InRange ∧ ¬ UndefinedWord m.fetch.toNat ∧
      (m.fetch.family = 0x2 → m.cpu.stack.length ≠ 16) ∧
      (m.fetch = 0x00EE → m.cpu.stack ≠ []) ∧
      m.cpu.pc.toNat = 0xFFF ∧ m.fetch = 0x3107 ∧ m'.fetch = 0x4107 ∧
      (m.step fun _ => 0).error = none ∧
      (m.step fun _ => 0).machine.cpu.pc.toNat = 0x003 ∧
      (m'.step fun _ => 0).machine.cpu.pc.toNat = 0x001 := by
  intro m m'
  have hm : Reachable m := (Reachable.powerOn _ _).performAll _ _
  obtain ⟨hpc, hfetch, hfetch', hskips⟩ : m.cpu.pc.toNat = 0xFFF ∧ m.fetch = 0x3107 ∧
      m'.fetch = 0x4107 ∧ m.Skips m.fetch := by
    decide +kernel
  have hword : ¬ UndefinedWord m.fetch.toNat := by
    rw [hfetch]
    decide
  have hcall : m.fetch.family = 0x2 → m.cpu.stack.length ≠ 16 := by
    rw [hfetch]
    exact nofun
  have hret : m.fetch = 0x00EE → m.cpu.stack ≠ [] := by
    rw [hfetch]
    exact nofun
  have hcomplementary : m.fetch.Complementary m'.fetch := by
    rw [hfetch, hfetch']
    exact .byte 0x1 0x07
  obtain ⟨hnone, -, -, -, hnext, -, hpair⟩ :=
    step_goes_on hm.inRange hword hcall hret fun _ => 0
  have hnext := hnext hskips
  rw [hpc] at hnext hpair
  obtain ⟨-, hthere⟩ | ⟨hhere, -⟩ := hpair _ hcomplementary
  · exact ⟨hm.inRange, hword, hcall, hret, hpc, hfetch, hfetch', hnone (by decide) (by decide),
      hnext, hthere⟩
  · cases hnext.symm.trans hhere

end Machine

end Chip8
