import Chip8.Proofs.Arithmetic

/-!
# Results and flags

An operation on two registers leaves its result in `Vx`, computed from what `Vx` and `Vy` held
before, and most leave a flag in `VF`. Flag and result are put one after the other in registers that
may be the same one or one of the operands; as both are computed beforehand and the result goes in
last, only a flag of an operation on `VF` itself is lost (`Alu.registers`). A sum and a
halved register can be recovered from result and flag (`step_leaves_result_and_flag`).
-/

namespace Chip8

/-- The operations of the arithmetic family. -/
inductive Alu where
  | copy
  | or
  | and
  | xor
  | add
  | sub
  | shiftRight
  | subFrom
  | shiftLeft

namespace Alu

/-- The last digit of the words of an operation. -/
def digit : Alu → Nibble
  | copy => 0x0
  | or => 0x1
  | and => 0x2
  | xor => 0x3
  | add => 0x4
  | sub => 0x5
  | shiftRight => 0x6
  | subFrom => 0x7
  | shiftLeft => 0xE

/-- The operation on two registers. -/
def instruction (x y : Nibble) : Alu → Instruction
  | copy => .copy x y
  | or => .or x y
  | and => .and x y
  | xor => .xor x y
  | add => .add x y
  | sub => .sub x y
  | shiftRight => .shiftRight x y
  | subFrom => .subFrom x y
  | shiftLeft => .shiftLeft x y

/-- The result of an operation on what two registers hold. -/
def result (vx vy : Int) : Alu → Int
  | copy => vy
  | or => vx.lor vy
  | and => vx.land vy
  | xor => vx.xor vy
  | add => (vx + vy) % 256
  | sub => (vx - vy) % 256
  | shiftRight => vx / 2
  | subFrom => (vy - vx) % 256
  | shiftLeft => 2 * vx % 256

/-- The flag of an operation, if it has one. -/
def flag? (vx vy : Int) : Alu → Option Int
  | copy | or | and | xor => none
  | add => some (if vx + vy > 255 then 1 else 0)
  | sub => some (if vx > vy then 1 else 0)
  | shiftRight => some (vx % 2)
  | subFrom => some (if vy > vx then 1 else 0)
  | shiftLeft => some (if vx ≥ 128 then 128 else 0)

/-- The registers after an operation, by what they held before: the result is put in last. -/
def registers (op : Alu) (v : Nibble → Int) (x y : Nibble) : Nibble → Int := fun z =>
  if x = z then op.result (v x) (v y)
  else if 0xF = z then (op.flag? (v x) (v y)).getD (v 0xF)
  else v z

/-- The words of an operation. -/
theorem decode?_word (x y : Nibble) (op : Alu) :
    Instruction.decode? (0x8#4 ++ x ++ y ++ op.digit) = some (op.instruction x y) := by
  rw [Instruction.decode?_eq_some_iff]
  cases op <;> exact ⟨rfl, nofun, nofun⟩

/-- A sum of bytes is its result and its carry. -/
theorem carry_result {vx vy : Int} (hx : 0 ≤ vx ∧ vx < 256) (hy : 0 ≤ vy ∧ vy < 256) (k : Int) :
    256 * (add.flag? vx vy).getD k + add.result vx vy = vx + vy := by
  simp only [flag?, result, Option.getD_some]
  split <;> omega

/-- A halved number is its result and the bit that fell out. -/
theorem result_bit (vx vy k : Int) :
    2 * shiftRight.result vx vy + (shiftRight.flag? vx vy).getD k = vx := by
  simp only [flag?, result, Option.getD_some]
  omega

end Alu

namespace Byte

/-- The lowest bit is the remainder of halving. -/
theorem land_one (b : Byte) : (b.toNat : Int).land 1 = b.toNat % 2 := by
  have hbit : b.toNat &&& 1 = b.toNat % 2 := Nat.and_one_is_mod _
  exact congrArg Nat.cast hbit

/-- The highest bit is set from 128 on. -/
theorem land_highest (b : Byte) :
    (b.toNat : Int).land 128 = if (b.toNat : Int) ≥ 128 then 128 else 0 := by
  have hlt := b.isLt
  have hbit : b.toNat &&& 2 ^ 7 = (b.toNat.testBit 7).toNat * 2 ^ 7 := Nat.and_two_pow ..
  rw [Nat.testBit_eq_decide_div_mod_eq] at hbit
  refine (congrArg Nat.cast hbit).trans ?_
  by_cases hb : 128 ≤ b.toNat
  · have hset : b.toNat / 2 ^ 7 % 2 = 1 := by omega
    have hb' : (b.toNat : Int) ≥ 128 := Int.ofNat_le.mpr hb
    rw [if_pos hb', hset]
    rfl
  · have hclear : b.toNat / 2 ^ 7 % 2 = 0 := by omega
    have hb' : ¬ (b.toNat : Int) ≥ 128 := mt Int.ofNat_le.mp hb
    rw [if_neg hb', hclear]
    rfl

end Byte

namespace Machine

variable {w h : Nat} {τ : Type} {m : Machine w h τ}

/-- An operation computes just these registers from those of a machine. -/
theorem v_compute_instruction (r : Readings) (m : Machine w h τ) (x y : Nibble) (op : Alu) :
    ((op.instruction x y).compute r m.numbers).v = op.registers m.numbers.v x y := by
  have hflag : ∀ z, (if 0xF = z then m.numbers.v 0xF else m.numbers.v z) = m.numbers.v z := by
    intro z
    split
    · rename_i hz
      rw [hz]
    · rfl
  funext z
  cases op with
  | copy | or | and | xor => exact congrArg (ite (x = z) _) (hflag z).symm
  | add | sub | subFrom => rfl
  | shiftRight =>
    have hlow : (m.numbers.v x).land 1 = m.numbers.v x % 2 := Byte.land_one _
    simp only [Alu.registers, Alu.flag?, Option.getD_some, ← hlow]
    rfl
  | shiftLeft =>
    have hhigh : (m.numbers.v x).land 128 = if m.numbers.v x ≥ 128 then 128 else 0 :=
      Byte.land_highest _
    simp only [Alu.registers, Alu.flag?, Option.getD_some, ← hhigh, Alu.result, Int.mul_comm 2]
    rfl

/-- The registers after a step over the word of an operation. -/
theorem v_step_of_alu {x y : Nibble} {op : Alu}
    (hfetch : m.fetch = 0x8#4 ++ x ++ y ++ op.digit) (random : Nat → Int) :
    (m.step random).error = none ∧
      (m.step random).machine.numbers.v = op.registers m.numbers.v x y := by
  have hdecode : Instruction.decode? m.fetch = some (op.instruction x y) := by
    rw [hfetch]
    exact op.decode?_word x y
  have hrefusal : m.advance.refusal? (op.instruction x y) = none := by cases op <;> rfl
  obtain ⟨hnone, hnumbers⟩ := numbers_step_of_decode? hdecode hrefusal random
  refine ⟨hnone, ?_⟩
  rw [hnumbers, ← numbers_advance]
  exact v_compute_instruction _ m.advance x y op

/-- The registers after a step over the word that adds a byte. -/
theorem v_step_of_addByte {x : Nibble} {kk : Byte} (hfetch : m.fetch = 0x7#4 ++ x ++ kk)
    (random : Nat → Int) :
    (m.step random).error = none ∧ ∀ z, (m.step random).machine.numbers.v z =
      if x = z then (m.numbers.v x + kk.toNat) % 256 else m.numbers.v z := by
  have hdecode : Instruction.decode? m.fetch = some (.addByte x kk) :=
    Instruction.decode?_eq_some_iff.mpr ⟨hfetch.symm, nofun, nofun⟩
  obtain ⟨hnone, hnumbers⟩ := numbers_step_of_decode? hdecode rfl random
  exact ⟨hnone, fun z => congrArg (Numbers.v · z) hnumbers⟩

/-- An operation on two registers leaves its result in `Vx` and its flag, if it has one, in `VF`
unless this is `Vx`; both are computed from what the registers held before, also if one is an
operand. All other registers are as before. Flag and result together are the sum of an addition and
the number that was halved. Adding a byte of the word leaves all registers but `Vx` alone. -/
theorem step_leaves_result_and_flag (m : Machine w h τ) (x y : Nibble) (random : Nat → Int) :
    let v := m.numbers.v
    let v' := (m.step random).machine.numbers.v
    (∀ op : Alu, m.fetch = 0x8#4 ++ x ++ y ++ op.digit →
      (m.step random).error = none ∧
      v' x = op.result (v x) (v y) ∧
      (x ≠ 0xF → v' 0xF = (op.flag? (v x) (v y)).getD (v 0xF)) ∧
      (∀ z, z ≠ x → z ≠ 0xF → v' z = v z) ∧
      (op = .add → x ≠ 0xF → 256 * v' 0xF + v' x = v x + v y) ∧
      (op = .shiftRight → x ≠ 0xF → 2 * v' x + v' 0xF = v x)) ∧
    (∀ kk : Byte, m.fetch = 0x7#4 ++ x ++ kk →
      (m.step random).error = none ∧ v' x = (v x + kk.toNat) % 256 ∧ ∀ z, z ≠ x → v' z = v z) := by
  intro v v'
  have hbyte : ∀ z, 0 ≤ v z ∧ v z < 256 :=
    fun z => ⟨Int.natCast_nonneg _, Int.ofNat_lt.mpr (m.reg z).isLt⟩
  refine ⟨fun op hfetch => ?_, fun kk hfetch => ?_⟩
  · obtain ⟨hnone, hregisters⟩ := v_step_of_alu hfetch random
    have hafter : ∀ z, v' z = op.registers v x y z := congrFun hregisters
    have hresult : v' x = op.result (v x) (v y) := (hafter x).trans (if_pos rfl)
    have hflag : x ≠ 0xF → v' 0xF = (op.flag? (v x) (v y)).getD (v 0xF) :=
      fun hx => (hafter 0xF).trans ((if_neg hx).trans (if_pos rfl))
    refine ⟨hnone, hresult, hflag, fun z hzx hzF => ?_, ?_, ?_⟩
    · exact (hafter z).trans ((if_neg hzx.symm).trans (if_neg hzF.symm))
    · rintro rfl hx
      rw [hresult, hflag hx]
      exact Alu.carry_result (hbyte x) (hbyte y) _
    · rintro rfl hx
      rw [hresult, hflag hx]
      exact Alu.result_bit ..
  · obtain ⟨hnone, hafter⟩ := v_step_of_addByte hfetch random
    exact ⟨hnone, (hafter x).trans (if_pos rfl), fun z hz => (hafter z).trans (if_neg hz.symm)⟩

/-- With `V0` at 200 and `VF` at 100, adding `VF` to `V0` leaves the remainder and the carry that
make 300, though the carry overwrites an operand; taking `V0` from `VF` leaves the difference in
`VF` and no flag; and so does adding a byte to it. -/
theorem step_leaves_result_and_flag_in_last :
    let m (hi lo : Int) : Machine 64 32 Tone := (Machine.powerOn (.dark 64 32) 10).performAll
      ⟨fun _ => 0, fun _ => .error .notFound⟩
      [.loadNumbers [0x60, 200, 0x6F, 100, hi, lo], .step, .step]
    let v' (hi lo : Int) := ((m hi lo).step fun _ => 0).machine.numbers.v
    (m 0x80 0xF4).fetch = 0x80F4 ∧ v' 0x80 0xF4 0x0 = 44 ∧ v' 0x80 0xF4 0xF = 1 ∧
      256 * v' 0x80 0xF4 0xF + v' 0x80 0xF4 0x0 = 300 ∧
      (m 0x8F 0x05).fetch = 0x8F05 ∧ v' 0x8F 0x05 0xF = 156 ∧
      (m 0x7F 0xFF).fetch = 0x7FFF ∧ v' 0x7F 0xFF 0xF = 99 := by
  intro m v'
  have hadd : (m 0x80 0xF4).fetch = 0x80F4 := by decide +kernel
  have hsub : (m 0x8F 0x05).fetch = 0x8F05 := by decide +kernel
  have hbyte : (m 0x7F 0xFF).fetch = 0x7FFF := by decide +kernel
  obtain ⟨-, hresult, hflag, -, hsum, -⟩ :=
    (step_leaves_result_and_flag (m 0x80 0xF4) 0x0 0xF fun _ => 0).1 .add hadd
  obtain ⟨-, hdifference, -⟩ :=
    (step_leaves_result_and_flag (m 0x8F 0x05) 0xF 0x0 fun _ => 0).1 .sub hsub
  obtain ⟨-, hbumped, -⟩ :=
    (step_leaves_result_and_flag (m 0x7F 0xFF) 0xF 0x0 fun _ => 0).2 0xFF hbyte
  have hx : (0x0 : Nibble) ≠ 0xF := by decide
  refine ⟨hadd, hresult.trans (by decide +kernel), (hflag hx).trans (by decide +kernel),
    (hsum rfl hx).trans (by decide +kernel), hsub, hdifference.trans (by decide +kernel),
    hbyte, hbumped.trans (by decide +kernel)⟩

end Machine

end Chip8
