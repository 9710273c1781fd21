import Chip8.Proofs.Range

/-!
# Faults

Which words are no instructions can be read off their hexadecimal digits
(`decode?_eq_none_iff_undefined`). A step of a machine in range fails in three ways only, each
told by the word at the program counter and the depth of the stack, and names that word and the
address it came from (`step_error_eq_some_iff`); all else about the machine, the program counter
apart, is as before.
-/

namespace Chip8

/-- The numbers of the words that are no instructions. -/
def UndefinedWord (word : Nat) : Prop :=
  (word / 0x1000 = 0x5 ∨ word / 0x1000 = 0x9) ∧ word % 0x10 ≠ 0 ∨
  word / 0x1000 = 0x8 ∧ (0x8 ≤ word % 0x10 ∧ word % 0x10 ≤ 0xD ∨ word % 0x10 = 0xF) ∨
  word / 0x1000 = 0xE ∧ word % 0x100 ≠ 0x9E ∧ word % 0x100 ≠ 0xA1 ∨
  word / 0x1000 = 0xF ∧
    word % 0x100 ∉ [0x07, 0x0A, 0x15, 0x18, 0x1E, 0x29, 0x33, 0x55, 0x65]

instance (word : Nat) : Decidable (UndefinedWord word) := inferInstanceAs (Decidable (_ ∨ _))

/-- The operation ended in a fault of this cause. -/
def Outcome.Raises {w h : Nat} {τ : Type} (o : Outcome w h τ) (cause : Fault.Cause) : Prop :=
  ∃ f, o.error = some (.fault f) ∧ f.cause = cause

namespace Instruction

/-- The arithmetic family has no rows for `8` to `D` and for `F`. -/
theorem arithmetic?_eq_none_iff (n x y : Nibble) :
    arithmetic? n x y = none ↔ 0x8 ≤ n.toNat ∧ n.toNat ≤ 0xD ∨ n.toNat = 0xF := by
  unfold arithmetic?
  split
  case h_10 =>
    refine ⟨fun _ => ?_, fun _ => rfl⟩
    revert n
    decide
  all_goals simp

/-- The key family has two rows. -/
theorem key?_eq_none_iff (kk : Byte) (x : Nibble) :
    key? kk x = none ↔ kk.toNat ≠ 0x9E ∧ kk.toNat ≠ 0xA1 := by
  unfold key?
  split
  case h_3 h0 h1 =>
    refine ⟨fun _ => ⟨fun e => ?_, fun e => ?_⟩, fun _ => rfl⟩
    · exact h0 (BitVec.eq_of_toNat_eq e)
    · exact h1 (BitVec.eq_of_toNat_eq e)
  all_goals simp

/-- The last family has nine rows. -/
theorem device?_eq_none_iff (kk : Byte) (x : Nibble) :
    device? kk x = none ↔
      kk.toNat ∉ [0x07, 0x0A, 0x15, 0x18, 0x1E, 0x29, 0x33, 0x55, 0x65] := by
  unfold device?
  split
  case h_10 =>
    refine ⟨fun _ => ?_, fun _ => rfl⟩
    revert kk
    decide
  all_goals simp

/-- A word is no instruction exactly if its digits say so. -/
theorem decode?_eq_none_iff_undefined (w : Word) :
    decode? w = none ↔ UndefinedWord w.toNat := by
  unfold UndefinedWord
  rw [← w.toNat_family, ← w.toNat_n, ← w.toNat_kk]
  unfold decode?
  split
  case h_6 hf | h_10 hf =>
    rw [hf]
    split
    · rename_i hn
      simp [hn]
    · rename_i hn
      have hn' : w.n.toNat ≠ 0 := fun e => hn (BitVec.eq_of_toNat_eq e)
      simp [hn']
  case h_9 hf => simp [hf, arithmetic?_eq_none_iff]
  case h_15 hf => simp [hf, key?_eq_none_iff]
  case h_16 =>
    have hf : w.family = 0xF#4 := by
      generalize w.family = f at *
      revert f
      decide +revert
    simp [hf, device?_eq_none_iff]
  all_goals
    rename_i hf
    simp [hf]

/-- The words of calls are those of family 2. -/
theorem exists_decode?_eq_call_iff (w : Word) :
    (∃ nnn, decode? w = some (call nnn)) ↔ w.toNat / 0x1000 = 0x2 := by
  rw [← w.toNat_family]
  constructor
  · rintro ⟨nnn, h⟩
    rw [← encode_of_decode? h, encode, Word.family_of_nnn]
    rfl
  · intro h
    have hf : w.family = 0x2#4 := BitVec.eq_of_toNat_eq h
    refine ⟨w.nnn, decode?_eq_some_iff.mpr ⟨?_, by rintro ⟨⟩, by rintro ⟨⟩⟩⟩
    rw [encode, ← hf, w.family_append]

/-- The word of a return is `00EE`. -/
theorem decode?_eq_ret_iff (w : Word) : decode? w = some ret ↔ w.toNat = 0x00EE := by
  constructor
  · intro h
    rw [← encode_of_decode? h]
    rfl
  · intro h
    obtain rfl : w = 0x00EE#16 := BitVec.eq_of_toNat_eq h
    rfl

end Instruction

namespace Machine

variable {w h : Nat} {τ : Type} {m : Machine w h τ}

/-- The number of the word at the program counter, the byte there first. -/
theorem toNat_fetch (m : Machine w h τ) :
    m.fetch.toNat = 256 * (m.memory.readAt m.cpu.pc.toNat).toNat +
      (m.memory.readAt ((m.cpu.pc.toNat + 1) % 4096 : Nat)).toNat := by
  have hpc : BitVec.ofInt 12 (m.cpu.pc.toNat : Int) = m.cpu.pc.addr := by
    rw [BitVec.ofInt_natCast]
    rfl
  have hnext : BitVec.ofInt 12 (((m.cpu.pc.toNat + 1) % 4096 : Nat) : Int) = m.cpu.pc.addr + 1 := by
    rw [BitVec.ofInt_natCast]
    apply BitVec.eq_of_toNat_eq
    simp [Word.addr]
  rw [fetch, Memory.word, Word.toNat_ofBytes, Memory.readAt, Memory.readAt, hpc, hnext]

/-- On a screen with pixels only returns and calls are refused. -/
theorem refusal?_eq_some_iff (hw : 0 < w) (hh : 0 < h) {i : Instruction} {e : Error} :
    m.refusal? i = some e ↔
      (i = .ret ∧ m.cpu.stack = [] ∧ e = m.faultOf .stackUnderflow .ret) ∨
      ∃ nnn, i = .call nnn ∧ stackDepth ≤ m.cpu.stack.length ∧
        e = m.faultOf .stackOverflow (.call nnn) := by
  cases i with
  | ret => simp [refusal?, @eq_comm _ e]
  | call nnn => simp [refusal?, @eq_comm _ e]
  | draw x y n => simp [refusal?, Screen.hasPixels, hw, hh]
  | _ => simp [refusal?]

/-- The fault of an instruction names its word and the address that it came from. -/
theorem faultOf_advance (hm : m.InRange) {i : Instruction}
    (hi : Instruction.decode? m.fetch = some i) (cause : Fault.Cause) :
    m.advance.faultOf cause i = .fault ⟨cause, m.fetch.toNat, m.cpu.pc.toNat⟩ := by
  have hpc : m.advance.cpu.pc.advance (-2) = m.cpu.pc := Word.advance_advance_neg hm.pc_lt 2
  rw [faultOf, hpc, Instruction.encode_of_decode? hi]

/-- The ways in which a step of a machine in range with pixels to draw on can fail. -/
theorem step_error_eq_some_iff (hm : m.InRange) (hw : 0 < w) (hh : 0 < h)
    (random : Nat → Int) (e : Error) :
    (m.step random).error = some e ↔
      ∃ cause, e = .fault ⟨cause, m.fetch.toNat, m.cpu.pc.toNat⟩ ∧
        (cause = .unknownOpcode ∧ UndefinedWord m.fetch.toNat ∨
          cause = .stackOverflow ∧ m.fetch.toNat / 0x1000 = 0x2 ∧ m.cpu.stack.length = 16 ∨
          cause = .stackUnderflow ∧ m.fetch.toNat = 0x00EE ∧ m.cpu.stack = []) := by
  rw [← Instruction.decode?_eq_none_iff_undefined, ← Instruction.exists_decode?_eq_call_iff,
    ← Instruction.decode?_eq_ret_iff]
  have hfull : m.cpu.stack.length = 16 ↔ stackDepth ≤ m.advance.cpu.stack.length :=
    ⟨fun h => Nat.le_of_eq h.symm, fun h => Nat.le_antisymm hm.stack_length_le h⟩
  rw [hfull]
  obtain ⟨hd, hs⟩ | ⟨i, e', hd, hr, hs⟩ | ⟨i, hd, hr, hs⟩ := step_cases random m
  · rw [hs, hd]
    simp [failed, eq_comm]
  · rw [hs, hd]
    obtain ⟨rfl, hempty, rfl⟩ | ⟨nnn, rfl, hdepth, rfl⟩ := (refusal?_eq_some_iff hw hh).mp hr
    · have hempty' : m.cpu.stack = [] := hempty
      rw [faultOf_advance hm hd]
      simp [failed, hempty', eq_comm]
    · rw [faultOf_advance hm hd]
      simp [failed, hdepth, eq_comm]
  · -- an instruction that is carried out is none of the three
    constructor
    · rw [hs]
      intro he
      cases he
    · rintro ⟨cause, -, ⟨-, hnone⟩ | ⟨-, ⟨nnn, hcall⟩, hdepth⟩ | ⟨-, hret, hempty⟩⟩
      · cases hd.symm.trans hnone
      · obtain rfl := Option.some.inj (hd.symm.trans hcall)
        cases hr.symm.trans ((refusal?_eq_some_iff hw hh).mpr (.inr ⟨nnn, rfl, hdepth, rfl⟩))
      · obtain rfl := Option.some.inj (hd.symm.trans hret)
        cases hr.symm.trans ((refusal?_eq_some_iff hw hh).mpr (.inl ⟨rfl, hempty, rfl⟩))

/-- A step of a machine in range fails with a cause exactly if there is that cause. -/
theorem step_raises_iff (hm : m.InRange) (hw : 0 < w) (hh : 0 < h) (random : Nat → Int)
    (cause : Fault.Cause) :
    (m.step random).Raises cause ↔
      cause = .unknownOpcode ∧ UndefinedWord m.fetch.toNat ∨
        cause = .stackOverflow ∧ m.fetch.toNat / 0x1000 = 0x2 ∧ m.cpu.stack.length = 16 ∨
        cause = .stackUnderflow ∧ m.fetch.toNat = 0x00EE ∧ m.cpu.stack = [] := by
  constructor
  · rintro ⟨f, hf, rfl⟩
    obtain ⟨cause, he, hcause⟩ := (step_error_eq_some_iff hm hw hh random _).mp hf
    obtain rfl := Error.fault.inj he
    exact hcause
  · intro hcause
    exact ⟨_, (step_error_eq_some_iff hm hw hh random _).mpr ⟨cause, rfl, hcause⟩, rfl⟩

/-- A step of a reachable machine faults exactly on an undefined word, a call on a full stack and
a return on an empty one. It fails in no other way, reports the word and the address that it was
fetched from, and moves the program counter past the word; nothing else has happened. -/
theorem Reachable.step_faults [ToneGenerator τ] (hm : Reachable m) (hw : 0 < w) (hh : 0 < h)
    (random : Nat → Int) :
    let pc := m.cpu.pc.toNat
    let word := 256 * (m.memory.readAt pc).toNat +
      (m.memory.readAt ((pc + 1) % 4096 : Nat)).toNat
    ((m.step random).Raises .unknownOpcode ↔ UndefinedWord word) ∧
    ((m.step random).Raises .stackOverflow ↔ word / 0x1000 = 0x2 ∧ m.cpu.stack.length = 16) ∧
    ((m.step random).Raises .stackUnderflow ↔ word = 0x00EE ∧ m.cpu.stack = []) ∧
    ∀ e, (m.step random).error = some e →
      (∃ cause, (cause = .unknownOpcode ∨ cause = .stackOverflow ∨ cause = .stackUnderflow) ∧
        e = .fault ⟨cause, word, pc⟩) ∧
      (m.step random).machine = { m with cpu.pc := BitVec.ofNat 16 ((pc + 2) % 4096) } ∧
      (m.step random).events = #[] := by
  intro pc word
  have hword : m.fetch.toNat = word := m.toNat_fetch
  have hraises := step_raises_iff hm.inRange hw hh random
  have herror := step_error_eq_some_iff hm.inRange hw hh random
  rw [hword] at hraises herror
  refine ⟨?_, ?_, ?_, fun e he => ?_⟩
  · simp [hraises]
  · simp [hraises]
  · simp [hraises]
  · obtain ⟨cause, rfl, hcause⟩ := (herror e).mp he
    rw [step_of_error he]
    refine ⟨⟨cause, ?_, rfl⟩, m.advance_eq, rfl⟩
    obtain ⟨rfl, -⟩ | ⟨rfl, -⟩ | ⟨rfl, -⟩ := hcause
    · exact .inl rfl
    · exact .inr (.inl rfl)
    · exact .inr (.inr rfl)

/-- A word that begins in the last cell ends in the first: after `E0` was put at `FFF`, where the
program then jumps to, the first byte of the font completes an undefined word. -/
theorem step_faults_at_last_cell :
    let m : Machine 64 32 Tone := (Machine.powerOn (.dark 64 32) 10).performAll
      ⟨fun _ => 0, fun _ => .error .notFound⟩
      [.loadNumbers [0xAF, 0xFF, 0x60, 0xE0, 0xF0, 0x55, 0x1F, 0xFF], .step, .step, .step, .step]
    Reachable m ∧ 0 < 64 ∧ 0 < 32 ∧ m.cpu.pc.toNat = 0xFFF ∧
      (m.step fun _ => 0).Raises .unknownOpcode ∧
      (m.step fun _ => 0).error = some (.fault ⟨.unknownOpcode, 0xE0F0, 0xFFF⟩) := by
  intro m
  have hm : Reachable m := (Reachable.powerOn _ _).performAll _ _
  have hfaults := Reachable.step_faults hm (by decide) (by decide) fun _ => 0
  exact ⟨hm, by decide, by decide, by decide +kernel,
    hfaults.1.mpr (by decide +kernel), by decide +kernel⟩

end Machine

end Chip8
