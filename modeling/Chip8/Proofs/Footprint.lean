import Chip8.Proofs.Calls
import Chip8.Proofs.Timers

/-!
# What an instruction may change

For each part of a machine there are words whose instructions may change it, and no other
instruction does. `Footprint` lists them, with the cells of memory and the registers that each may
write; a step that succeeds stays within the footprint of its word (`Machine.step_footprint`).
-/

namespace Chip8

/-- A cell that a row of values changes lies within the row. -/
theorem Bank.offset_lt_of_get_writeAll_ne {w : Nat} {α : Type} {b : Bank w α} {a c : BitVec w}
    {xs : List α} (hlength : xs.length ≤ Nat.pow 2 w)
    (hne : (b.writeAll a xs).get c ≠ b.get c) : (c - a).toNat < xs.length := by
  rw [get_writeAll _ _ _ _ hlength] at hne
  refine Nat.lt_of_not_le fun hle => hne ?_
  rw [List.getElem?_eq_none hle, Option.getD_none]

/-- An address is its offset from where a word points to, counted from there. -/
theorem Addr.toNat_eq_of_offset (a : Addr) (i : Word) :
    a.toNat = (i.toNat + (a - i.addr).toNat) % 4096 := by
  have ha := a.isLt
  rw [BitVec.toNat_sub, Word.addr, BitVec.toNat_setWidth]
  omega

/-- The word is an instruction of the last family with this low byte. -/
def Word.IsDevice (word : Word) (kk : Byte) : Prop := word.family = 0xF ∧ word.kk = kk

/-- The low byte of the word that sets a timer. -/
def Timer.setter : Timer → Byte
  | .delay => 0x15
  | .sound => 0x18

/-- The instruction of the word may write this register: its destination, the flag, or one of those
that are loaded from memory. -/
def Word.MayWrite (word : Word) (r : Nibble) : Prop :=
  r = word.x ∧ (word.family ∈ [0x6, 0x7, 0x8, 0xC] ∨ word.IsDevice 0x07) ∨
  r = 0xF ∧ (word.family = 0x8 ∧ word.n ∈ [0x4, 0x5, 0x6, 0x7, 0xE] ∨ word.family = 0xD) ∨
  r ≤ word.x ∧ word.IsDevice 0x65

/-- The instruction does nothing but decide where to go on. -/
def Instruction.isControl : Instruction → Bool
  | sys _ | ret | jump _ | call _ | skipEqByte _ _ | skipNeByte _ _ | skipEq _ _ | skipNe _ _
  | jumpFrom _ | skipKey _ | skipNoKey _ => true
  | _ => false

namespace Machine

variable {w h : Nat} {τ : Type}

/-- The second machine differs from the first at most in what the instruction of the word may
change. -/
structure Footprint (word : Word) (m m' : Machine w h τ) : Prop
    extends SameSurroundings m m' where
  held : m'.keypad.held = m.keypad.held
  memory : ∀ a, m'.memory.get a ≠ m.memory.get a →
    ∃ j, a.toNat = (m.cpu.i.toNat + j) % 4096 ∧
      (word.IsDevice 0x33 ∧ j < 3 ∨ word.IsDevice 0x55 ∧ j ≤ word.x.toNat)
  register : ∀ r, m'.reg r ≠ m.reg r → word.MayWrite r
  index : m'.cpu.i ≠ m.cpu.i → word.family = 0xA ∨ word.IsDevice 0x1E ∨ word.IsDevice 0x29
  stack : m'.cpu.stack ≠ m.cpu.stack → word.family = 0x2 ∨ word = 0x00EE
  delay : m'.cpu.delay ≠ m.cpu.delay → word.IsDevice 0x15
  sound : m'.cpu.sound ≠ m.cpu.sound → word.IsDevice 0x18
  pixels : m'.screen.rows ≠ m.screen.rows → word = 0x00E0 ∨ word.family = 0xD
  wait : m'.cpu.mode ≠ m.cpu.mode ∨ m'.cpu.keyRegister ≠ m.cpu.keyRegister ∨
    m'.keypad.listener ≠ m.keypad.listener → word.IsDevice 0x0A

variable {m : Machine w h τ} {i : Instruction} {random : Nat → Int}

/-- A register that is set is the only one that changes. -/
theorem eq_of_reg_setReg_ne {x r : Nibble} {b : Byte} (hne : (m.setReg x b).reg r ≠ m.reg r) :
    r = x := by
  by_contra hrx
  exact hne (m.cpu.v.get_set_ne (Ne.symm hrx) b)

/-- Of a result and its flag, only their registers change. -/
theorem eq_of_reg_setFlagged_ne {x r : Nibble} {flag result : Byte}
    (hne : (m.setFlagged x flag result).reg r ≠ m.reg r) : r = x ∨ r = 0xF := by
  by_cases hx : ((m.setReg 0xF flag).setReg x result).reg r = (m.setReg 0xF flag).reg r
  · exact .inr (eq_of_reg_setReg_ne (hx ▸ hne))
  · exact .inl (eq_of_reg_setReg_ne hx)

/-- An instruction that decides where to go on leaves alone what depends neither on the program
counter nor on the stack. -/
theorem execute_of_isControl (hi : i.isControl = true) {α : Type} {f : Machine w h τ → α}
    (hf : ∀ m pc stack, f { m with cpu.pc := pc, cpu.stack := stack } = f m) :
    f (m.execute random i).1 = f m := by
  have hgoto : ∀ pc, f (m.goto pc) = f m := fun pc => hf m pc m.cpu.stack
  cases i with
  | sys => rfl
  | ret =>
    simp only [execute]
    split
    · rfl
    · exact hf ..
  | jump | jumpFrom => exact hgoto _
  | call => exact hf ..
  | skipEqByte | skipNeByte | skipEq | skipNe | skipKey | skipNoKey =>
    simp only [execute, skipIf_eq_goto]
    exact hgoto _
  | _ => cases hi

/-- Memory changes where decimal digits or registers are stored. -/
theorem memory_execute {a : Addr} (hne : (m.execute random i).1.memory.get a ≠ m.memory.get a) :
    ∃ j, a.toNat = (m.cpu.i.toNat + j) % 4096 ∧
      (i.encode.IsDevice 0x33 ∧ j < 3 ∨ i.encode.IsDevice 0x55 ∧ j ≤ i.encode.x.toNat) := by
  refine ⟨(a - m.cpu.i.addr).toNat, a.toNat_eq_of_offset m.cpu.i, ?_⟩
  cases i with
  | decimal x =>
    have hlength : (m.reg x).decimalDigits.length ≤ Nat.pow 2 12 := Nat.le_of_ble_eq_true rfl
    have hlt := Bank.offset_lt_of_get_writeAll_ne hlength hne
    exact .inl ⟨⟨Word.family_of_kk .., Word.kk_of_kk ..⟩, hlt⟩
  | store x =>
    have hlt := Bank.offset_lt_of_get_writeAll_ne (m.length_stored x) hne
    rw [Bank.length_read] at hlt
    have hencode : (Instruction.store x).encode.x = x := Word.x_of_kk ..
    rw [hencode]
    exact .inr ⟨⟨Word.family_of_kk .., Word.kk_of_kk ..⟩, Nat.le_of_lt_succ hlt⟩
  | ret | skipEqByte | skipNeByte | skipEq | skipNe | skipKey | skipNoKey =>
    exact absurd (execute_of_isControl (f := fun m => m.memory.get a) rfl fun _ _ _ => rfl) hne
  | _ => exact absurd rfl hne

/-- The index register changes where it is set, added to or pointed at a glyph. -/
theorem index_execute (hne : (m.execute random i).1.cpu.i ≠ m.cpu.i) :
    i.encode.family = 0xA ∨ i.encode.IsDevice 0x1E ∨ i.encode.IsDevice 0x29 := by
  cases i with
  | setIndex nnn => exact .inl (Word.family_of_nnn ..)
  | addIndex x => exact .inr (.inl ⟨Word.family_of_kk .., Word.kk_of_kk ..⟩)
  | glyph x => exact .inr (.inr ⟨Word.family_of_kk .., Word.kk_of_kk ..⟩)
  | ret | skipEqByte | skipNeByte | skipEq | skipNe | skipKey | skipNoKey =>
    exact absurd (execute_of_isControl (f := fun m => m.cpu.i) rfl fun _ _ _ => rfl) hne
  | _ => exact absurd rfl hne

/-- Pixels change where the screen is cleared or a sprite is drawn. -/
theorem rows_execute (hne : (m.execute random i).1.screen.rows ≠ m.screen.rows) :
    i.encode = 0x00E0 ∨ i.encode.family = 0xD := by
  cases i with
  | cls => exact .inl rfl
  | draw x y n => exact .inr (Word.family_of_n ..)
  | ret | skipEqByte | skipNeByte | skipEq | skipNe | skipKey | skipNoKey =>
    exact absurd (execute_of_isControl (f := fun m => m.screen.rows) rfl fun _ _ _ => rfl) hne
  | _ => exact absurd rfl hne

/-- A register changes only if the word names it, as the destination, the flag or the last to be
loaded. -/
theorem reg_execute {r : Nibble} (hne : (m.execute random i).1.reg r ≠ m.reg r) :
    i.encode.MayWrite r := by
  cases i with
  | setByte | addByte | random =>
    obtain rfl := eq_of_reg_setReg_ne hne
    exact .inl ⟨(Word.x_of_kk ..).symm, .inl (by simp [Instruction.encode])⟩
  | getDelay =>
    obtain rfl := eq_of_reg_setReg_ne hne
    exact .inl ⟨(Word.x_of_kk ..).symm, .inr ⟨Word.family_of_kk .., Word.kk_of_kk ..⟩⟩
  | copy | or | and | xor =>
    obtain rfl := eq_of_reg_setReg_ne hne
    exact .inl ⟨(Word.x_of_n ..).symm, .inl (by simp [Instruction.encode])⟩
  | add | sub | shiftRight | subFrom | shiftLeft =>
    obtain rfl | rfl := eq_of_reg_setFlagged_ne hne
    · exact .inl ⟨(Word.x_of_n ..).symm, .inl (by simp [Instruction.encode])⟩
    · exact .inr (.inl ⟨rfl, .inl ⟨Word.family_of_n .., by simp [Instruction.encode]⟩⟩)
  | draw =>
    obtain rfl := eq_of_reg_setReg_ne hne
    exact .inr (.inl ⟨rfl, .inr (Word.family_of_n ..)⟩)
  | load x =>
    refine .inr (.inr ⟨?_, Word.family_of_kk .., Word.kk_of_kk ..⟩)
    rw [reg_execute_load] at hne
    have hencode : (Instruction.load x).encode.x = x := Word.x_of_kk ..
    rw [hencode]
    by_contra hr
    exact hne (if_neg hr)
  | ret | skipEqByte | skipNeByte | skipEq | skipNe | skipKey | skipNoKey =>
    exact absurd (execute_of_isControl (f := fun m => m.reg r) rfl fun _ _ _ => rfl) hne
  | _ => exact absurd rfl hne

/-- The stack changes in calls and returns. -/
theorem stack_execute (hne : (m.execute random i).1.cpu.stack ≠ m.cpu.stack) :
    i.encode.family = 0x2 ∨ i.encode = 0x00EE := by
  rcases i.call_or_ret_or_plain with ⟨nnn, rfl⟩ | rfl | ⟨hcall, hret⟩
  · exact .inl (Word.family_of_nnn ..)
  · exact .inr rfl
  · exact absurd (execute_stack hcall hret random m) hne

/-- A timer changes where it is set. -/
theorem timer_execute_ne {t : Timer}
    (hne : (m.execute random i).1.cpu.timer t ≠ m.cpu.timer t) : i.encode.IsDevice t.setter := by
  rw [timer_execute] at hne
  cases hi : i.storesIn? t with
  | none =>
    rw [hi] at hne
    exact absurd rfl hne
  | some x =>
    cases t with
    | delay =>
      cases i with
      | setDelay => exact ⟨Word.family_of_kk .., Word.kk_of_kk ..⟩
      | _ => cases hi
    | sound =>
      cases i with
      | setSound => exact ⟨Word.family_of_kk .., Word.kk_of_kk ..⟩
      | _ => cases hi

/-- A wait for a key begins in one instruction. -/
theorem wait_execute (hne : (m.execute random i).1.cpu.mode ≠ m.cpu.mode ∨
    (m.execute random i).1.cpu.keyRegister ≠ m.cpu.keyRegister ∨
    (m.execute random i).1.keypad.listener ≠ m.keypad.listener) : i.encode.IsDevice 0x0A := by
  cases hi : i.awaits? with
  | none =>
    obtain ⟨hmode, hregister, hkeypad⟩ := execute_of_not_awaits hi random m
    simp [hmode, hregister, hkeypad] at hne
  | some x =>
    cases i with
    | waitKey => exact ⟨Word.family_of_kk .., Word.kk_of_kk ..⟩
    | _ => cases hi

/-- Carrying out an instruction changes no more than its word allows. -/
theorem footprint_execute (random : Nat → Int) (m : Machine w h τ) (i : Instruction) :
    Footprint i.encode m (m.execute random i).1 where
  toSameSurroundings := execute_surroundings random m i
  held := by
    cases hi : i.awaits? with
    | none => rw [(execute_of_not_awaits hi random m).2.2]
    | some x =>
      cases i with
      | waitKey => rfl
      | _ => cases hi
  memory _ := memory_execute
  register _ := reg_execute
  index := index_execute
  stack := stack_execute
  delay := timer_execute_ne (t := .delay)
  sound := timer_execute_ne (t := .sound)
  pixels := rows_execute
  wait := wait_execute

/-- A step that succeeds changes no more than the word at the program counter allows, and the
program counter. -/
theorem step_footprint {m : Machine w h τ} {random : Nat → Int}
    (hok : (m.step random).error = none) : Footprint m.fetch m (m.step random).machine := by
  obtain ⟨_, hs⟩ | ⟨_, _, _, _, hs⟩ | ⟨i, hi, _, hs⟩ := step_cases random m
  · rw [hs] at hok
    cases hok
  · rw [hs] at hok
    cases hok
  · -- moving past the word has changed nothing that a footprint is about
    obtain ⟨⟨hfault, htone, hspeed, hdraw, hframes⟩, hheld, hmemory, hregister, hindex, hstack,
      hdelay, hsound, hpixels, hwait⟩ := footprint_execute random m.advance i
    rw [hs, ← Instruction.encode_of_decode? hi]
    exact ⟨⟨hfault, htone, hspeed, hdraw, hframes⟩, hheld, hmemory, hregister, hindex, hstack,
      hdelay, hsound, hpixels, hwait⟩

/-- Four registers stored from `FFE` on reach over the end of memory: the first cell changes, and
the third is left alone. -/
theorem step_footprint_over_end_of_memory :
    let random : Nat → Int := fun _ => 0
    let m : Machine 64 32 Tone := (Machine.powerOn (.dark 64 32) 10).performAll
      ⟨random, fun _ => .error .notFound⟩ [.loadNumbers [0xAF, 0xFE, 0xF3, 0x55], .step]
    (m.step random).error = none ∧ Footprint 0xF355 m (m.step random).machine ∧
      (m.step random).machine.memory.get 0x000 ≠ m.memory.get 0x000 ∧
      (m.step random).machine.memory.get 0x002 = m.memory.get 0x002 := by
  intro random m
  obtain ⟨hok, hword, hi, hfirst⟩ : (m.step random).error = none ∧ m.fetch = 0xF355 ∧
      m.cpu.i = 0xFFE ∧ (m.step random).machine.memory.get 0x000 ≠ m.memory.get 0x000 := by
    decide +kernel
  have hstep := step_footprint hok
  rw [hword] at hstep
  refine ⟨hok, hstep, hfirst, ?_⟩
  by_contra hthird
  obtain ⟨j, hj, ⟨⟨-, hkk⟩, -⟩ | ⟨-, hlast⟩⟩ := hstep.memory _ hthird
  · exact absurd hkk (by decide)
  · have hoffset : (2 : Nat) = (0xFFE + j) % 4096 := by rwa [hi] at hj
    have hthree : j ≤ 3 := hlast
    omega

end Machine

end Chip8
