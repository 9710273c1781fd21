import Chip8.Proofs.Lockstep
import Chip8.Proofs.Reachable

/-!
# Only the low bits of an address count

The index register, the program counter and the return addresses have sixteen bits, of which twelve
name a memory cell. The other four may be set: by adding to the index register, or by starting with
them, and a return jumps to them unmasked. Nothing that a machine does depends on them. Machines
that are equal once they are reduced (`Machine.low`) are those in lockstep up to the low bits
(`lockstep_lowBits_iff`), so every operation comes to the same on both, again once it is reduced
(`perform_low`), and so does everything that follows.
-/

namespace Chip8

/-- The word with its high four bits cleared. -/
def Word.low (a : Word) : Word := a.addr.toWord

/-- The fault with its address brought back below 4096. -/
def Fault.low (f : Fault) : Fault := { f with pc := f.pc % 4096 }

/-- The error with the address of a fault brought back below 4096. -/
def Error.low : Error → Error
  | .fault f => .fault f.low
  | e => e

/-- The machine with the high four bits cleared in all its addresses. -/
def Machine.low {w h : Nat} {τ : Type} (m : Machine w h τ) : Machine w h τ :=
  { m with
    cpu.i := m.cpu.i.low
    cpu.pc := m.cpu.pc.low
    cpu.stack := m.cpu.stack.map Word.low
    cpu.fault := m.cpu.fault.map Fault.low }

/-- The outcome without its trace, and with the high four bits cleared in all its addresses. -/
def Outcome.low {w h : Nat} {τ : Type} (o : Outcome w h τ) : Outcome w h τ where
  machine := o.machine.low
  events := #[]
  error := o.error.map Error.low
  answer := o.answer

/-- Clearing the high four bits leaves the remainder modulo 4096. -/
theorem Word.toNat_low (a : Word) : a.low.toNat = a.toNat % 4096 := by
  simp only [low, Addr.toWord, addr, BitVec.toNat_setWidth]
  omega

/-- Words with the same low bits point to the same cell. -/
theorem Word.addr_eq_of_low_eq {a b : Word} (hab : a.low = b.low) : a.addr = b.addr := by
  rw [← addr_toWord a.addr, ← addr_toWord b.addr]
  exact congrArg addr hab

/-- What is added to words with the same low bits leaves these the same, also past the last word. -/
theorem Word.low_add_eq {a b : Word} (c : Word) (hab : a.low = b.low) :
    (a + c).low = (b + c).low := by
  have hmod : a.toNat % 4096 = b.toNat % 4096 := by rw [← toNat_low, ← toNat_low, hab]
  apply BitVec.eq_of_toNat_eq
  rw [toNat_low, toNat_low, BitVec.toNat_add, BitVec.toNat_add]
  omega

namespace Tolerance

/-- The high four bits of addresses may differ. -/
def lowBits : Tolerance where
  __ := exact
  word a b := a.low = b.low
  place p q := p % 4096 = q % 4096
  word_refl _ := rfl
  word_add := Word.low_add_eq
  addr_eq := Word.addr_eq_of_low_eq
  place_refl _ := rfl
  place_toNat {a b} hab := by
    have hmod : a.toNat % 4096 = b.toNat % 4096 := by rw [← Word.toNat_low, ← Word.toNat_low, hab]
    omega

/-- No instruction can tell one high bit from another. -/
theorem faithful_lowBits (random : Nat → Int) : lowBits.Faithful random random where
  timer_eq h := h
  held_eq h := congrArg Keypad.held h
  random_eq k := congrArg random (Nat.zero_add k)

theorem lowBits_fault_iff {f g : Chip8.Fault} : lowBits.Fault f g ↔ f.low = g.low := by
  constructor
  · rintro ⟨hcause, hopcode, hplace⟩
    have hpc : f.pc % 4096 = g.pc % 4096 := hplace
    rw [Chip8.Fault.low, Chip8.Fault.low, hcause, hopcode, hpc]
  · intro hlow
    obtain ⟨hcause, hopcode, hplace⟩ := Chip8.Fault.mk.inj hlow
    exact ⟨hcause, hopcode, hplace⟩

theorem lowBits_error_iff {e₁ e₂ : Chip8.Error} : lowBits.Error e₁ e₂ ↔ e₁.low = e₂.low := by
  cases e₁ with
  | fault f =>
    cases e₂ with
    | fault g => simp only [Tolerance.Error, Chip8.Error.low, Error.fault.injEq, lowBits_fault_iff]
    | load | badValue | noPixels | noKeyRegister => simp [Tolerance.Error, Chip8.Error.low]
  | load | badValue | noPixels | noKeyRegister =>
    cases e₂ <;> simp [Tolerance.Error, Chip8.Error.low]

end Tolerance

/-- Optional values are related if their images agree, where values are. -/
theorem rel_iff_map_eq {α β : Type} {r : α → α → Prop} {f : α → β}
    (hr : ∀ x y, r x y ↔ f x = f y) (a b : Option α) :
    Option.Rel r a b ↔ a.map f = b.map f := by
  cases a with
  | none =>
    cases b with
    | none => exact iff_of_true .none rfl
    | some y => constructor <;> rintro ⟨⟩
  | some x =>
    cases b with
    | none => constructor <;> rintro ⟨⟩
    | some y =>
      rw [Option.rel_some_some, Option.map_some, Option.map_some, Option.some_inj]
      exact hr x y

/-- Lists of words are related up to the low bits if they are equal once they are reduced. -/
theorem forall₂_low_iff (l k : List Word) :
    List.Forall₂ Tolerance.lowBits.word l k ↔ l.map Word.low = k.map Word.low := by
  rw [← List.forall₂_eq_eq_eq, List.forall₂_map_left_iff, List.forall₂_map_right_iff]
  rfl

namespace Machine

variable {w h : Nat} {τ : Type} {m₁ m₂ : Machine w h τ}

/-- Machines are in lockstep up to the low bits if they are equal once they are reduced. -/
theorem lockstep_lowBits_iff : m₁.Lockstep .lowBits m₂ ↔ m₁.low = m₂.low := by
  have hfault := rel_iff_map_eq (f := Fault.low) (fun _ _ => Tolerance.lowBits_fault_iff)
    m₁.cpu.fault m₂.cpu.fault
  simp only [low, Machine.mk.injEq, Cpu.mk.injEq]
  constructor
  · intro hm
    have hdraws := hm.draws.trans (Nat.zero_add _)
    have hframes := hm.framesPresented.trans (Nat.zero_add _)
    have hscreen := congr (congrArg₂ Screen.mk hm.rows hm.shouldDraw) hframes
    exact ⟨⟨hm.v, hm.i, hm.pc, (forall₂_low_iff _ _).mp hm.stack, hm.delay, hm.sound, hm.mode,
      hm.keyRegister, hfault.mp hm.fault⟩, hm.memory, hscreen, hm.keypad, hm.tone,
      hm.speed, hdraws⟩
  · rintro ⟨⟨hv, hi, hpc, hstack, hdelay, hsound, hmode, hregister, hf⟩, hmemory, hscreen, hkeypad,
      htone, hspeed, hdraws⟩
    exact
      { v := hv
        i := hi
        pc := hpc
        stack := (forall₂_low_iff _ _).mpr hstack
        delay := hdelay
        sound := hsound
        mode := hmode
        keyRegister := hregister
        memory := hmemory
        rows := congrArg Screen.rows hscreen
        keypad := hkeypad
        draws := hdraws.trans (Nat.zero_add _).symm
        fault := hfault.mpr hf
        tone := htone
        speed := hspeed
        shouldDraw := congrArg Screen.shouldDraw hscreen
        framesPresented := (congrArg Screen.framesPresented hscreen).trans (Nat.zero_add _).symm }

/-- Outcomes in lockstep up to the low bits are equal once they are reduced. -/
theorem low_eq_of_lockstep {o₁ o₂ : Outcome w h τ} (ho : o₁.Lockstep .lowBits o₂) :
    o₁.low = o₂.low := by
  have herror := (rel_iff_map_eq (f := Error.low) (fun _ _ => Tolerance.lowBits_error_iff)
    o₁.error o₂.error).mp ho.error
  simp only [Outcome.low, lockstep_lowBits_iff.mp ho.machine, herror, ho.answer]

variable [ToneGenerator τ]

/-- An operation on machines in lockstep up to the low bits comes to the same on both. -/
theorem Lockstep.perform_lowBits (hm : m₁.Lockstep .lowBits m₂) (env : Environment)
    (op : Operation) : (m₁.perform env op).Lockstep .lowBits (m₂.perform env op) := by
  have hT := Tolerance.faithful_lowBits env.random
  cases op with
  | step => exact hm.step hT
  | frame => exact hm.frame hT
  | press key => exact hm.press key (congrArg (fun p => (Keypad.press p key).2) hm.keypad)
  | release key => exact (hm.release key).idle
  | keyPressed key => exact hm.keyPressed key
  | updateTimers => exact (hm.updateTimers hT).idle
  | playSound => exact ⟨hm.playSound hT, .none, rfl⟩
  | reset => exact ⟨hm.reset, .none, rfl⟩
  | loadNumbers numbers => exact hm.loadNumbers numbers
  | loadFile path => exact hm.loadFile env.files path

/-- An operation on machines that are equal once they are reduced comes to the same on both, once it
is reduced. -/
theorem perform_low (hm : m₁.low = m₂.low) (env : Environment) (op : Operation) :
    (m₁.perform env op).low = (m₂.perform env op).low :=
  low_eq_of_lockstep ((lockstep_lowBits_iff.mpr hm).perform_lowBits env op)

/-- Machines that are equal but for the high four bits of their addresses go through any calls in
the same way: after each of them they are still equal but for these, and it has succeeded on both
or has ended on both in the same error, whose address is the same but for these. -/
theorem outcomes_low (hm : m₁.low = m₂.low) (calls : List (Environment × Operation)) :
    (m₁.outcomes calls).map Outcome.low = (m₂.outcomes calls).map Outcome.low := by
  induction calls generalizing m₁ m₂ with
  | nil => rfl
  | cons call calls ih =>
    obtain ⟨env, op⟩ := call
    have hfirst := perform_low hm env op
    simp only [outcomes, List.map_cons, hfirst, ih (congrArg Outcome.machine hfirst)]

/-- A program that adds two to the index register, loads from it, returns and meets no instruction:
one machine starts at the last cell and the other at the last word, whose index register is the one
that overflows. Both load the same bytes, and fault at the return addresses that they started
with. -/
theorem outcomes_low_past_last_word :
    let env : Environment := ⟨fun _ => 0, fun _ => .error .notFound⟩
    let program : List Int := [0x60, 0x02, 0xF0, 0x1E, 0xF1, 0x65, 0x00, 0xEE, 0xFF, 0xFF]
    let m : Machine 64 32 Tone :=
      (Machine.powerOn (.dark 64 32) 10).performAll env [.loadNumbers program]
    let m₁ := { m with cpu.i := 0x0FFF, cpu.pc := 0x0200, cpu.stack := [0x0208] }
    let m₂ := { m with cpu.i := 0xFFFF, cpu.pc := 0x5200, cpu.stack := [0x1208] }
    let calls := [.step, .step, .frame, .press 5, .reset, .loadNumbers program, .frame].map
      (Prod.mk env)
    m₁.low = m₂.low ∧ (m₁.outcomes calls).map Outcome.low = (m₂.outcomes calls).map Outcome.low ∧
      (m₁.outcomes calls)[1]?.map (fun o => o.machine.cpu.i) = some 0x1001 ∧
      (m₂.outcomes calls)[1]?.map (fun o => o.machine.cpu.i) = some 0x0001 ∧
      (m₁.outcomes calls)[2]?.map Outcome.error =
        some (some (.fault ⟨.unknownOpcode, 0xFFFF, 0x0208⟩)) ∧
      (m₂.outcomes calls)[2]?.map Outcome.error =
        some (some (.fault ⟨.unknownOpcode, 0xFFFF, 0x1208⟩)) := by
  intro env program m m₁ m₂ calls
  have hlow : m₁.low = m₂.low := by
    simp only [low, m₁, m₂]
    rfl
  refine ⟨hlow, outcomes_low hlow calls, ?_, ?_, ?_, ?_⟩ <;> decide +kernel

end Machine

end Chip8
