import Chip8.Proofs.Alike
import Mathlib.Algebra.GroupWithZero.Nat

/-!
# Grouping instructions into frames

How the instructions of a run are grouped into frames shows in the timers, in the tone and in the
marks of the screen, but in nothing that a program can reach unless it reads the delay timer. Two
machines that are alike up to their timers stay so in every step that does not read it
(`Alike.steps_untimed`), and the end of a frame keeps them so. A run that goes through is therefore
the same in any frames that it fills (`Alike.frames_untimed`).
-/

namespace Chip8

namespace Tolerance

/-- The timers may differ. -/
def untimed : Tolerance where
  __ := exact
  timer _ _ := True
  timer_refl _ := trivial

end Tolerance

/-- Where a machine is in its program: all of it but the timers, the tone, the speed, the marks of
the screen and a kept fault. -/
structure Point (w h : Nat) where
  v : Bank 4 Byte
  i : Word
  pc : Word
  stack : List Word
  mode : Mode
  keyRegister : Option Nibble
  memory : Memory
  pixels : Vector (Vector Bool w) h
  keypad : Keypad
  draws : Nat
  deriving DecidableEq

namespace Machine

variable {w h : Nat} {τ : Type} {m m₁ m₂ : Machine w h τ} {random : Nat → Int}

/-- The point that a machine has reached. -/
def point (m : Machine w h τ) : Point w h where
  v := m.cpu.v
  i := m.cpu.i
  pc := m.cpu.pc
  stack := m.cpu.stack
  mode := m.cpu.mode
  keyRegister := m.cpu.keyRegister
  memory := m.memory
  pixels := m.screen.rows
  keypad := m.keypad
  draws := m.draws

/-- The first `k` steps do not read the delay timer. -/
def Timeless (random : Nat → Int) (m : Machine w h τ) (k : Nat) : Prop :=
  ∀ s ∈ (m.steps random k).history, ∀ x, s.2 ≠ .getDelay x

/-- Frames one after the other, each with its own number of instructions, and the first error that
one of them ends in. -/
def frames [ToneGenerator τ] (random : Nat → Int) (m : Machine w h τ) : List Nat → Outcome w h τ
  | [] => m.idle
  | k :: ks =>
    let first := { m with speed := k }.frame random
    let rest := first.machine.frames random ks
    { machine := rest.machine
      events := first.events ++ rest.events
      error := first.error <|> rest.error }

/-- Machines that are alike up to their timers are at the same point. -/
theorem Alike.point_eq (hm : Alike .untimed m₁ m₂) : m₁.point = m₂.point := by
  have hi : m₁.cpu.i = m₂.cpu.i := hm.i
  have hpc : m₁.cpu.pc = m₂.cpu.pc := hm.pc
  have hstack : m₁.cpu.stack = m₂.cpu.stack := List.forall₂_eq_eq_eq ▸ hm.stack
  have hkeypad : m₁.keypad = m₂.keypad := hm.keypad
  have hdraws : m₁.draws = m₂.draws := hm.draws.trans (Nat.zero_add _)
  simp only [point, hm.v, hi, hpc, hstack, hm.mode, hm.keyRegister, hm.memory, hm.rows, hkeypad,
    hdraws]

/-- A step that does not read the delay timer is the same whatever the timers hold. -/
theorem Alike.step_untimed (hm : Alike .untimed m₁ m₂)
    (htime : ∀ s ∈ (m₁.step random).history, ∀ x, s.2 ≠ .getDelay x) :
    Alike .untimed (m₁.step random).machine (m₂.step random).machine ∧
      (m₂.step random).history = (m₁.step random).history ∧
      ((m₁.step random).error = none → (m₂.step random).error = none) := by
  have hread : ∀ i, Instruction.decode? m₁.fetch = some i →
      ReadsSame random random m₁.advance m₂.advance i := by
    intro i hi
    have hdraws : m₁.draws = m₂.draws := hm.draws.trans (Nat.zero_add _)
    have hkeypad : m₁.keypad = m₂.keypad := hm.keypad
    refine ⟨fun x hx => ?_, fun _ _ key => congrArg (Keypad.isHeld · key) hkeypad, fun _ kk _ => ?_⟩
    · subst hx
      exact absurd rfl (htime _ (mem_history_step hi rfl random) x)
    · exact congrArg (fun d => BitVec.ofInt 8 (random d) &&& kk) hdraws
  obtain ⟨e₁, e₂, _, h₁, h₂⟩ | ⟨i, _, hafter, h₁, h₂⟩ := hm.step_cases hread
  · rw [h₁, h₂]
    exact ⟨hm.advance, rfl, by rintro ⟨⟩⟩
  · have hpc : m₁.cpu.pc = m₂.cpu.pc := hm.pc
    rw [h₁, h₂, history_done, history_done, hpc]
    exact ⟨hafter, rfl, fun _ => rfl⟩

/-- Steps that do not read the delay timer are the same whatever the timers hold. -/
theorem Alike.steps_untimed (hm : Alike .untimed m₁ m₂) {k : Nat}
    (htime : m₁.Timeless random k) :
    Alike .untimed (m₁.steps random k).machine (m₂.steps random k).machine ∧
      (m₂.steps random k).history = (m₁.steps random k).history ∧
      ((m₁.steps random k).error = none → (m₂.steps random k).error = none) := by
  induction k with
  | zero => exact ⟨hm, rfl, fun _ => rfl⟩
  | succ k ih =>
    have hparts : (m₁.steps random (k + 1)).history =
        (m₁.steps random k).history ++ ((m₁.steps random k).machine.step random).history :=
      Outcome.history_next ..
    have hbefore : m₁.Timeless random k := by
      intro s hs
      exact htime s (hparts ▸ List.mem_append_left _ hs)
    obtain ⟨halike, hhistory, -⟩ := ih hbefore
    have hlast : ∀ s ∈ ((m₁.steps random k).machine.step random).history,
        ∀ x, s.2 ≠ .getDelay x := by
      intro s hs
      exact htime s (hparts ▸ List.mem_append_right _ hs)
    obtain ⟨halike', hhistory', herror'⟩ := halike.step_untimed hlast
    refine ⟨halike', ?_, herror'⟩
    rw [hparts, steps, Outcome.history_next, hhistory, hhistory']

/-- A part of a timeless run from its start is timeless. -/
theorem Timeless.before {j k : Nat} (hjk : m.Timeless random (j + k))
    (he : (m.steps random j).error = none) : m.Timeless random j := by
  intro s hs
  refine hjk s ?_
  rw [history_steps_add he]
  exact List.mem_append_left _ hs

/-- The rest of a timeless run is timeless. -/
theorem Timeless.rest {j k : Nat} (hjk : m.Timeless random (j + k))
    (he : (m.steps random j).error = none) : (m.steps random j).machine.Timeless random k := by
  intro s hs
  refine hjk s ?_
  rw [history_steps_add he]
  exact List.mem_append_right _ hs

/-- A timeless run goes through if it does with other timers. -/
theorem Alike.smooth (hm : Alike .untimed m₁ m₂) {k : Nat} (hk : m₁.Smooth random k)
    (htime : m₁.Timeless random k) : m₂.Smooth random k := by
  intro j hj
  obtain ⟨d, rfl⟩ := Nat.exists_eq_add_of_le (Nat.succ_le_of_lt hj)
  have herror := (hk j hj).1
  obtain ⟨halike, -, herror'⟩ := hm.steps_untimed (htime.before herror)
  refine ⟨herror' herror, ?_⟩
  rw [← halike.mode]
  exact (hk j hj).2

variable [ToneGenerator τ]

/-- A frame that is filled smoothly is alike its steps without it. -/
theorem Alike.frame_untimed (hm : Alike .untimed m₁ m₂) (hmode : m₁.cpu.mode = .running) {k : Nat}
    (hk : m₁.Smooth random k) (htime : m₁.Timeless random k) :
    let o := { m₂ with speed := k }.frame random
    Alike .untimed (m₁.steps random k).machine o.machine ∧
      o.history = (m₁.steps random k).history ∧ o.error = none := by
  intro o
  have hspeed : Alike .untimed m₁ { m₂ with speed := k } := { hm with v := hm.v }
  have hmode₂ : m₂.cpu.mode = .running := hm.mode.symm.trans hmode
  have hframe : o = ({ m₂ with speed := k }.steps random k).completed :=
    (hspeed.smooth hk htime).frame_eq hmode₂
  obtain ⟨halike, hhistory, -⟩ := hspeed.steps_untimed htime
  rw [hframe, Outcome.history_completed]
  exact ⟨{ halike with delay := trivial, sound := trivial }, hhistory, rfl⟩

/-- Frames that are filled smoothly, one after the other, are alike the steps of all of them. -/
theorem Alike.frames_untimed (hm : Alike .untimed m₁ m₂) (hmode : m₁.cpu.mode = .running)
    {speeds : List Nat} (hk : m₁.Smooth random speeds.sum)
    (htime : m₁.Timeless random speeds.sum) :
    Alike .untimed (m₁.steps random speeds.sum).machine (m₂.frames random speeds).machine ∧
      (m₂.frames random speeds).history = (m₁.steps random speeds.sum).history ∧
      (m₂.frames random speeds).error = none := by
  induction speeds generalizing m₁ m₂ with
  | nil => exact ⟨hm, rfl, rfl⟩
  | cons k ks ih =>
    rw [List.sum_cons] at hk htime ⊢
    have hfirst := hk.mono (Nat.le_add_right k ks.sum)
    have he := hfirst.error_eq
    obtain ⟨halike, hhistory, herror⟩ := hm.frame_untimed hmode hfirst (htime.before he)
    obtain ⟨halike', hhistory', herror'⟩ :=
      ih halike (hfirst.mode_eq hmode) hk.rest (htime.rest he)
    refine ⟨?_, ?_, ?_⟩
    · rw [steps_add he]
      exact halike'
    · rw [history_steps_add he, ← hhistory, ← hhistory']
      exact Outcome.history_append ..
    · simp only [frames, herror, herror']
      rfl

/-- If the steps of a running machine go through and none of them reads the delay timer, then the
frames that they fill carry out the same instructions and lead to the same point, however many
instructions each of the frames has. -/
theorem frames_regroup (random : Nat → Int) {m : Machine w h τ} (hmode : m.cpu.mode = .running)
    (speeds : List Nat) (hk : m.Smooth random speeds.sum)
    (htime : m.Timeless random speeds.sum) :
    let bare := m.steps random speeds.sum
    let framed := m.frames random speeds
    framed.error = none ∧ framed.history = bare.history ∧ framed.history.length = speeds.sum ∧
      framed.machine.point = bare.machine.point ∧
      ∀ others : List Nat, others.sum = speeds.sum →
        let regrouped := m.frames random others
        regrouped.error = none ∧ regrouped.history = framed.history ∧
          regrouped.machine.point = framed.machine.point := by
  intro bare framed
  have hself : Alike .untimed m m := Alike.refl _ rfl rfl
  obtain ⟨halike, hhistory, herror⟩ := hself.frames_untimed hmode hk htime
  refine ⟨herror, hhistory, ?_, halike.point_eq.symm, ?_⟩
  · rw [hhistory]
    exact hk.length_history
  · intro others hsum
    rw [← hsum] at hk htime
    obtain ⟨halike', hhistory', herror'⟩ := hself.frames_untimed hmode hk htime
    rw [hsum] at halike' hhistory'
    exact ⟨herror', hhistory'.trans hhistory.symm, halike'.point_eq.symm.trans halike.point_eq⟩

/-- A program that sets both timers, draws, takes a random number and calls itself: nine bare steps
leave the delay timer as it was set, and four frames of unequal length count it down, but the
point that is reached is the same. -/
theorem frames_regroup_with_timers_set :
    let random : Nat → Int := fun k => 37 * k
    let m : Machine 64 32 Tone := (Machine.powerOn (.dark 64 32) 10).performAll
      ⟨random, fun _ => .error .notFound⟩
      [.loadNumbers [0x60, 0x05, 0xF0, 0x15, 0xF0, 0x18, 0xC1, 0xFF, 0xD0, 0x05, 0x22, 0x00]]
    m.cpu.mode = .running ∧ m.Smooth random 9 ∧ m.Timeless random 9 ∧
      (m.frames random [3, 0, 5, 1]).history = (m.steps random 9).history ∧
      (m.frames random [3, 0, 5, 1]).machine.point = (m.steps random 9).machine.point ∧
      (m.steps random 9).machine.cpu.delay = 5 ∧
      (m.frames random [3, 0, 5, 1]).machine.cpu.delay = 3 := by
  intro random m
  have hmode : m.cpu.mode = .running := by decide +kernel
  have hsmooth : m.Smooth random 9 := by
    unfold Smooth
    decide +kernel
  have htimeless : m.Timeless random 9 := by
    unfold Timeless
    decide +kernel
  have hregroup := frames_regroup random hmode [3, 0, 5, 1] hsmooth htimeless
  exact ⟨hmode, hsmooth, htimeless, hregroup.2.1, hregroup.2.2.2.1, by decide +kernel,
    by decide +kernel⟩

end Machine

end Chip8
