import Chip8.Proofs.Alike

/-!
# Machines in lockstep

Two machines are in lockstep up to a tolerance if they are alike in what instructions can reach and
agree in the rest as well: in the kept fault, the tone, the speed and the marks of the screen. If
the tolerance leaves no difference that a program could read (`Tolerance.Faithful`), then a step, a
frame and every other operation keeps two machines in lockstep, and ends in the same way on both.
-/

namespace Chip8

/-- Machines within the tolerance read the same: their timers and their held keys are equal, and
their sources give them the same numbers. -/
structure Tolerance.Faithful (T : Tolerance) (r₁ r₂ : Nat → Int) : Prop where
  timer_eq : ∀ {a b}, T.timer a b → a = b
  held_eq : ∀ {p q}, T.keypad p q → p.held = q.held
  random_eq : ∀ k, r₁ (T.lead + k) = r₂ k

variable {w h : Nat} {τ : Type} {T : Tolerance} {r₁ r₂ : Nat → Int}

/-- The machines agree, up to the tolerance, in everything. -/
structure Machine.Lockstep (T : Tolerance) (m₁ m₂ : Machine w h τ) : Prop
    extends Machine.Alike T m₁ m₂ where
  fault : Option.Rel T.Fault m₁.cpu.fault m₂.cpu.fault
  tone : m₁.tone = m₂.tone
  speed : m₁.speed = m₂.speed
  shouldDraw : T.mark m₁.screen.shouldDraw m₂.screen.shouldDraw
  framesPresented : m₁.screen.framesPresented = T.presented + m₂.screen.framesPresented

/-- The outcomes agree up to the tolerance: both operations succeeded with the same answer, or both
ended in the same error. -/
structure Outcome.Lockstep (T : Tolerance) (o₁ o₂ : Outcome w h τ) : Prop where
  machine : Machine.Lockstep T o₁.machine o₂.machine
  error : Option.Rel T.Error o₁.error o₂.error
  answer : o₁.answer = o₂.answer

namespace Machine

variable {m₁ m₂ : Machine w h τ}

/-- Nothing that the tolerance leaves open can be read by an instruction. -/
theorem Alike.readsSame (hT : T.Faithful r₁ r₂) (hm : Alike T m₁ m₂) (i : Instruction) :
    ReadsSame r₁ r₂ m₁ m₂ i where
  delay _ _ := hT.timer_eq hm.delay
  held _ _ key := by rw [Keypad.isHeld, Keypad.isHeld, hT.held_eq hm.keypad]
  random _ kk _ := by rw [hm.draws, hT.random_eq]

namespace Lockstep

theorem idle (hm : Lockstep T m₁ m₂) : m₁.idle.Lockstep T m₂.idle :=
  ⟨hm, .none, rfl⟩

theorem done {r s : Machine w h τ × List Event} (hm : Lockstep T r.1 s.1) :
    (Machine.done r).Lockstep T (Machine.done s) :=
  ⟨hm, .none, rfl⟩

theorem failed (hm : Lockstep T m₁ m₂) {e₁ e₂ : Error} (he : T.Error e₁ e₂) :
    (m₁.failed e₁).Lockstep T (m₂.failed e₂) :=
  ⟨hm, .some he, rfl⟩

/-- Machines that are still alike, and otherwise as before, are still in lockstep. -/
theorem of_surroundings (hm : Lockstep T m₁ m₂) {m₁' m₂' : Machine w h τ}
    (h₁ : SameSurroundings m₁ m₁') (h₂ : SameSurroundings m₂ m₂') (halike : Alike T m₁' m₂') :
    Lockstep T m₁' m₂' where
  toAlike := halike
  fault := by rw [h₁.fault, h₂.fault]; exact hm.fault
  tone := by rw [h₁.tone, h₂.tone]; exact hm.tone
  speed := by rw [h₁.speed, h₂.speed]; exact hm.speed
  shouldDraw := by rw [h₁.shouldDraw, h₂.shouldDraw]; exact hm.shouldDraw
  framesPresented := by rw [h₁.framesPresented, h₂.framesPresented]; exact hm.framesPresented

/-- A step comes to the same in both machines. -/
theorem step (hT : T.Faithful r₁ r₂) (hm : Lockstep T m₁ m₂) :
    (m₁.step r₁).Lockstep T (m₂.step r₂) := by
  have hsurroundings : ∀ halike : Alike T (m₁.step r₁).machine (m₂.step r₂).machine,
      Lockstep T (m₁.step r₁).machine (m₂.step r₂).machine :=
    hm.of_surroundings (step_surroundings r₁ m₁) (step_surroundings r₂ m₂)
  obtain ⟨e₁, e₂, he, h₁, h₂⟩ | ⟨i, _, hafter, h₁, h₂⟩ :=
    hm.toAlike.step_cases fun i _ => hm.toAlike.advance.readsSame hT i
  · rw [h₁, h₂] at hsurroundings ⊢
    exact (hsurroundings hm.toAlike.advance).failed he
  · rw [h₁, h₂] at hsurroundings ⊢
    exact ⟨hsurroundings hafter, .none, rfl⟩

/-- A machine that is told of a key takes it if the other does. -/
theorem keyPressed (hm : Lockstep T m₁ m₂) (key : Int) :
    (m₁.keyPressed key).Lockstep T (m₂.keyPressed key) := by
  have hwaiting : m₁.isWaiting = m₂.isWaiting := by rw [isWaiting, isWaiting, hm.mode]
  simp only [Machine.keyPressed, hwaiting, hm.keyRegister]
  split
  · split
    · exact hm.failed rfl
    · rename_i x _
      have hreg := hm.toAlike.setReg x ((keyOfNumber key).setWidth 8)
      exact ⟨{ hm with v := hreg.v, mode := rfl, keyRegister := rfl }, .none, rfl⟩
  · exact hm.idle

/-- A press comes to the same in both machines if the same listener is told. -/
theorem press (hm : Lockstep T m₁ m₂) (key : Int)
    (htold : (m₁.keypad.press key).2 = (m₂.keypad.press key).2) :
    (m₁.press key).Lockstep T (m₂.press key) := by
  have hpressed : Lockstep T { m₁ with keypad := (m₁.keypad.press key).1 }
      { m₂ with keypad := (m₂.keypad.press key).1 } :=
    { hm with keypad := T.keypad_press key hm.keypad }
  simp only [Machine.press, htold]
  split
  · exact hpressed.idle
  · exact hpressed.keyPressed _
  · exact hpressed.done

theorem release (hm : Lockstep T m₁ m₂) (key : Int) :
    Lockstep T (m₁.release key) (m₂.release key) :=
  { hm with keypad := T.keypad_release key hm.keypad }

/-- A fault halts both machines. -/
theorem halt (hm : Lockstep T m₁ m₂) {f g : Fault} (hf : T.Fault f g) :
    Lockstep T (m₁.halt f).1 (m₂.halt g).1 :=
  { hm with mode := rfl, fault := .some hf }

theorem load (hm : Lockstep T m₁ m₂) (p : Program) :
    Lockstep T (m₁.load p).1 (m₂.load p).1 :=
  { hm with memory := congrArg (Memory.withProgram · p) hm.memory }

theorem loadNumbers (hm : Lockstep T m₁ m₂) (numbers : List Int) :
    (m₁.loadNumbers numbers).Lockstep T (m₂.loadNumbers numbers) := by
  unfold Machine.loadNumbers
  split
  · exact hm.failed (T.error_refl _)
  · exact ⟨hm.load _, .none, rfl⟩

theorem loadFile (hm : Lockstep T m₁ m₂) (files : FileSystem) (path : String) :
    (m₁.loadFile files path).Lockstep T (m₂.loadFile files path) := by
  unfold Machine.loadFile
  split
  · exact ⟨hm, .some (T.error_refl _), rfl⟩
  · exact ⟨hm.load _, .none, rfl⟩

theorem updateTimers (hT : T.Faithful r₁ r₂) (hm : Lockstep T m₁ m₂) :
    Lockstep T m₁.updateTimers m₂.updateTimers := by
  have hdelay : T.timer m₁.cpu.delay.countDown m₂.cpu.delay.countDown := by
    rw [hT.timer_eq hm.delay]
    exact T.timer_refl _
  have hsound : T.timer m₁.cpu.sound.countDown m₂.cpu.sound.countDown := by
    rw [hT.timer_eq hm.sound]
    exact T.timer_refl _
  exact { hm with delay := hdelay, sound := hsound }

variable [ToneGenerator τ]

theorem startTone (hm : Lockstep T m₁ m₂) (frequency : Int) :
    Lockstep T (m₁.startTone frequency).1 (m₂.startTone frequency).1 :=
  { hm with tone := congrArg (fun t => (ToneGenerator.start frequency t).1) hm.tone }

theorem stopTone (hm : Lockstep T m₁ m₂) : Lockstep T m₁.stopTone.1 m₂.stopTone.1 :=
  { hm with tone := congrArg (fun t => (ToneGenerator.stop t).1) hm.tone }

theorem reset (hm : Lockstep T m₁ m₂) : Lockstep T m₁.reset.1 m₂.reset.1 :=
  { hm.stopTone with
    v := rfl
    i := T.word_refl _
    pc := T.word_refl _
    stack := .nil
    delay := T.timer_refl _
    sound := T.timer_refl _
    mode := rfl
    keyRegister := rfl
    fault := .none
    memory := rfl
    rows := rfl }

theorem playSound (hT : T.Faithful r₁ r₂) (hm : Lockstep T m₁ m₂) :
    Lockstep T m₁.playSound.1 m₂.playSound.1 := by
  unfold Machine.playSound
  rw [hT.timer_eq hm.sound]
  split
  · exact hm.stopTone
  · exact hm.startTone toneFrequency

theorem completeFrame (hT : T.Faithful r₁ r₂) (hm : Lockstep T m₁ m₂) :
    Lockstep T m₁.completeFrame.1 m₂.completeFrame.1 := by
  have hsounded := (hm.updateTimers hT).playSound hT
  exact { hsounded with
    rows := hsounded.rows
    shouldDraw := T.mark_refl true
    framesPresented := congrArg (· + 1) hsounded.framesPresented }

end Lockstep

end Machine

namespace Outcome.Lockstep

variable {o₁ o₂ : Outcome w h τ}

/-- Both operations succeeded, or both failed. -/
theorem error_cases (ho : o₁.Lockstep T o₂) :
    (o₁.error = none ∧ o₂.error = none) ∨
      ∃ e₁ e₂, o₁.error = some e₁ ∧ o₂.error = some e₂ ∧ T.Error e₁ e₂ := by
  have herror := ho.error
  cases h₁ : o₁.error <;> cases h₂ : o₂.error <;> rw [h₁, h₂] at herror
  · exact .inl ⟨rfl, rfl⟩
  · cases herror
  · cases herror
  · exact .inr ⟨_, _, rfl, rfl, Option.rel_some_some.mp herror⟩

theorem isWaiting_eq (ho : o₁.Lockstep T o₂) : o₁.machine.isWaiting = o₂.machine.isWaiting := by
  rw [Machine.isWaiting, Machine.isWaiting, ho.machine.mode]

/-- The loop of a frame stops in both machines or in none. -/
theorem isBlocked_eq (ho : o₁.Lockstep T o₂) : o₁.isBlocked = o₂.isBlocked := by
  obtain ⟨h₁, h₂⟩ | ⟨_, _, h₁, h₂, -⟩ := ho.error_cases <;>
    simp only [isBlocked, h₁, h₂, ho.isWaiting_eq, Option.isSome_none, Option.isSome_some]

/-- What follows both operations may change both machines. -/
theorem followedBy (ho : o₁.Lockstep T o₂) {s₁ s₂ : Machine w h τ × List Event}
    (hs : Machine.Lockstep T s₁.1 s₂.1) : (o₁.followedBy s₁).Lockstep T (o₂.followedBy s₂) :=
  ⟨hs, ho.error, ho.answer⟩

/-- The loop of a frame comes to the same in both machines. -/
theorem cycles (hT : T.Faithful r₁ r₂) (ho : o₁.Lockstep T o₂) (k : Nat) :
    (o₁.cycles r₁ k).Lockstep T (o₂.cycles r₂ k) := by
  induction k generalizing o₁ o₂ with
  | zero => exact ho
  | succ k ih =>
    simp only [Outcome.cycles, ho.isBlocked_eq]
    split
    · exact ho
    · have hstep := ho.machine.step hT
      have hnext : (o₁.next r₁).Lockstep T (o₂.next r₂) :=
        ⟨hstep.machine, hstep.error, hstep.answer⟩
      exact ih hnext

end Outcome.Lockstep

namespace Machine.Lockstep

variable {m₁ m₂ : Machine w h τ} [ToneGenerator τ]

/-- A frame comes to the same in both machines. -/
theorem frame (hT : T.Faithful r₁ r₂) (hm : Lockstep T m₁ m₂) :
    (m₁.frame r₁).Lockstep T (m₂.frame r₂) := by
  simp only [Machine.frame, hm.mode, hm.speed]
  split
  · have hloop := hm.idle.cycles hT m₂.speed.toNat
    generalize m₁.idle.cycles r₁ m₂.speed.toNat = o₁, m₂.idle.cycles r₂ m₂.speed.toNat = o₂
      at hloop ⊢
    obtain ⟨h₁, h₂⟩ | ⟨e₁, e₂, h₁, h₂, he⟩ := hloop.error_cases
    · simp only [h₁, h₂, hloop.isWaiting_eq]
      split
      · exact hloop
      · exact hloop.followedBy (hloop.machine.completeFrame hT)
    · obtain ⟨f, g, rfl, rfl, hf⟩ | ⟨rfl, hplain⟩ := he.cases
      · simp only [h₁, h₂]
        exact hloop.followedBy (hloop.machine.halt hf)
      · simp only [h₁, h₂]
        cases e₁ with
        | fault f => cases hplain
        | load | badValue | noPixels | noKeyRegister => exact hloop
  · exact hm.idle

end Machine.Lockstep

end Chip8
