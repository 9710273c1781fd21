import Chip8.Proofs.Frame

/-!
# Reachable machines

The machines that operations lead to from power-on, in any order and number, also after operations
that ended in an error. Each operation has an environment of its own, so the random source may
give any number at any draw and files may change between two operations. What holds at power-on
and is kept by every operation holds of all of them (`Reachable.invariant`).
-/

namespace Chip8.Machine

variable {w h : Nat} {τ : Type}

/-- Loading numbers, if anything, changes the memory. -/
theorem loadNumbers_machine (m : Machine w h τ) (numbers : List Int) :
    ∃ memory, (m.loadNumbers numbers).machine = { m with memory := memory } := by
  unfold loadNumbers
  split
  · exact ⟨m.memory, rfl⟩
  · exact ⟨_, rfl⟩

/-- Loading a file, if anything, changes the memory. -/
theorem loadFile_machine (files : FileSystem) (m : Machine w h τ) (path : String) :
    ∃ memory, (m.loadFile files path).machine = { m with memory := memory } := by
  unfold loadFile
  split
  · exact ⟨m.memory, rfl⟩
  · exact ⟨_, rfl⟩

variable [ToneGenerator τ]

/-- Sounding the tone changes the tone generator. -/
theorem playSound_machine (m : Machine w h τ) :
    ∃ tone, m.playSound.1 = { m with tone := tone } := by
  unfold playSound
  split
  · exact ⟨_, rfl⟩
  · exact ⟨_, rfl⟩

/-- The end of a frame changes the timers, the tone generator and the marks of the screen. -/
theorem completeFrame_machine (m : Machine w h τ) :
    ∃ tone, m.completeFrame.1 =
      { m.updateTimers with tone := tone, screen := m.screen.present } := by
  obtain ⟨tone, hplay⟩ := playSound_machine m.updateTimers
  refine ⟨tone, ?_⟩
  rw [completeFrame, hplay]
  rfl

/-- The machines that operations lead to from power-on. -/
inductive Reachable : Machine w h τ → Prop where
  | powerOn (screen : Screen w h) (speed : Int) : Reachable (.powerOn screen speed)
  | perform {m : Machine w h τ} (hm : Reachable m) (env : Environment) (op : Operation) :
      Reachable (m.perform env op).machine

/-- What a list of calls comes to, each made in its own environment on the machine that the one
before it has left. -/
def outcomes (m : Machine w h τ) : List (Environment × Operation) → List (Outcome w h τ)
  | [] => []
  | (env, op) :: calls =>
    let o := m.perform env op
    o :: o.machine.outcomes calls

/-- The machine after a list of calls. -/
def after (m : Machine w h τ) : List (Environment × Operation) → Machine w h τ
  | [] => m
  | (env, op) :: calls => (m.perform env op).machine.after calls

/-- A list of operations leads from reachable machines to reachable ones. -/
theorem Reachable.performAll {m : Machine w h τ} (hm : Reachable m) (env : Environment)
    (ops : List Operation) : Reachable (m.performAll env ops) := by
  induction ops generalizing m with
  | nil => exact hm
  | cons op ops ih => exact ih (hm.perform env op)

/-- What holds at power-on and is kept by every operation holds of every reachable machine. -/
theorem Reachable.invariant {P : Machine w h τ → Prop}
    (hpowerOn : ∀ screen speed, P (.powerOn screen speed))
    (hperform : ∀ m env op, P m → P (m.perform env op).machine) {m : Machine w h τ}
    (hm : Reachable m) : P m := by
  induction hm with
  | powerOn screen speed => exact hpowerOn screen speed
  | perform _ env op ih => exact hperform _ env op ih

end Chip8.Machine
