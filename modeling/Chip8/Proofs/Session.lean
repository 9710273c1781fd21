import Chip8.Window
import Chip8.Proofs.KeyWait
import Chip8.Proofs.Lockstep

/-!
# Sessions of a window

An event does one thing to the machine of a window (`Window.act`), and apart from that only the
image with its canvas, the log and the end of the session are affected by it (`Window.handle_eq`).
So the machine of every window that events lead to keeps the invariant of the key wait
(`Window.Reachable.keyWait`), and windows that run in parallel stay so (`Window.Parallel.handle`).
-/

namespace Chip8

variable {w h : Nat} {τ : Type} {T : Tolerance} {r₁ r₂ : Nat → Int}

/-- A press tells the listener that was there. -/
theorem Keypad.press_told (p : Keypad) (key : Int) : (p.press key).2 = p.listener := by
  unfold press
  split
  · rename_i hnone
    exact hnone.symm
  · rename_i hsome
    exact hsome.symm

/-- A press holds its key down, whoever listens. -/
theorem Keypad.held_press (p : Keypad) (key : Int) :
    (p.press key).1.held = p.held.set (keyOfNumber key) true := by
  unfold press
  split
  · rfl
  · unfold rearm
    split <;> rfl

namespace Machine

variable {m m₁ m₂ : Machine w h τ}

/-- A press changes the keypad and, through its listener, at most the processor. -/
theorem press_machine (m : Machine w h τ) (key : Int) :
    ∃ cpu, (m.press key).machine = { m with cpu := cpu, keypad := (m.keypad.press key).1 } := by
  unfold press keyPressed
  dsimp only
  split
  · exact ⟨m.cpu, rfl⟩
  · split
    · split
      · exact ⟨m.cpu, rfl⟩
      · exact ⟨_, rfl⟩
    · exact ⟨m.cpu, rfl⟩
  · exact ⟨m.cpu, rfl⟩

/-- A press leaves nobody listening, since the machine does not ask again. -/
theorem KeyWait.keypad_press (hm : m.KeyWait) (key : Int) :
    (m.keypad.press key).1 = ⟨m.keypad.held.set (keyOfNumber key) true, none⟩ := by
  cases hl : m.keypad.listener with
  | none => simp only [Keypad.press, hl]
  | some l =>
    cases l with
    | machine => simp only [Keypad.press, hl, Keypad.rearm]
    | watcher id again => exact absurd hl (hm.not_watcher id again)

/-- A press comes to the same in both machines, also if only one of them is told of it: if they wait
then both listen, and if not then neither minds. -/
theorem Lockstep.press_of_keyWait (hm : m₁.Lockstep T m₂) (h₁ : m₁.KeyWait) (h₂ : m₂.KeyWait)
    (key : Int) : (m₁.press key).Lockstep T (m₂.press key) := by
  by_cases hmode : m₁.cpu.mode = .waiting
  · have hmode₂ : m₂.cpu.mode = .waiting := hm.mode ▸ hmode
    refine hm.press key ?_
    rw [Keypad.press_told, Keypad.press_told, h₁.listener_eq hmode, h₂.listener_eq hmode₂]
  · have hmode₂ : m₂.cpu.mode ≠ .waiting := hm.mode ▸ hmode
    have hkeypad := T.keypad_press key hm.keypad
    rw [h₁.keypad_press, h₂.keypad_press] at hkeypad
    rw [h₁.press_of_not_waiting hmode, h₂.press_of_not_waiting hmode₂]
    exact Lockstep.idle { hm with keypad := hkeypad }

end Machine

/-- Both operations ended in a fault, or neither did. -/
theorem Outcome.Lockstep.isFault_eq {o₁ o₂ : Outcome w h τ} (ho : o₁.Lockstep T o₂) :
    o₁.error.any Error.isFault = o₂.error.any Error.isFault := by
  obtain ⟨h₁, h₂⟩ | ⟨e₁, e₂, h₁, h₂, he⟩ := ho.error_cases
  · rw [h₁, h₂]
  · obtain ⟨f, g, rfl, rfl, -⟩ | ⟨rfl, -⟩ := he.cases
    · rw [h₁, h₂]
      rfl
    · rw [h₁, h₂]

namespace Window

/-- A list of events is handled after the list before it. -/
theorem handleAll_append (random : Nat → Int) (w : Window) (past more : List WindowEvent) :
    w.handleAll random (past ++ more) = (w.handleAll random past).handleAll random more :=
  List.foldl_append ..

/-- The last event of a list is handled last. -/
theorem handleAll_concat (random : Nat → Int) (w : Window) (events : List WindowEvent)
    (e : WindowEvent) :
    w.handleAll random (events ++ [e]) = ((w.handleAll random events).handle random e).window :=
  handleAll_append ..

/-- What an event does to the machine of a window. -/
def act (random : Nat → Int) (w : Window) :
    WindowEvent → Outcome screenWidth screenHeight Player
  | .tick => if w.exiting then w.machine.idle else w.machine.frame random
  | .draw => { w.machine with screen := w.machine.screen.drawn }.idle
  | .keyDown .backspace => Machine.done (w.machine.reset.1.load w.program)
  | .keyDown k =>
    match k.pad? with
    | some key => w.machine.press key.toNat
    | none => w.machine.idle
  | .keyUp k =>
    match k.pad? with
    | some key => (w.machine.release key.toNat).idle
    | none => w.machine.idle
  | .close | .stopTone => Machine.done w.machine.stopTone
  | .startTone f => Machine.done (w.machine.startTone f)

/-- A key press never ends in a fault. -/
theorem press_isFault (m : WindowMachine) (key : Int) :
    (m.press key).error.any Error.isFault = false := by
  unfold Machine.press Machine.keyPressed
  dsimp only
  split
  · rfl
  · split
    · split <;> rfl
    · rfl
  · rfl

/-- The window after an event has the machine that the event leaves, keeps its program, and ends the
session if the machine has faulted. -/
theorem handle_eq (random : Nat → Int) (w : Window) (e : WindowEvent) :
    let next := (w.handle random e).window
    next.machine = (w.act random e).machine ∧ next.program = w.program ∧
      next.exiting = (w.exiting || (w.act random e).error.any Error.isFault) := by
  cases e with
  | tick =>
    simp only [handle, tick, act]
    by_cases hexit : w.exiting = true
    · simp only [if_pos hexit]
      exact ⟨rfl, rfl, (Bool.or_false _).symm⟩
    · simp only [if_neg hexit]
      cases herror : (w.machine.frame random).error with
      | none => exact ⟨rfl, rfl, (Bool.or_false _).symm⟩
      | some e =>
        cases e with
        | fault f => exact ⟨rfl, rfl, (Bool.or_true _).symm⟩
        | load | badValue | noPixels | noKeyRegister => exact ⟨rfl, rfl, (Bool.or_false _).symm⟩
  | draw =>
    have hdrawn : (w.draw).window.machine = { w.machine with screen := w.machine.screen.drawn } ∧
        (w.draw).window.program = w.program ∧ (w.draw).window.exiting = w.exiting := by
      unfold draw
      split
      · exact ⟨rfl, rfl, rfl⟩
      · -- a screen that is up to date is as if it had been drawn
        rename_i hdraw
        rw [Screen.drawn, ← Bool.eq_false_iff.mpr hdraw]
        exact ⟨rfl, rfl, rfl⟩
    exact ⟨hdrawn.1, hdrawn.2.1, hdrawn.2.2.trans (Bool.or_false _).symm⟩
  | keyDown k =>
    have hpress : ∀ key : Nibble, w.exiting =
        (w.exiting || (w.machine.press key.toNat).error.any Error.isFault) := by
      intro key
      rw [press_isFault, Bool.or_false]
    cases k with
    | backspace | escape | f1 | other => exact ⟨rfl, rfl, (Bool.or_false _).symm⟩
    | _ => exact ⟨rfl, rfl, hpress _⟩
  | keyUp k =>
    simp only [handle, keyUp, act]
    cases k.pad? <;> exact ⟨rfl, rfl, (Bool.or_false _).symm⟩
  | close | stopTone | startTone => exact ⟨rfl, rfl, (Bool.or_false _).symm⟩

/-- A restart keeps the invariant of the key wait, whether the machine was waiting or not. -/
theorem keyWait_restart {m : WindowMachine} (hm : m.KeyWait) (p : Program) :
    (m.reset.1.load p).1.KeyWait :=
  hm.of_not_waiting (by rintro ⟨⟩) rfl (.inl rfl)

/-- What an event does to the machine keeps the invariant of the key wait. -/
theorem keyWait_act {w : Window} (hw : w.machine.KeyWait) (random : Nat → Int) (e : WindowEvent) :
    (w.act random e).machine.KeyWait := by
  cases e with
  | tick =>
    simp only [act]
    split
    · exact hw
    · exact hw.frame random
  | draw => exact hw.congr rfl rfl rfl
  | keyDown k =>
    cases k with
    | backspace => exact keyWait_restart hw w.program
    | escape | f1 | other => exact hw
    | _ => exact hw.press _
  | keyUp k =>
    simp only [act]
    split
    · exact hw.congr rfl rfl rfl
    · exact hw
  | close | stopTone | startTone => exact hw.congr rfl rfl rfl

/-- The window that opens on a program: its machine is at power-on with the program loaded. -/
def fresh (p : Program) (speed : Int) (logging : Bool) : Window where
  program := p
  machine := ((Machine.powerOn (.dark screenWidth screenHeight) speed).load p).1
  image := .blank width height
  exiting := false
  logging := logging

/-- Opening a window succeeds on the numbers of a program, and opens it on that program. -/
theorem start_eq_ok_iff {numbers : List Int} {speed : Int} {logging : Bool} {w : Window} :
    (start numbers speed logging).window = .ok w ↔
      ∃ p, Program.ofNumbers numbers = .ok p ∧ fresh p speed logging = w := by
  cases hp : Program.ofNumbers numbers with
  | error e => simp only [start, hp, reduceCtorEq, false_and, exists_false]
  | ok p => simp only [start, hp, Except.ok.injEq, exists_eq_left', fresh]

/-- A window opens on the bytes of a program. -/
theorem start_bytes (p : Program) (speed : Int) (logging : Bool) :
    (start (p.bytes.map fun b => (b.toNat : Int)) speed logging).window =
      .ok (fresh p speed logging) :=
  start_eq_ok_iff.mpr ⟨p, Program.ofNumbers_eq_ok_iff.mpr rfl, rfl⟩

/-- The machine of a window that has just been opened does not wait, and nobody listens. -/
theorem keyWait_fresh (p : Program) (speed : Int) (logging : Bool) :
    (fresh p speed logging).machine.KeyWait := by
  have hpowerOn : Machine.KeyWait (τ := Player)
      (.powerOn (.dark screenWidth screenHeight) speed) := .powerOn ..
  exact hpowerOn.congr rfl rfl rfl

/-- The windows that events lead to, each event with a random source of its own. -/
inductive Reachable : Window → Prop where
  | start {numbers : List Int} {speed : Int} {logging : Bool} {w : Window}
      (hw : (start numbers speed logging).window = .ok w) : Reachable w
  | handle {w : Window} (hw : Reachable w) (random : Nat → Int) (e : WindowEvent) :
      Reachable (w.handle random e).window

/-- The window that opens on a program is reachable. -/
theorem reachable_fresh (p : Program) (speed : Int) (logging : Bool) :
    Reachable (fresh p speed logging) :=
  .start (start_bytes p speed logging)

/-- A list of events leads from reachable windows to reachable ones. -/
theorem Reachable.handleAll {w : Window} (hw : Reachable w) (random : Nat → Int)
    (events : List WindowEvent) : Reachable (w.handleAll random events) := by
  induction events generalizing w with
  | nil => exact hw
  | cons e events ih => exact ih (hw.handle random e)

/-- The machine of a reachable window names a register exactly while it waits, it then listens at
the keypad, and nobody else does. -/
theorem Reachable.keyWait {w : Window} (hw : Reachable w) : w.machine.KeyWait := by
  induction hw with
  | start hw =>
    obtain ⟨p, -, rfl⟩ := start_eq_ok_iff.mp hw
    exact keyWait_fresh ..
  | @handle w _ random e ih =>
    rw [(handle_eq random w e).1]
    exact keyWait_act ih random e

variable {w₁ w₂ : Window}

/-- The windows run the same program on machines that are in lockstep, and the session of both has
ended or of neither. -/
structure Parallel (T : Tolerance) (w₁ w₂ : Window) : Prop where
  machine : w₁.machine.Lockstep T w₂.machine
  program : w₁.program = w₂.program
  exiting : w₁.exiting = w₂.exiting
  keyWait_left : w₁.machine.KeyWait
  keyWait_right : w₂.machine.KeyWait

namespace Parallel

/-- An event does the same to both machines. -/
theorem act (hT : T.Faithful r₁ r₂) (hw : Parallel T w₁ w₂) (e : WindowEvent) :
    (w₁.act r₁ e).Lockstep T (w₂.act r₂ e) := by
  have hm := hw.machine
  have hpress := hm.press_of_keyWait hw.keyWait_left hw.keyWait_right
  cases e with
  | tick =>
    simp only [Window.act, hw.exiting]
    split
    · exact hm.idle
    · exact hm.frame hT
  | draw =>
    exact Machine.Lockstep.idle { hm with
      rows := hm.rows
      shouldDraw := T.mark_refl false
      framesPresented := hm.framesPresented }
  | keyDown k =>
    cases k with
    | backspace =>
      have hloaded := hm.reset.load w₁.program
      simp only [Window.act, ← hw.program]
      exact ⟨hloaded, .none, rfl⟩
    | escape | f1 | other => exact hm.idle
    | _ => exact hpress _
  | keyUp k =>
    simp only [Window.act]
    split
    · exact (hm.release _).idle
    · exact hm.idle
  | close | stopTone => exact ⟨hm.stopTone, .none, rfl⟩
  | startTone f => exact ⟨hm.startTone f, .none, rfl⟩

/-- Windows that run in parallel do so after an event. -/
theorem handle (hT : T.Faithful r₁ r₂) (hw : Parallel T w₁ w₂) (e : WindowEvent) :
    Parallel T (w₁.handle r₁ e).window (w₂.handle r₂ e).window := by
  obtain ⟨hmachine₁, hprogram₁, hexiting₁⟩ := handle_eq r₁ w₁ e
  obtain ⟨hmachine₂, hprogram₂, hexiting₂⟩ := handle_eq r₂ w₂ e
  have hact := hw.act hT e
  constructor
  · rw [hmachine₁, hmachine₂]
    exact hact.machine
  · rw [hprogram₁, hprogram₂, hw.program]
  · rw [hexiting₁, hexiting₂, hw.exiting, hact.isFault_eq]
  · rw [hmachine₁]
    exact keyWait_act hw.keyWait_left r₁ e
  · rw [hmachine₂]
    exact keyWait_act hw.keyWait_right r₂ e

/-- Windows that run in parallel do so after any events. -/
theorem handleAll (hT : T.Faithful r₁ r₂) (hw : Parallel T w₁ w₂) (events : List WindowEvent) :
    Parallel T (w₁.handleAll r₁ events) (w₂.handleAll r₂ events) := by
  induction events generalizing w₁ w₂ with
  | nil => exact hw
  | cons e events ih => exact ih (hw.handle hT e)

end Parallel

end Window

end Chip8
