import Chip8.Proofs.Session

/-!
# A restart is a fresh start

A restart puts back the processor, the memory, the pixels and the tone, but not the keypad, the
random source or the marks of the screen: keys stay held, the machine may still be listening for a
key that it no longer waits for, and the next random number is the one after the last. What is left
over is what the tolerance `restarted` allows, so the window runs in parallel with one that has just
been opened on the same program, with the same keys held and the rest of the random numbers
(`Window.parallel_restart`), and nothing tells the two apart (`Window.Parallel.sameSession`).
-/

namespace Chip8

namespace Tolerance

/-- Keys are held alike, whoever listens. The first machine has drawn this many more numbers and has
presented this many more frames, and its screen may have been marked otherwise. -/
def restarted (draws frames : Nat) : Tolerance where
  __ := exact
  keypad p q := p.held = q.held
  mark _ _ := True
  lead := draws
  presented := frames
  keypad_register _ h := h
  keypad_press key h := by rw [Keypad.held_press, Keypad.held_press, h]
  keypad_release key h := congrArg (Bank.set · (keyOfNumber key) false) h
  mark_refl _ := trivial

/-- The source of the second machine gives what that of the first gives after its draws. -/
theorem faithful_restarted (random : Nat → Int) (draws frames : Nat) :
    (restarted draws frames).Faithful random fun k => random (draws + k) where
  timer_eq h := h
  held_eq h := h
  random_eq _ := rfl

/-- A fault that is kept after a restart is the same on both machines. -/
theorem restarted_fault_eq {draws frames : Nat} {f g : Option Chip8.Fault}
    (hfault : Option.Rel (restarted draws frames).Fault f g) : f = g := by
  cases hfault with
  | none => rfl
  | @some f g hf =>
    obtain ⟨hcause, hopcode, hplace⟩ := hf
    obtain ⟨cause, opcode, pc⟩ := f
    obtain rfl : cause = g.cause := hcause
    obtain rfl : opcode = g.opcode := hopcode
    obtain rfl : pc = g.pc := hplace
    rfl

end Tolerance

attribute [ext] Cpu

namespace Window

/-- The windows show the same and behave the same: they agree in the processor with its kept fault,
the memory, the pixels, the held keys, the tone and the end of the session. The first has presented
a number of frames more. -/
structure SameSession (frames : Nat) (w₁ w₂ : Window) : Prop where
  cpu : w₁.machine.cpu = w₂.machine.cpu
  memory : w₁.machine.memory = w₂.machine.memory
  pixels : w₁.machine.screen.rows = w₂.machine.screen.rows
  held : w₁.machine.keypad.held = w₂.machine.keypad.held
  tone : w₁.machine.tone = w₂.machine.tone
  exiting : w₁.exiting = w₂.exiting
  framesPresented : w₁.machine.screen.framesPresented = frames + w₂.machine.screen.framesPresented

variable {w₁ w₂ : Window} {draws frames : Nat}

/-- What a restart leaves over is not seen. -/
theorem Parallel.sameSession (hw : Parallel (.restarted draws frames) w₁ w₂) :
    SameSession frames w₁ w₂ where
  cpu := by
    have hm := hw.machine
    have hstack : w₁.machine.cpu.stack = w₂.machine.cpu.stack :=
      List.forall₂_eq_eq_eq ▸ hm.stack
    exact Cpu.ext hm.v hm.i hm.pc hstack hm.delay hm.sound hm.mode hm.keyRegister
      (Tolerance.restarted_fault_eq hm.fault)
  memory := hw.machine.memory
  pixels := hw.machine.rows
  held := hw.machine.keypad
  tone := hw.machine.tone
  exiting := hw.exiting
  framesPresented := hw.machine.framesPresented

/-- A player that is stopped is as before its first tone. -/
theorem stop_eq_silent (t : Player) : (ToneGenerator.stop t).1 = ToneGenerator.silent := by
  obtain ⟨wave⟩ := t
  cases wave <;> rfl

/-- A window that is restarted runs in parallel with one that opens with the same keys held. -/
theorem parallel_restart {w : Window} (hw : w.machine.KeyWait) (hexit : w.exiting = false) :
    let opened := fresh w.program w.machine.speed w.logging
    Parallel (.restarted w.machine.draws w.machine.screen.framesPresented) w.restart.window
      { opened with machine.keypad.held := w.machine.keypad.held } where
  machine :=
    { v := rfl
      i := rfl
      pc := rfl
      stack := .nil
      delay := rfl
      sound := rfl
      mode := rfl
      keyRegister := rfl
      memory := rfl
      rows := rfl
      keypad := rfl
      draws := rfl
      fault := .none
      tone := stop_eq_silent w.machine.tone
      speed := rfl
      shouldDraw := trivial
      framesPresented := rfl }
  program := rfl
  exiting := hexit
  keyWait_left := keyWait_restart hw w.program
  keyWait_right := (keyWait_fresh w.program w.machine.speed w.logging).congr rfl rfl rfl

/-- A restart of a window whose session has not ended goes through, since the program loads as it
did before. From then on, whatever happens, the window stays the same as one that opens on the
program at the same speed, with the same keys held and the rest of the random numbers; only the
presented frames are ahead by those of before the restart. -/
theorem restart_same_session {w : Window} (hw : Reachable w) (hexit : w.exiting = false)
    (random : Nat → Int) :
    let numbers := w.program.bytes.map fun b => (b.toNat : Int)
    let reloaded := w.machine.reset.1.loadNumbers numbers
    let restarted := w.handle random (.keyDown .backspace)
    restarted.error = none ∧ reloaded.error = none ∧
    reloaded.machine = restarted.window.machine ∧
    ∃ opened, (start numbers w.machine.speed w.logging).window = .ok opened ∧
      ∀ events : List WindowEvent,
        SameSession w.machine.screen.framesPresented (restarted.window.handleAll random events)
          ({ opened with machine.keypad.held := w.machine.keypad.held }.handleAll
            (fun k => random (w.machine.draws + k)) events) := by
  intro numbers reloaded restarted
  have hprogram : Program.ofNumbers numbers = .ok w.program := Program.ofNumbers_eq_ok_iff.mpr rfl
  have hreloaded : reloaded = { Machine.done (w.machine.reset.1.load w.program) with
      answer := .number w.program.size } := by
    simp only [reloaded, Machine.loadNumbers, hprogram]
  refine ⟨rfl, by rw [hreloaded]; rfl, by rw [hreloaded]; rfl, _,
    start_eq_ok_iff.mpr ⟨w.program, hprogram, rfl⟩, ?_⟩
  intro events
  have hparallel := parallel_restart hw.keyWait hexit
  exact (hparallel.handleAll (Tolerance.faithful_restarted ..) events).sameSession

/-- A window is restarted while it waits for a key and holds another. The key that is pressed next
finds the machine listening but not waiting, and counts for nothing; the one after the next tick is
put in the register, and the random numbers go on. -/
theorem restart_same_session_while_waiting :
    let random : Nat → Int := fun k => 3 + 7 * k
    let p : Program :=
      ⟨[0xC2, 0xFF, 0xF1, 0x0A, 0xC3, 0xFF, 0x12, 0x06], by decide, by decide⟩
    let w := (fresh p 10 false).handleAll random [.keyDown .q, .tick]
    let restarted := (w.handle random (.keyDown .backspace)).window
    let events : List WindowEvent := [.keyDown .w, .tick, .keyDown .e, .tick]
    Reachable w ∧ w.exiting = false ∧ restarted.machine.keypad.listener = some .machine ∧
      (∃ opened, (start (w.program.bytes.map fun b => (b.toNat : Int)) w.machine.speed
          w.logging).window = .ok opened ∧
        SameSession w.machine.screen.framesPresented (restarted.handleAll random events)
          ({ opened with machine.keypad.held := w.machine.keypad.held }.handleAll
            (fun k => random (w.machine.draws + k)) events)) ∧
      (restarted.handleAll random events).machine.reg 1 = 6 ∧
      (restarted.handleAll random events).machine.reg 3 = 17 := by
  intro random p w restarted events
  have hopen : Reachable (fresh p 10 false) :=
    .start (start_eq_ok_iff.mpr ⟨p, Program.ofNumbers_eq_ok_iff.mpr rfl, rfl⟩)
  have hw : Reachable w := hopen.handleAll ..
  have hexit : w.exiting = false := by decide +kernel
  obtain ⟨-, -, -, opened, hopened, hsame⟩ := restart_same_session hw hexit random
  refine ⟨hw, hexit, by decide +kernel, ⟨opened, hopened, hsame events⟩, by decide +kernel,
    by decide +kernel⟩

end Window

end Chip8
