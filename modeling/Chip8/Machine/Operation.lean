import Chip8.Machine.Frame
import Chip8.Rom

/-!
# Operating a machine

What can be done to a machine from outside: running it, pressing keys, restarting it and loading
programs. `perform` carries out one operation in an environment, which supplies random numbers
and files. An operation that ends in an error before anything was executed leaves the machine as
it was.
-/

/-! ## Keys

A press reaches the keypad, and through it whoever listens. A machine that waits for a key takes
it and runs on; a machine that does not wait ignores what it is told. A wait without a register
to put the key in would be an error. -/

namespace Chip8.Machine

variable {w h : Nat} {τ : Type}

/-- Tells the machine of a key, of which the low four bits count. -/
def keyPressed (m : Machine w h τ) (key : Int) : Outcome w h τ :=
  if m.isWaiting then
    match m.cpu.keyRegister with
    | none => m.failed .noKeyRegister
    | some x =>
      let stored := m.setReg x ((keyOfNumber key).setWidth 8)
      done ({ stored with cpu.mode := .running, cpu.keyRegister := none },
        [.note (.keyStored key x)])
  else m.idle

/-- Replaces the listener of the keypad. -/
def register (m : Machine w h τ) (l : Option Listener) : Machine w h τ × List Event :=
  ({ m with keypad := m.keypad.register l }, [.listenerSet])

/-- What a watcher leaves in the trace when it is told of a key. -/
def watcherEvents (key : Nibble) (id : Int) (again : Nat) : List Event :=
  .watcherTold id key :: if again = 0 then [] else [.listenerSet]

/-- Presses a key. -/
def press (m : Machine w h τ) (key : Int) : Outcome w h τ :=
  let pressed := m.keypad.press key
  let m' := { m with keypad := pressed.1 }
  match pressed.2 with
  | none => m'.idle
  | some .machine => m'.keyPressed (keyOfNumber key).toNat
  | some (.watcher id again) => done (m', watcherEvents (keyOfNumber key) id again)

/-- Releases a key. -/
def release (m : Machine w h τ) (key : Int) : Machine w h τ :=
  { m with keypad := m.keypad.release key }

end Chip8.Machine

/-! ## Operations -/

namespace Chip8

/-- What a machine can draw on from outside. -/
structure Environment where
  /-- The number of each draw from the random source. -/
  random : Nat → Int
  /-- The files that programs are read from. -/
  files : FileSystem

namespace Machine

variable {w h : Nat} {τ : Type}

/-- Restarts the machine: processor and memory as at power-on, a cleared screen and silence. Keys
that are held, a pending listener, the speed and the random source stay as they are. -/
def reset [ToneGenerator τ] (m : Machine w h τ) : Machine w h τ × List Event :=
  let stopped := m.stopTone
  ({ stopped.1 with cpu := .powerOn, memory := .powerOn, screen := m.screen.clear },
    .cleared :: stopped.2)

/-- Puts a program into memory. -/
def load (m : Machine w h τ) (p : Program) : Machine w h τ × List Event :=
  ({ m with memory := m.memory.withProgram p }, [.note (.programLoaded p.size)])

/-- Puts a row of numbers into memory if it is a program. -/
def loadNumbers (m : Machine w h τ) (numbers : List Int) : Outcome w h τ :=
  match Program.ofNumbers numbers with
  | .error e => m.failed e
  | .ok p => { done (m.load p) with answer := .number p.size }

/-- Puts the contents of a file into memory if it is a program. -/
def loadFile (files : FileSystem) (m : Machine w h τ) (path : String) : Outcome w h τ :=
  let loaded : Outcome w h τ :=
    match Rom.read files path >>= Program.ofBytes with
    | .error e => m.failed e
    | .ok p => { done (m.load p) with answer := .number p.size }
  { loaded with events := #[.note (.readingFile path)] ++ loaded.events }

end Machine

/-- Something done to a machine from outside. -/
inductive Operation where
  | step
  | frame
  | press (key : Int)
  | release (key : Int)
  | keyPressed (key : Int)
  | updateTimers
  | playSound
  | reset
  | loadNumbers (numbers : List Int)
  | loadFile (path : String)
  deriving DecidableEq, Repr

namespace Machine

variable {w h : Nat} {τ : Type} [ToneGenerator τ]

/-- Carries out one operation. -/
def perform (env : Environment) (m : Machine w h τ) : Operation → Outcome w h τ
  | .step => m.step env.random
  | .frame => m.frame env.random
  | .press key => m.press key
  | .release key => (m.release key).idle
  | .keyPressed key => m.keyPressed key
  | .updateTimers => m.updateTimers.idle
  | .playSound => done m.playSound
  | .reset => done m.reset
  | .loadNumbers numbers => m.loadNumbers numbers
  | .loadFile path => m.loadFile env.files path

/-- The machine after a list of operations, whatever errors these end in. -/
def performAll (env : Environment) (m : Machine w h τ) (ops : List Operation) : Machine w h τ :=
  ops.foldl (fun m op => (m.perform env op).machine) m

end Machine

end Chip8
