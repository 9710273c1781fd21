import Chip8.Memory
import Chip8.Screen
import Chip8.Keypad
import Chip8.Trace

/-!
# The machine

A processor with sixteen registers, an index register, a program counter, a stack of return
addresses and two timers, together with its memory and the devices that it drives. The screen may
have any size and the tone generator any type. How many numbers were drawn from the random source
is part of the state, the source itself is not.

What an operation on a machine comes to is an `Outcome`.
-/

namespace Chip8

/-- What the machine is doing between two instructions. -/
inductive Mode where
  /-- Ready for the next instruction. -/
  | running
  /-- Waiting for a key. -/
  | waiting
  /-- Stopped by a fault. -/
  | halted
  deriving DecidableEq, Repr

/-- The largest number of return addresses on the stack. -/
def stackDepth : Nat := 16

/-- The frequency of the buzzer. -/
def toneFrequency : Int := 440

/-- The state of the processor. -/
structure Cpu where
  v : Bank 4 Byte
  i : Word
  pc : Word
  /-- Return addresses, the latest first. -/
  stack : List Word
  delay : Byte
  sound : Byte
  mode : Mode
  /-- The register that the next key is put in. -/
  keyRegister : Option Nibble
  /-- The fault that stopped the machine. -/
  fault : Option Fault
  deriving DecidableEq

/-- A machine with a screen of `w` by `h` pixels and a tone generator of type `τ`. -/
structure Machine (w h : Nat) (τ : Type) where
  cpu : Cpu
  memory : Memory
  screen : Screen w h
  keypad : Keypad
  tone : τ
  /-- Instructions per frame; none if not positive. -/
  speed : Int
  /-- The number of draws from the random source. -/
  draws : Nat
  deriving DecidableEq

/-- The mode in words. -/
def Mode.text : Mode → String
  | running => "running"
  | waiting => "waiting for key"
  | halted => "halted"

/-- The processor at power-on. -/
def Cpu.powerOn : Cpu where
  v := Bank.fill 4 0
  i := 0
  pc := Memory.programStart.toWord
  stack := []
  delay := 0
  sound := 0
  mode := .running
  keyRegister := none
  fault := none

/-- The memory at power-on: the glyphs and nothing else. -/
def Memory.powerOn : Memory := Memory.blank.withGlyphs

namespace Machine

variable {w h : Nat} {τ : Type}

/-- The machine at power-on with a screen, an idle keypad and a silent tone generator. -/
def powerOn [ToneGenerator τ] (screen : Screen w h) (speed : Int) : Machine w h τ where
  cpu := .powerOn
  memory := .powerOn
  screen := screen
  keypad := .idle
  tone := ToneGenerator.silent
  speed := speed
  draws := 0

/-- The contents of a register. -/
def reg (m : Machine w h τ) (x : Nibble) : Byte := m.cpu.v.get x

/-- The machine with a register replaced. -/
def setReg (m : Machine w h τ) (x : Nibble) (b : Byte) : Machine w h τ :=
  { m with cpu.v := m.cpu.v.set x b }

/-- The machine with `VF` set to a flag and then `Vx` to a result, which wins if `x` is `F`. -/
def setFlagged (m : Machine w h τ) (x : Nibble) (flag result : Byte) : Machine w h τ :=
  (m.setReg 0xF flag).setReg x result

/-- The machine with its program counter replaced. -/
def goto (m : Machine w h τ) (pc : Word) : Machine w h τ := { m with cpu.pc := pc }

/-- The machine with its program counter past one instruction. -/
def advance (m : Machine w h τ) : Machine w h τ := m.goto (m.cpu.pc.advance 2)

/-- The machine past one more instruction if the condition holds. -/
def skipIf (m : Machine w h τ) (c : Bool) : Machine w h τ := if c then m.advance else m

/-- The instruction word at the program counter. -/
def fetch (m : Machine w h τ) : Word := m.memory.word m.cpu.pc.addr

/-- The machine is waiting for a key. -/
def isWaiting (m : Machine w h τ) : Bool := m.cpu.mode = .waiting

end Machine

/-! ## Outcomes

What an operation on a machine comes to: the machine afterwards, the trace of what was observed,
and either an error or a value. An error does not undo what was done before it. -/

/-- The value that an operation gives back. -/
inductive Answer where
  | nothing
  | number (i : Int)
  | flag (b : Bool)
  | bytes (bs : List Byte)
  | keys (ks : List Nat)
  deriving DecidableEq, Repr

/-- The machine after an operation, what was observed of it, the error that it ended in, if any,
and otherwise the value that it gave back. -/
structure Outcome (w h : Nat) (τ : Type) where
  machine : Machine w h τ
  events : Array Event
  error : Option Error
  answer : Answer := .nothing
  deriving DecidableEq

namespace Machine

variable {w h : Nat} {τ : Type}

/-- The outcome of doing nothing. -/
def idle (m : Machine w h τ) : Outcome w h τ := { machine := m, events := #[], error := none }

/-- The outcome of failing. -/
def failed (m : Machine w h τ) (e : Error) : Outcome w h τ :=
  { machine := m, events := #[], error := some e }

/-- The outcome of a change that cannot fail. -/
def done (r : Machine w h τ × List Event) : Outcome w h τ :=
  { machine := r.1, events := r.2.toArray, error := none }

end Machine

/-- Adds events to an outcome and replaces its machine. -/
def Outcome.followedBy {w h : Nat} {τ : Type} (o : Outcome w h τ)
    (r : Machine w h τ × List Event) : Outcome w h τ :=
  { o with machine := r.1, events := o.events ++ r.2 }

end Chip8
