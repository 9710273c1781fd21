import Chip8.Machine.Operation

/-!
# A machine on the bench

On the bench every part of a machine can be reached directly: besides operating it one can read
and write its memory, draw on its screen, ask its keypad, drive its tone generator and set its
registers. Of a list of commands each has its own reply, and goes on from the machine that the one
before it has left, whatever error that ended in. The bench also has the switch of the activity
log, which decides what is written down and nothing else.
-/

namespace Chip8

/-- New values for parts of a machine; what is `none` stays as it is. -/
structure Assignment where
  pc : Option Word := none
  i : Option Word := none
  speed : Option Int := none
  delay : Option Byte := none
  sound : Option Byte := none
  /-- Return addresses, the latest first. -/
  stack : Option (List Word) := none
  /-- Registers and their values. -/
  v : List (Nibble × Byte) := []
  deriving DecidableEq, Repr

/-- Something done to a machine on the bench. -/
inductive Command where
  | operate (op : Operation)
  | fetch
  | assign (a : Assignment)
  | readMemory (address : Int)
  | writeMemory (address value : Int)
  | writeRow (address : Int) (values : List Int)
  | readBlock (address length : Int)
  | clearMemory
  | loadGlyphs
  | togglePixel (x y : Int)
  | readPixel (x y : Int)
  | clearScreen
  | present
  | countLit
  | markDrawn
  | queryKey (key : Int)
  | heldKeys
  | register (l : Option Listener)
  | startTone (frequency : Int)
  | stopTone
  | setLogging (on : Bool)
  deriving DecidableEq, Repr

namespace Machine

variable {w h : Nat} {τ : Type}

/-- Gives parts of the machine new values. -/
def assign (m : Machine w h τ) (a : Assignment) : Machine w h τ :=
  { m with
    speed := a.speed.getD m.speed
    cpu.pc := a.pc.getD m.cpu.pc
    cpu.i := a.i.getD m.cpu.i
    cpu.delay := a.delay.getD m.cpu.delay
    cpu.sound := a.sound.getD m.cpu.sound
    cpu.stack := a.stack.getD m.cpu.stack
    cpu.v := a.v.foldl (fun v (x, b) => v.set x b) m.cpu.v }

/-- The machine and a value read from it. -/
def answering (m : Machine w h τ) (events : List Event) (answer : Answer) : Outcome w h τ :=
  { done (m, events) with answer := answer }

variable [ToneGenerator τ]

/-- Carries out a command; the switch of the activity log is no part of the machine. -/
def obey (env : Environment) (m : Machine w h τ) : Command → Outcome w h τ
  | .operate op => m.perform env op
  | .fetch => m.answering [] (.number m.fetch.toNat)
  | .assign a => (m.assign a).idle
  | .readMemory a => m.answering [] (.number (m.memory.readAt a).toNat)
  | .writeMemory a value => { m with memory := m.memory.writeAt a value }.idle
  | .writeRow a values => { m with memory := m.memory.writeRow a values }.idle
  | .readBlock a length => m.answering [] (.bytes (m.memory.block a length))
  | .clearMemory => { m with memory := Memory.blank }.idle
  | .loadGlyphs => { m with memory := m.memory.withGlyphs }.idle
  | .togglePixel x y =>
    match m.screen.toggle? x y with
    | .error e => m.failed e
    | .ok (screen, off) =>
      { m with screen := screen }.answering [.toggled x y off] (.flag off)
  | .readPixel x y =>
    match m.screen.lit? x y with
    | .error e => m.failed e
    | .ok lit => m.answering [] (.number lit.toNat)
  | .clearScreen => done ({ m with screen := m.screen.clear }, [.cleared])
  | .present => done ({ m with screen := m.screen.present }, [.presented])
  | .countLit => m.answering [] (.number m.screen.litCount)
  | .markDrawn => { m with screen := m.screen.drawn }.idle
  | .queryKey key =>
    m.answering [.keyQueried key (m.keypad.isHeld key)] (.flag (m.keypad.isHeld key))
  | .heldKeys => m.answering [] (.keys m.keypad.heldKeys)
  | .register l => done (m.register l)
  | .startTone f => done (m.startTone f)
  | .stopTone => done m.stopTone
  | .setLogging _ => m.idle

/-- The machine after a list of commands. -/
def obeyAll (env : Environment) (m : Machine w h τ) (cs : List Command) : Machine w h τ :=
  cs.foldl (fun m c => (m.obey env c).machine) m

/-- Each command of a list with what it came to. -/
def replies (env : Environment) (m : Machine w h τ) :
    List Command → List (Command × Outcome w h τ)
  | [] => []
  | c :: cs => (c, m.obey env c) :: (m.obey env c).machine.replies env cs

theorem obeyAll_append (env : Environment) (m : Machine w h τ) (cs cs' : List Command) :
    m.obeyAll env (cs ++ cs') = (m.obeyAll env cs).obeyAll env cs' := by
  rw [obeyAll, List.foldl_append]
  rfl

theorem replies_append (env : Environment) (m : Machine w h τ) (cs cs' : List Command) :
    m.replies env (cs ++ cs') = m.replies env cs ++ (m.obeyAll env cs).replies env cs' := by
  induction cs generalizing m with
  | nil => rfl
  | cons c cs ih => exact congrArg ((c, m.obey env c) :: ·) (ih (m.obey env c).machine)

end Machine

/-- A machine and the switch of the activity log. -/
structure Bench (w h : Nat) (τ : Type) where
  machine : Machine w h τ
  logging : Bool

namespace Bench

variable {w h : Nat} {τ : Type} [ToneGenerator τ]

/-- The position of the switch after a command. -/
def switchAfter (logging : Bool) : Command → Bool
  | .setLogging on => on
  | _ => logging

/-- Carries out a command: the bench afterwards, what happened, and the lines written down. -/
def run (env : Environment) (b : Bench w h τ) (c : Command) :
    Bench w h τ × Outcome w h τ × List String :=
  let o := b.machine.obey env c
  (⟨o.machine, switchAfter b.logging c⟩, o, logLines b.logging o.events.toList)

end Bench

end Chip8
