import Chip8.Error
import Chip8.Instruction
import Chip8.Tone

/-!
# What a machine does, as it can be observed

An operation on a machine leaves a trace of events: the instructions carried out, the calls that
its devices received, the draws from the random source, and notes for the activity log. The log
lines of an operation are the wordings of those events that have one (`Event.line?`).
-/

namespace Chip8

/-- A remark for the activity log. -/
inductive Note where
  /-- A host call was ignored. -/
  | sysIgnored (word : Word)
  /-- A subroutine returned to this address. -/
  | returned (pc : Word)
  /-- The program jumped. -/
  | jumped (target : Addr)
  /-- A subroutine was called. -/
  | called (target : Addr)
  /-- A register was set to a constant. -/
  | registerSet (x : Nibble) (value : Byte)
  /-- The index register was set to a constant. -/
  | indexSet (value : Addr)
  /-- The program jumped relative to `V0`. -/
  | jumpedFrom (base : Addr) (pc : Word)
  /-- A sprite was drawn, and this was left in `VF`. -/
  | spriteDrawn (collision : Byte)
  /-- The machine waits for a key to put in a register. -/
  | awaitingKey (x : Nibble)
  /-- A key arrived and was put in a register. -/
  | keyStored (key : Int) (x : Nibble)
  /-- A program was put into memory. -/
  | programLoaded (size : Nat)
  /-- A file is about to be read. -/
  | readingFile (path : String)
  /-- A fault stopped the machine. -/
  | halted (fault : Fault)
  deriving DecidableEq, Repr

/-- The wording of a remark. -/
def Note.text : Note → String
  | sysIgnored word => "SYS call ignored (" ++ Hex.padded 4 word.toNat ++ ")"
  | returned pc => "Return to " ++ Hex.marked pc.toNat
  | jumped target => "Jump to address " ++ Hex.marked target.toNat
  | called target => "Call subroutine at " ++ Hex.marked target.toNat
  | registerSet x value => "Set V" ++ Hex.upper x.toNat ++ " = " ++ toString value.toNat
  | indexSet value => "Set I = " ++ Hex.padded 3 value.toNat
  | jumpedFrom base pc =>
    "Jump to address V0 + " ++ Hex.padded 3 base.toNat ++ " = " ++ Hex.padded 3 pc.toNat
  | spriteDrawn collision => "Drew sprite, collision=" ++ toString collision.toNat
  | awaitingKey x => "Waiting for a key press into V" ++ Hex.upper x.toNat
  | keyStored key x => "Key " ++ Hex.upper key ++ " pressed, stored in V" ++ Hex.upper x.toNat
  | programLoaded size => "Loaded " ++ toString size ++ " bytes at 0x200"
  | readingFile path => "Loading ROM: " ++ path
  | halted fault => "Emulation halted: " ++ fault.message

/-- Something that happened during an operation. -/
inductive Event where
  /-- The instruction at this address was carried out. -/
  | executed (address : Word) (i : Instruction)
  /-- The screen was cleared. -/
  | cleared
  /-- The pixel at these coordinates was toggled, and whether it went dark. -/
  | toggled (x y : Int) (off : Bool)
  /-- The screen was presented. -/
  | presented
  /-- The keypad was asked for a key, and the answer. -/
  | keyQueried (key : Int) (held : Bool)
  /-- A listener was registered or withdrawn. -/
  | listenerSet
  /-- A watcher was told of a key. -/
  | watcherTold (id : Int) (key : Nibble)
  /-- The tone generator was asked for a tone. -/
  | toneStarted (frequency : Int)
  /-- The tone generator was asked for silence. -/
  | toneStopped
  /-- The tone generator gave off a signal. -/
  | signal (s : Signal)
  /-- A number was drawn from the random source. -/
  | randomDrawn
  /-- The delay timer was set to this value. -/
  | delaySet (value : Byte)
  /-- The sound timer was set to this value. -/
  | soundSet (value : Byte)
  /-- A remark was made. -/
  | note (n : Note)
  deriving DecidableEq, Repr

namespace Event

/-- The line that an event leaves in the activity log. -/
def line? : Event → Option String
  | cleared => some "Clear the display (all pixels turned off)"
  | signal .sounds => some "Sound plays!"
  | note n => some n.text
  | _ => none

/-- The signal that an event is. -/
def signal? : Event → Option Signal
  | signal s => some s
  | _ => none

end Event

/-- What is written to the activity log: nothing unless it is switched on. -/
def logLines (logging : Bool) (events : List Event) : List String :=
  if logging then events.filterMap Event.line? else []

end Chip8
