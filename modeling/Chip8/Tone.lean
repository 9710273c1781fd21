/-!
# Tone generators

A machine asks for a tone or for silence, again and again; a generator acts only on a change. The
silent generator merely remembers what should be heard. The player keeps a looping square wave
alive on the host while the tone lasts. Both answer with the signals that a change gives off.
-/

namespace Chip8

/-- What a tone generator gives off when it acts. -/
inductive Signal where
  /-- The silent generator has begun. -/
  | sounds
  /-- A player was created for a square wave of this frequency. -/
  | queued (frequency : Int)
  /-- The player was set to repeat its wave. -/
  | looped
  /-- The player was started. -/
  | played
  /-- The player was paused. -/
  | paused
  /-- The player was given up. -/
  | deleted
  deriving DecidableEq, Repr

/-- A device that can sound one tone at a time. -/
class ToneGenerator (τ : Type) where
  /-- The generator before its first tone. -/
  silent : τ
  /-- Asks for a tone of the given frequency. -/
  start : Int → τ → τ × List Signal
  /-- Asks for silence. -/
  stop : τ → τ × List Signal

/-- A generator that makes no sound but remembers whether it should. -/
structure Tone where
  playing : Bool
  /-- The frequency of the last tone that began. -/
  frequency : Option Int
  /-- The number of tones that began. -/
  starts : Nat
  deriving DecidableEq, Repr

namespace Tone

/-- Never started. -/
def silent : Tone := ⟨false, none, 0⟩

/-- Begins a tone unless one is playing. -/
def start (f : Int) (t : Tone) : Tone × List Signal :=
  if t.playing then (t, []) else (⟨true, some f, t.starts + 1⟩, [.sounds])

/-- Ends the tone; its frequency is remembered. -/
def stop (t : Tone) : Tone := { t with playing := false }

instance : ToneGenerator Tone where
  silent := silent
  start := start
  stop t := (t.stop, [])

end Tone

/-- A generator that keeps a player on the host as long as the tone lasts. -/
structure Player where
  /-- The frequency of the wave that the live player repeats. -/
  wave : Option Int
  deriving DecidableEq, Repr

namespace Player

/-- No player is alive. -/
def silent : Player := ⟨none⟩

/-- The tone is being heard. -/
def isSounding (p : Player) : Bool := p.wave.isSome

/-- Creates a player and starts it, unless one is alive. -/
def start (f : Int) (p : Player) : Player × List Signal :=
  match p.wave with
  | some _ => (p, [])
  | none => (⟨some f⟩, [.queued f, .looped, .played])

/-- Gives up the player, if one is alive. -/
def stop (p : Player) : Player × List Signal :=
  match p.wave with
  | none => (p, [])
  | some _ => (⟨none⟩, [.paused, .deleted])

instance : ToneGenerator Player where
  silent := silent
  start := start
  stop := stop

end Player

end Chip8
