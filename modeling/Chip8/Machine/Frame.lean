import Chip8.Machine.Execute

/-!
# One frame

A frame is as many instructions as the speed says, after which both timers count down, the tone
follows the sound timer and the screen is presented. A key wait or a fault cuts the frame short,
and then nothing of that happens. A machine that waits or has halted is left as it is.
-/

namespace Chip8

namespace Outcome

variable {w h : Nat} {τ : Type}

/-- Nothing more is to be executed: there was an error, or the machine waits for a key. -/
def isBlocked (o : Outcome w h τ) : Bool := o.error.isSome || o.machine.isWaiting

/-- One more instruction. -/
def next (random : Nat → Int) (o : Outcome w h τ) : Outcome w h τ :=
  let s := o.machine.step random
  { s with events := o.events ++ s.events }

/-- At most `k` more instructions, up to the first error or key wait. -/
def cycles (random : Nat → Int) : Nat → Outcome w h τ → Outcome w h τ
  | 0, o => o
  | k + 1, o => if o.isBlocked then o else cycles random k (o.next random)

end Outcome

namespace Machine

variable {w h : Nat} {τ : Type}

/-- Both timers count down. -/
def updateTimers (m : Machine w h τ) : Machine w h τ :=
  { m with cpu.delay := m.cpu.delay.countDown, cpu.sound := m.cpu.sound.countDown }

/-- Asks the tone generator for a tone. -/
def startTone [ToneGenerator τ] (m : Machine w h τ) (frequency : Int) :
    Machine w h τ × List Event :=
  let started := ToneGenerator.start frequency m.tone
  ({ m with tone := started.1 }, .toneStarted frequency :: started.2.map .signal)

/-- Asks the tone generator for silence. -/
def stopTone [ToneGenerator τ] (m : Machine w h τ) : Machine w h τ × List Event :=
  let stopped := ToneGenerator.stop m.tone
  ({ m with tone := stopped.1 }, .toneStopped :: stopped.2.map .signal)

/-- The tone follows the sound timer. -/
def playSound [ToneGenerator τ] (m : Machine w h τ) : Machine w h τ × List Event :=
  if m.cpu.sound = 0 then m.stopTone else m.startTone toneFrequency

/-- What completes a frame: timers, tone and screen. -/
def completeFrame [ToneGenerator τ] (m : Machine w h τ) : Machine w h τ × List Event :=
  let sounded := m.updateTimers.playSound
  ({ sounded.1 with screen := sounded.1.screen.present }, sounded.2 ++ [.presented])

/-- Stops the machine because of a fault. -/
def halt (m : Machine w h τ) (f : Fault) : Machine w h τ × List Event :=
  ({ m with cpu.mode := .halted, cpu.fault := some f }, [.note (.halted f)])

/-- One frame. -/
def frame [ToneGenerator τ] (random : Nat → Int) (m : Machine w h τ) : Outcome w h τ :=
  if m.cpu.mode = .running then
    let o := m.idle.cycles random m.speed.toNat
    match o.error with
    | some (.fault f) => o.followedBy (o.machine.halt f)
    | some _ => o
    | none => if o.machine.isWaiting then o else o.followedBy o.machine.completeFrame
  else m.idle

end Machine

end Chip8
