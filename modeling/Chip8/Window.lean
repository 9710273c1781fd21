import Chip8.Picture
import Chip8.Machine.Operation

/-!
# The window

A window shows the screen of a machine and feeds it ticks and keys. Each event gives a reaction:
the window afterwards, the requests made of the host and the lines printed. A tick runs one frame;
a fault ends the ticks and closes the window, once. A draw paints the screen if it has changed.
Backspace restarts the program, F1 turns the activity log on and off, and Escape closes the window.
-/

/-! ## Keyboard keys

The left four columns of the keyboard stand for the sixteen keys of the keypad, row by row; three
more keys control the emulation, and all others do nothing. -/

namespace Chip8

/-- A key of the keyboard. -/
inductive Key where
  | digit1 | digit2 | digit3 | digit4
  | q | w | e | r
  | a | s | d | f
  | z | x | c | v
  | escape | f1 | backspace
  | other
  deriving DecidableEq, Repr

/-- The keypad key that a keyboard key stands for. -/
def Key.pad? : Key → Option Nibble
  | digit1 => some 0x1 | digit2 => some 0x2 | digit3 => some 0x3 | digit4 => some 0xC
  | q => some 0x4 | w => some 0x5 | e => some 0x6 | r => some 0xD
  | a => some 0x7 | s => some 0x8 | d => some 0x9 | f => some 0xE
  | z => some 0xA | x => some 0x0 | c => some 0xB | v => some 0xF
  | escape | f1 | backspace | other => none

/-! ## The host of a window

The requests that a window makes of the system that shows it. -/

/-- A request to the host. -/
inductive HostCall where
  /-- Create a window. -/
  | openWindow (width height : Nat) (caption : String) (resizable : Bool)
  /-- Create an image whose data has this many bytes. -/
  | makeImage (width height size : Nat)
  /-- Deliver ticks at this many per second. -/
  | scheduleTicks (rate : Nat)
  /-- Deliver no more ticks. -/
  | unscheduleTicks
  /-- Fill the window with the background. -/
  | clear
  /-- Replace the data of the image, with this many bytes to a row. -/
  | setImage (pitch : Nat) (picture : Picture)
  /-- Show the image with its corner at this place. -/
  | showImage (x y : Int)
  /-- Close the window. -/
  | close
  /-- Go on with the host's own closing of the window. -/
  | finishClosing
  /-- An action of the tone generator. -/
  | sound (s : Signal)
  /-- Deliver events until the window is closed. -/
  | runLoop
  deriving DecidableEq, Repr

/-! ## Events and reactions -/

/-- The number of ticks in a second. -/
def frameRate : Nat := 60

/-- Instructions per frame unless asked otherwise. -/
def defaultSpeed : Int := 10

/-- The machine of a window: a standard screen and a player. -/
abbrev WindowMachine := Machine screenWidth screenHeight Player

/-- The state of a window. -/
structure Window where
  /-- The program that a restart loads again. -/
  program : Program
  machine : WindowMachine
  /-- The data of the image that is shown. -/
  image : Picture
  /-- A fault has ended the session. -/
  exiting : Bool
  /-- The activity log is on. -/
  logging : Bool
  /-- Where the pixels are painted before they are shown. -/
  canvas : Canvas screenWidth screenHeight := .black _ _
  deriving DecidableEq

/-- Something that happens to a window. -/
inductive WindowEvent where
  | tick
  | draw
  | keyDown (k : Key)
  | keyUp (k : Key)
  | close
  | startTone (frequency : Int)
  | stopTone
  deriving DecidableEq, Repr

/-- The window after an event, the requests to the host, the lines printed, and the error that
escaped, if any. -/
structure Reaction where
  window : Window
  calls : List HostCall
  lines : List String
  error : Option Error := none

namespace Window

/-- The width of a window in pixels. -/
def width : Nat := screenWidth * Picture.scale

/-- The height of a window in pixels. -/
def height : Nat := screenHeight * Picture.scale

/-- The requests that the events of a machine make of the host. -/
def hostCalls (events : List Event) : List HostCall :=
  events.filterMap fun e => e.signal?.map .sound

/-- No reaction. -/
def still (w : Window) : Reaction := { window := w, calls := [], lines := [] }

/-- The reaction to a change of the machine. -/
def afterChange (w : Window) (r : WindowMachine × List Event) : Reaction where
  window := { w with machine := r.1 }
  calls := hostCalls r.2
  lines := logLines w.logging r.2

/-- The reaction to an operation of the machine; its error escapes. -/
def afterOutcome (w : Window) (o : Outcome screenWidth screenHeight Player) : Reaction :=
  { w.afterChange (o.machine, o.events.toList) with error := o.error }

/-- Runs one frame; a fault ends the ticks and closes the window. -/
def tick (random : Nat → Int) (w : Window) : Reaction :=
  if w.exiting then w.still
  else
    let o := w.machine.frame random
    let r := w.afterOutcome o
    match o.error with
    | some (.fault f) =>
      { window := { r.window with exiting := true }
        calls := r.calls ++ [.unscheduleTicks, .close]
        lines := r.lines ++ ["Emulation error: " ++ f.message] }
    | _ => r

/-- Shows the image, brought up to date if the screen has changed. -/
def draw (w : Window) : Reaction :=
  if w.machine.screen.shouldDraw then
    let canvas := w.canvas.paint w.machine.screen
    let picture := canvas.picture
    { window :=
        { w with canvas := canvas, image := picture, machine.screen := w.machine.screen.drawn }
      calls := [.clear, .setImage (width * 4) picture, .showImage 0 0]
      lines := [] }
  else { window := w, calls := [.clear, .showImage 0 0], lines := [] }

/-- Restarts the program. -/
def restart (w : Window) : Reaction :=
  let clean := w.machine.reset
  let loaded := clean.1.load w.program
  w.afterChange (loaded.1, clean.2 ++ loaded.2)

/-- Turns the activity log on or off and says so. -/
def toggleLogging (w : Window) : Reaction where
  window := { w with logging := !w.logging }
  calls := []
  lines := ["logs_on: " ++ if w.logging then "False" else "True"]

/-- The reaction to a key going down. -/
def keyDown (w : Window) : Key → Reaction
  | .escape => { w.still with calls := [.close] }
  | .f1 => w.toggleLogging
  | .backspace => w.restart
  | k =>
    match k.pad? with
    | some key => w.afterOutcome (w.machine.press key.toNat)
    | none => w.still

/-- The reaction to a key going up. -/
def keyUp (w : Window) (k : Key) : Reaction :=
  match k.pad? with
  | some key => { w with machine := w.machine.release key.toNat }.still
  | none => w.still

/-- Silences the tone and lets the host close the window. -/
def close (w : Window) : Reaction :=
  let r := w.afterChange w.machine.stopTone
  { r with calls := r.calls ++ [.finishClosing] }

/-- The reaction to an event. -/
def handle (random : Nat → Int) (w : Window) : WindowEvent → Reaction
  | .tick => w.tick random
  | .draw => w.draw
  | .keyDown k => w.keyDown k
  | .keyUp k => w.keyUp k
  | .close => w.close
  | .startTone f => w.afterChange (w.machine.startTone f)
  | .stopTone => w.afterChange w.machine.stopTone

/-- The window after a list of events. -/
def handleAll (random : Nat → Int) (w : Window) (events : List WindowEvent) : Window :=
  events.foldl (fun w e => (w.handle random e).window) w

end Window

/-- The result of opening a window: the machine that was built for it, the window unless its
program was refused, the requests to the host and the lines printed. -/
structure Opening where
  machine : WindowMachine
  window : Except Error Window
  calls : List HostCall
  lines : List String

namespace Window

/-- The request for a window of the right size. -/
def creation : HostCall := .openWindow width height "CHIP-8 Emulator" false

/-- Opens a window on a row of numbers that should be a program. -/
def start (numbers : List Int) (speed : Int) (logging : Bool) : Opening :=
  let fresh : WindowMachine := .powerOn (.dark screenWidth screenHeight) speed
  match Program.ofNumbers numbers with
  | .error e => { machine := fresh, window := .error e, calls := [creation], lines := [] }
  | .ok program =>
    let loaded := fresh.load program
    { machine := loaded.1
      window := .ok
        { program := program, machine := loaded.1, image := .blank width height
          exiting := false, logging := logging }
      calls := [creation, .makeImage width height (width * height * 4), .scheduleTicks frameRate]
      lines := logLines logging loaded.2 }

end Window

end Chip8
