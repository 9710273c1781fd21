import Chip8.Window

/-!
# The command line

The arguments name a program file and, optionally, the number of instructions per frame. In this
order it is an error that there is no argument, that the number is none, that the file cannot be
read, and that it is no program. Each of these prints one message and ends with exit code 1;
otherwise a window is opened on the program and the host takes over.
-/

namespace Chip8

/-- How a call of the program goes on after its arguments have been dealt with. -/
inductive Ending where
  /-- The program has exited. -/
  | exited (code : Nat)
  /-- The host delivers events to a window. -/
  | opened (window : Window)
  /-- An error has escaped. -/
  | escaped (e : Error)
  deriving DecidableEq

/-- What a call of the program comes to: its ending, the lines printed, the requests made of the
host, and the machine that was built, if any. -/
structure Session where
  ending : Ending
  lines : List String
  calls : List HostCall
  machine : Option WindowMachine

namespace CommandLine

/-- How to call the program. -/
def usage : String := "Usage: chip8emu <rom-file> [speed]"

/-- The complaint about a speed that is no number. -/
def badSpeed (text : String) : String :=
  "speed must be a number of instructions per frame, got " ++ text

/-- Exits with a message. -/
def refuse (message : String) : Session :=
  { ending := .exited 1, lines := [message], calls := [], machine := none }

/-- Ends with an error: a load error is reported, any other escapes. -/
def fail (e : Error) : Session :=
  if e.isLoad then refuse e.message
  else { ending := .escaped e, lines := [], calls := [], machine := none }

/-- Opens a window on the bytes of a program. -/
def launch (bytes : List Byte) (speed : Int) (logging : Bool) : Session :=
  let opening := Window.start (bytes.map fun b => (b.toNat : Int)) speed logging
  let session : Session :=
    match opening.window with
    | .error e => fail e
    | .ok window =>
      { ending := .opened window, lines := [], calls := [.runLoop], machine := none }
  { session with
    lines := opening.lines ++ session.lines
    calls := opening.calls ++ session.calls
    machine := some opening.machine }

/-- Reads a program file and opens a window on it. -/
def launchFile (files : FileSystem) (path : String) (speed : Int) (logging : Bool) : Session :=
  let session :=
    match Rom.read files path with
    | .error e => fail e
    | .ok bytes => launch bytes speed logging
  { session with lines := logLines logging [.note (.readingFile path)] ++ session.lines }

/-- Runs the program on its arguments. -/
def run (files : FileSystem) (arguments : List String) (logging : Bool) : Session :=
  match arguments with
  | [] => refuse usage
  | [path] => launchFile files path defaultSpeed logging
  | path :: speed :: _ =>
    match Numeral.integer? speed with
    | none => refuse (badSpeed speed)
    | some speed => launchFile files path speed logging

end CommandLine

end Chip8
