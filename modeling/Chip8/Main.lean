import Chip8.CommandLine

/-!
# The program

Reads the program file, runs the command line and, if a window is opened, serves as its host on
the terminal: every line of the input is one frame during which the keys in the line are held, and
the picture is written out as text whenever it changes. The end of the input closes the window.
-/

/-! ## Random numbers

A source of random bytes that is determined by a seed: the number of a draw is mixed with the seed
until every bit of the result depends on every bit of both. -/

namespace Chip8.Random

/-- Spreads the bits of a word over the whole word. -/
def mix (z : UInt64) : UInt64 :=
  let z := (z ^^^ (z >>> 30)) * 0xBF58476D1CE4E5B9
  let z := (z ^^^ (z >>> 27)) * 0x94D049BB133111EB
  z ^^^ (z >>> 31)

/-- The number of the `k`-th draw, in `0..255`. -/
def draw (seed : UInt64) (k : Nat) : Int :=
  ((mix (seed + (k.toUInt64 + 1) * 0x9E3779B97F4A7C15)).toNat % 256 : Nat)

/-- Every draw is a byte. -/
theorem draw_mem_byte (seed : UInt64) (k : Nat) : 0 ≤ draw seed k ∧ draw seed k < 256 := by
  unfold draw
  omega

end Chip8.Random

/-! ## The terminal -/

namespace Chip8.Terminal

/-- The keyboard key that a character names. -/
def keyOfChar : Char → Key
  | '1' => .digit1 | '2' => .digit2 | '3' => .digit3 | '4' => .digit4
  | 'q' => .q | 'w' => .w | 'e' => .e | 'r' => .r
  | 'a' => .a | 's' => .s | 'd' => .d | 'f' => .f
  | 'z' => .z | 'x' => .x | 'c' => .c | 'v' => .v
  | '!' => .escape | '?' => .f1 | '<' => .backspace
  | _ => .other

/-- The events of a frame during which the keys of a line are held. -/
def frameEvents (line : String) : List WindowEvent :=
  let keys := line.toList.map keyOfChar
  keys.map .keyDown ++ [.tick, .draw] ++ keys.map .keyUp

/-- The screen as lines of text. -/
def screenText {w h : Nat} (s : Screen w h) : List String :=
  s.toLists.map fun row => String.ofList (row.map fun lit => if lit then '#' else '.')

/-- The request ends the session. -/
def isFinal : HostCall → Bool
  | .close | .finishClosing => true
  | _ => false

/-- The request changes the image. -/
def isImage : HostCall → Bool
  | .setImage _ _ => true
  | _ => false

/-- Delivers events to a window; the result says whether the session goes on. -/
def deliver (random : Nat → Int) : Window → List WindowEvent → IO (Window × Bool)
  | w, [] => return (w, true)
  | w, e :: rest => do
    let r := w.handle random e
    r.lines.forM IO.println
    if r.calls.any isImage then (screenText r.window.machine.screen).forM IO.println
    match r.error with
    | some e => throw (IO.userError e.message)
    | none =>
      if r.calls.any isFinal then return (r.window, false) else deliver random r.window rest

/-- Delivers a frame for every line of the input. -/
partial def loop (random : Nat → Int) (input : IO.FS.Stream) (w : Window) : IO Unit := do
  let line ← input.getLine
  let ended := line.isEmpty
  let (w, goesOn) ← deliver random w (if ended then [.close] else frameEvents line.trimAscii.toString)
  if goesOn && !ended then loop random input w

/-- The conventional number of a system error, which the system may hand over negated. -/
def errorNumber (code : UInt32) : Nat := if code < 0x80000000 then code.toNat else (0 - code).toNat

/-- The error that the system gave for a file. -/
def fileError : IO.Error → FileError
  | .noFileOrDirectory _ _ _ => .notFound
  | .inappropriateType _ code text => ofNumber (errorNumber code) text
  | .invalidArgument _ code text => ofNumber (errorNumber code) text
  | .permissionDenied _ code text => ofNumber (errorNumber code) text
  | e => .other 5 e.toString
where
  ofNumber : Nat → String → FileError
    | 2, _ => .notFound
    | 20, _ => .notDirectory
    | 21, _ => .isDirectory
    | 36, _ => .nameTooLong
    | code, text => .other code text

/-- Reads a file. -/
def readFile (p : Path) : IO (Except FileError (List Byte)) := do
  try
    let data ← IO.FS.readBinFile p.text
    return .ok (data.toList.map fun b => b.toBitVec)
  catch e => return .error (fileError e)

/-- Runs the program on its arguments; the result is the exit code. -/
def run (arguments : List String) : IO UInt32 := do
  let contents ←
    match arguments with
    | [] => pure (.error .notFound)
    | path :: _ => readFile (Path.ofText path)
  let session := CommandLine.run (fun _ => contents) arguments false
  session.lines.forM IO.println
  match session.ending with
  | .exited code => return code.toUInt32
  | .escaped e => throw (IO.userError e.message)
  | .opened window =>
    let seed ← IO.monoNanosNow
    loop (Random.draw seed.toUInt64) (← IO.getStdin) window
    return 0

end Chip8.Terminal

/-- The program. -/
def main (arguments : List String) : IO UInt32 := Chip8.Terminal.run arguments
