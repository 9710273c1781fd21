import Chip8.Text.Numeral

/-!
# What can go wrong

A fault stops a program: it names its cause, the instruction word and the address that word came
from. A load error says why there is no program to run. A bad value is an argument outside its
domain, and a screen without pixels cannot be drawn on. `Error.message` gives each its wording.
-/

namespace Chip8

/-- The largest program that fits: memory from `0x200` to its end. -/
def roomForProgram : Nat := 3584

namespace Fault

/-- Why an instruction could not be carried out. -/
inductive Cause where
  | execution
  | unknownOpcode
  | stackOverflow
  | stackUnderflow
  deriving DecidableEq, Repr

/-- The wording of a cause. -/
def Cause.reason : Cause → String
  | execution => "Execution fault"
  | unknownOpcode => "Unknown opcode"
  | stackOverflow => "Stack overflow on CALL"
  | stackUnderflow => "Stack underflow on RET"

end Fault

/-- A fatal error of a running program, with the address of the instruction that caused it. -/
structure Fault where
  cause : Fault.Cause
  opcode : Int
  pc : Int
  deriving DecidableEq, Repr

/-- The reason, the instruction word in four places and its address in three. -/
def Fault.message (f : Fault) : String :=
  f.cause.reason ++ ": " ++ Hex.padded 4 f.opcode ++ " at 0x" ++ Hex.padded 3 f.pc

/-- How the file system turns down a request to read a file. -/
inductive FileError where
  | notFound
  | notDirectory
  | isDirectory
  | nameTooLong
  /-- Any other reason, with its conventional number and wording. -/
  | other (code : Nat) (text : String)
  deriving DecidableEq, Repr

namespace FileError

/-- The conventional number of the error. -/
def number : FileError → Nat
  | notFound => 2
  | notDirectory => 20
  | isDirectory => 21
  | nameTooLong => 36
  | other code _ => code

/-- The conventional wording of the error. -/
def wording : FileError → String
  | notFound => "No such file or directory"
  | notDirectory => "Not a directory"
  | isDirectory => "Is a directory"
  | nameTooLong => "File name too long"
  | other _ text => text

/-- The number and the wording, followed by the path in quotes. -/
def message (e : FileError) (quotedPath : String) : String :=
  "[Errno " ++ toString e.number ++ "] " ++ e.wording ++ ": " ++ quotedPath

end FileError

/-- Why there is no program to run. Nothing has been written when one of these arises. -/
inductive LoadError where
  /-- The program has no bytes. -/
  | empty
  /-- The program has more bytes than fit. -/
  | tooLong (size : Nat)
  /-- The file at the path has no bytes. -/
  | emptyFile (path : String)
  /-- The file at the path cannot be read; the second text is the path that was tried, quoted. -/
  | unreadable (path : String) (cause : FileError) (quotedPath : String)
  deriving DecidableEq, Repr

/-- The wording of a load error. -/
def LoadError.message : LoadError → String
  | empty => "Program is empty"
  | tooLong size =>
    "Program is " ++ toString size ++ " bytes, only " ++ toString roomForProgram
      ++ " fit above 0x200"
  | emptyFile path => "Rom " ++ path ++ " is empty"
  | unreadable path cause quotedPath =>
    "Unable to load rom " ++ path ++ ": " ++ cause.message quotedPath

/-- An argument outside the domain of the operation that it was given to. -/
inductive BadValue where
  /-- A program holds a number outside `0..255`. -/
  | notByte
  /-- A path holds the character with code 0. -/
  | nulInPath
  /-- A screen was asked for with a negative width or height. -/
  | negativeSize
  deriving DecidableEq, Repr

/-- The wording of a bad value. -/
def BadValue.message : BadValue → String
  | notByte => "bytes must be in range(0, 256)"
  | nulInPath => "embedded null byte"
  | negativeSize => "negative dimensions are not allowed"

/-- Everything that an operation can answer instead of a result. -/
inductive Error where
  | fault (f : Fault)
  | load (e : LoadError)
  | badValue (e : BadValue)
  /-- A coordinate was reduced by a width or height of zero. -/
  | noPixels
  /-- A key arrived for a wait that names no register. -/
  | noKeyRegister
  deriving DecidableEq, Repr

namespace Error

/-- The wording of an error. -/
def message : Error → String
  | fault f => f.message
  | load e => e.message
  | badValue e => e.message
  | noPixels => "integer modulo by zero"
  | noKeyRegister => "list indices must be integers or slices, not NoneType"

/-- The error is a fault of a running program. -/
def isFault : Error → Bool
  | fault _ => true
  | _ => false

/-- The error says that there is no program to run. -/
def isLoad : Error → Bool
  | load _ => true
  | _ => false

/-- The error is one that the machine raises on purpose: a fault or a load error. -/
def isRaised (e : Error) : Bool := e.isFault || e.isLoad

end Error

end Chip8
