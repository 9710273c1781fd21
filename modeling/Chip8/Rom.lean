import Chip8.Word
import Chip8.Text.Quoted
import Chip8.Error

/-!
# Reading program files

A program file is read as a whole. Reading fails on a path that no file can have, on a file that
the system does not hand over, and on a file without bytes; the size of the file is not looked at.
-/

/-! ## Paths

A path is read from a text by dropping repeated slashes, `.` parts and a trailing slash; `..` is
kept. A path that begins with a slash is absolute, and one that begins with exactly two slashes
keeps both. A path that was read is written with single slashes between its parts. -/

namespace Chip8

/-- A path: its leading slashes, if any, and its parts. -/
structure Path where
  root : String
  parts : List String
  deriving DecidableEq, Repr

namespace Path

/-- The leading slashes that a text keeps. -/
def rootOf (cs : List Char) : String :=
  match (cs.takeWhile (· = '/')).length with
  | 0 => ""
  | 2 => "//"
  | _ => "/"

/-- The parts of a text between slashes, from left to right. -/
def split : List Char → List (List Char)
  | [] => [[]]
  | c :: cs =>
    if c = '/' then [] :: split cs
    else match split cs with
      | [] => [[c]]
      | part :: parts => (c :: part) :: parts

/-- Reads a path. -/
def ofText (s : String) : Path where
  root := rootOf s.toList
  parts := ((split s.toList).map String.ofList).filter fun part => part ≠ "" && part ≠ "."

/-- Writes a path; the empty path is written as a dot. -/
def text (p : Path) : String :=
  if p.root = "" && p.parts.isEmpty then "." else p.root ++ "/".intercalate p.parts

end Path

/-! ## Program files -/

/-- How the bytes of the file at a path are obtained. -/
abbrev FileSystem := Path → Except FileError (List Byte)

namespace Rom

/-- The bytes of the program file that a text names. -/
def read (files : FileSystem) (path : String) : Except Error (List Byte) :=
  if path.toList.contains (Char.ofNat 0) then .error (.badValue .nulInPath)
  else
    let p := Path.ofText path
    match files p with
    | .error e => .error (.load (.unreadable path e (Quoted.encode p.text)))
    | .ok [] => .error (.load (.emptyFile path))
    | .ok bytes => .ok bytes

end Rom

end Chip8
