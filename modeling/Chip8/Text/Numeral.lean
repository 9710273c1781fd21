/-!
# Numerals

The texts of numbers: hexadecimal numerals are written, and decimal ones are read.
-/

/-! ## Hexadecimal numerals

Upper-case numerals of integers, padded with zeros to a width in which a minus sign counts as one
place, and lower-case numerals of natural numbers behind `0x`. -/

namespace Chip8.Hex

/-- The lower-case digits of `k`, the most significant first. -/
def digits (k : Nat) : List Char := Nat.toDigits 16 k

/-- `i` in upper case with at least `width` places; a minus sign takes one of them. -/
def padded (width : Nat) (i : Int) : String :=
  let sign := if i < 0 then ['-'] else []
  let body := (digits i.natAbs).map Char.toUpper
  String.ofList (sign ++ List.replicate (width - sign.length - body.length) '0' ++ body)

/-- `i` in upper case without padding. -/
def upper (i : Int) : String := padded 0 i

/-- `k` in lower case with at least `width` places. -/
def lower (width k : Nat) : String :=
  String.ofList (List.replicate (width - (digits k).length) '0' ++ digits k)

/-- `k` in lower case behind `0x`. -/
def marked (k : Nat) : String := "0x" ++ lower 0 k

end Chip8.Hex

/-! ## Integer numerals

An integer is written with decimal digits of any script, single underscores between digits, an
optional sign in front and blanks around it. The leading sign and the underscores are the ASCII
ones. A numeral has at most 4300 digits, leading zeros included. -/

namespace Chip8.Numeral

/-- The code points of the digits zero; the other nine digits of a script follow each of them. -/
def zeros : List Nat := [
  0x30, 0x660, 0x6F0, 0x7C0, 0x966, 0x9E6, 0xA66, 0xAE6, 0xB66, 0xBE6,
  0xC66, 0xCE6, 0xD66, 0xDE6, 0xE50, 0xED0, 0xF20, 0x1040, 0x1090, 0x17E0,
  0x1810, 0x1946, 0x19D0, 0x1A80, 0x1A90, 0x1B50, 0x1BB0, 0x1C40, 0x1C50, 0xA620,
  0xA8D0, 0xA900, 0xA9D0, 0xA9F0, 0xAA50, 0xABF0, 0xFF10, 0x104A0, 0x10D30, 0x11066,
  0x110F0, 0x11136, 0x111D0, 0x112F0, 0x11450, 0x114D0, 0x11650, 0x116C0, 0x11730, 0x118E0,
  0x11950, 0x11C50, 0x11D50, 0x11DA0, 0x16A60, 0x16AC0, 0x16B50, 0x1D7CE, 0x1D7D8, 0x1D7E2,
  0x1D7EC, 0x1D7F6, 0x1E140, 0x1E2F0, 0x1E950, 0x1FBF0]

/-- The value of a decimal digit. -/
def digit? (c : Char) : Option Nat :=
  (zeros.find? fun z => z ≤ c.toNat && c.toNat < z + 10).map (c.toNat - ·)

/-- Blanks outside ASCII. -/
def wideBlanks : List Nat := [
  0x85, 0xA0, 0x1680, 0x2000, 0x2001, 0x2002, 0x2003, 0x2004, 0x2005, 0x2006, 0x2007, 0x2008,
  0x2009, 0x200A, 0x2028, 0x2029, 0x202F, 0x205F, 0x3000]

/-- A character that may stand around a numeral: the space, the five ASCII controls that move the
printing position, and the blanks outside ASCII. -/
def isBlank (c : Char) : Bool :=
  c = ' ' || (9 ≤ c.toNat && c.toNat ≤ 13) || wideBlanks.contains c.toNat

/-- Reads more digits, with single underscores between digits, after a number. -/
def digits? (number : Nat) : List Char → Option Nat
  | [] => some number
  | c :: rest =>
    if c = '_' then
      match rest with
      | [] => none
      | d :: rest => (digit? d).bind fun k => digits? (10 * number + k) rest
    else (digit? c).bind fun k => digits? (10 * number + k) rest

/-- Reads a numeral without a sign. -/
def unsigned? : List Char → Option Nat
  | [] => none
  | c :: rest => (digit? c).bind fun k => digits? k rest

/-- Reads a numeral with an optional sign. -/
def signed? : List Char → Option Int
  | '+' :: rest => (unsigned? rest).map Int.ofNat
  | '-' :: rest => (unsigned? rest).map fun k => -(Int.ofNat k)
  | cs => (unsigned? cs).map Int.ofNat

/-- Drops the blanks around a text. -/
def trim (cs : List Char) : List Char :=
  ((cs.dropWhile isBlank).reverse.dropWhile isBlank).reverse

/-- The largest number of digits of a numeral; zeros in front count, underscores do not. -/
def maxDigits : Nat := 4300

/-- The number of decimal digits in a text. -/
def digitCount (cs : List Char) : Nat := cs.countP fun c => (digit? c).isSome

/-- The integer that a text writes. -/
def integer? (s : String) : Option Int :=
  if digitCount s.toList ≤ maxDigits then signed? (trim s.toList) else none

end Chip8.Numeral
