import Chip8.Bank
import Chip8.Program

/-!
# Memory

4096 cells of one byte. Any integer addresses a cell through its low twelve bits, and any integer
is stored through its low eight, so no access can fail. The glyphs lie at address 0 and a program
is put at `0x200`.
-/

/-! ## Glyphs

The built-in font: one glyph of five sprite rows for each hexadecimal digit, kept one after the
other from address 0 on. -/

namespace Chip8.Glyph

/-- The rows of the font, the glyph of 0 first. -/
def font : List Byte := [
  0xF0, 0x90, 0x90, 0x90, 0xF0,
  0x20, 0x60, 0x20, 0x20, 0x70,
  0xF0, 0x10, 0xF0, 0x80, 0xF0,
  0xF0, 0x10, 0xF0, 0x10, 0xF0,
  0x90, 0x90, 0xF0, 0x10, 0x10,
  0xF0, 0x80, 0xF0, 0x10, 0xF0,
  0xF0, 0x80, 0xF0, 0x90, 0xF0,
  0xF0, 0x10, 0x20, 0x40, 0x40,
  0xF0, 0x90, 0xF0, 0x90, 0xF0,
  0xF0, 0x90, 0xF0, 0x10, 0xF0,
  0xF0, 0x90, 0xF0, 0x90, 0x90,
  0xE0, 0x90, 0xE0, 0x90, 0xE0,
  0xF0, 0x80, 0x80, 0x80, 0xF0,
  0xE0, 0x90, 0x90, 0x90, 0xE0,
  0xF0, 0x80, 0xF0, 0x80, 0xF0,
  0xF0, 0x80, 0xF0, 0x80, 0x80]

/-- The number of rows of a glyph. -/
def size : Nat := 5

/-- Where the glyph of a digit begins; the rule is applied to any number. -/
def address (digit : Int) : Int := digit * size

end Chip8.Glyph

/-! ## Reading and writing -/

namespace Chip8

/-- The memory: one byte for each address. -/
abbrev Memory := Bank 12 Byte

namespace Memory

/-- The address where programs begin. -/
def programStart : Addr := 0x200

/-- The memory with all bytes zero. -/
def blank : Memory := Bank.fill 12 0

/-- The byte at an address. -/
def readAt (m : Memory) (address : Int) : Byte := m.get (BitVec.ofInt 12 address)

/-- The memory with the byte at an address replaced. -/
def writeAt (m : Memory) (address value : Int) : Memory :=
  m.set (BitVec.ofInt 12 address) (BitVec.ofInt 8 value)

/-- Writes a row of values at consecutive addresses. -/
def writeRow (m : Memory) (address : Int) (values : List Int) : Memory :=
  m.writeAll (BitVec.ofInt 12 address) (values.map (BitVec.ofInt 8))

/-- The bytes at `length` consecutive addresses; none if `length` is not positive. -/
def block (m : Memory) (address length : Int) : List Byte :=
  m.read (BitVec.ofInt 12 address) length.toNat

/-- The word at an address and the one after it. -/
def word (m : Memory) (a : Addr) : Word := Word.ofBytes (m.get a) (m.get (a + 1))

/-- The memory with the glyphs at address 0. -/
def withGlyphs (m : Memory) : Memory := m.writeAll 0 Glyph.font

/-- The memory with a program at its place; the cells behind it are left as they are. -/
def withProgram (m : Memory) (p : Program) : Memory := m.writeAll programStart p.bytes

end Memory

end Chip8
