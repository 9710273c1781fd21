import Chip8.Word

/-!
# Instructions

The instruction table of the machine: thirty-five rows, each with its operands. `Vx` is the
register that the second nibble names and `Vy` the one that the third names; an operand that an
instruction carries but does not use (`y` of a shift) is kept, so that a row and its operands
determine the word.
-/

namespace Chip8

/-- An instruction with its operands. -/
inductive Instruction where
  /-- Call a routine of the host machine; ignored. -/
  | sys (nnn : Addr)
  /-- Clear the screen. -/
  | cls
  /-- Return from a subroutine. -/
  | ret
  /-- Continue at `nnn`. -/
  | jump (nnn : Addr)
  /-- Call the subroutine at `nnn`. -/
  | call (nnn : Addr)
  /-- Skip the next instruction if `Vx` is `kk`. -/
  | skipEqByte (x : Nibble) (kk : Byte)
  /-- Skip the next instruction unless `Vx` is `kk`. -/
  | skipNeByte (x : Nibble) (kk : Byte)
  /-- Skip the next instruction if `Vx` is `Vy`. -/
  | skipEq (x y : Nibble)
  /-- Set `Vx` to `kk`. -/
  | setByte (x : Nibble) (kk : Byte)
  /-- Add `kk` to `Vx`; no carry is kept. -/
  | addByte (x : Nibble) (kk : Byte)
  /-- Copy `Vy` to `Vx`. -/
  | copy (x y : Nibble)
  /-- Bitwise or of `Vy` into `Vx`. -/
  | or (x y : Nibble)
  /-- Bitwise and of `Vy` into `Vx`. -/
  | and (x y : Nibble)
  /-- Bitwise exclusive or of `Vy` into `Vx`. -/
  | xor (x y : Nibble)
  /-- Add `Vy` to `Vx`; `VF` is the carry. -/
  | add (x y : Nibble)
  /-- Subtract `Vy` from `Vx`; `VF` is 1 if `Vx` was the greater. -/
  | sub (x y : Nibble)
  /-- Halve `Vx`; `VF` is the bit that falls out. -/
  | shiftRight (x y : Nibble)
  /-- Put `Vy - Vx` in `Vx`; `VF` is 1 if `Vy` was the greater. -/
  | subFrom (x y : Nibble)
  /-- Double `Vx`; `VF` is the bit that falls out, left in its place. -/
  | shiftLeft (x y : Nibble)
  /-- Skip the next instruction unless `Vx` is `Vy`. -/
  | skipNe (x y : Nibble)
  /-- Set the index register to `nnn`. -/
  | setIndex (nnn : Addr)
  /-- Continue at `nnn + V0`. -/
  | jumpFrom (nnn : Addr)
  /-- Put a random byte, masked by `kk`, in `Vx`. -/
  | random (x : Nibble) (kk : Byte)
  /-- Draw the `n` sprite rows at the index register at (`Vx`, `Vy`); `VF` is the collision. -/
  | draw (x y n : Nibble)
  /-- Skip the next instruction if key `Vx` is held. -/
  | skipKey (x : Nibble)
  /-- Skip the next instruction unless key `Vx` is held. -/
  | skipNoKey (x : Nibble)
  /-- Copy the delay timer to `Vx`. -/
  | getDelay (x : Nibble)
  /-- Wait for a key press and put the key in `Vx`. -/
  | waitKey (x : Nibble)
  /-- Set the delay timer to `Vx`. -/
  | setDelay (x : Nibble)
  /-- Set the sound timer to `Vx`. -/
  | setSound (x : Nibble)
  /-- Add `Vx` to the index register. -/
  | addIndex (x : Nibble)
  /-- Point the index register at the glyph of digit `Vx`. -/
  | glyph (x : Nibble)
  /-- Store the three decimal digits of `Vx` at the index register. -/
  | decimal (x : Nibble)
  /-- Store `V0` to `Vx` at the index register. -/
  | store (x : Nibble)
  /-- Load `V0` to `Vx` from the index register. -/
  | load (x : Nibble)
  deriving DecidableEq, Repr

/-- The row of the instruction table in the usual assembly notation. -/
def Instruction.pattern : Instruction → String
  | sys _ => "SYS addr"
  | cls => "CLS"
  | ret => "RET"
  | jump _ => "JP addr"
  | call _ => "CALL addr"
  | skipEqByte _ _ => "SE Vx, byte"
  | skipNeByte _ _ => "SNE Vx, byte"
  | skipEq _ _ => "SE Vx, Vy"
  | setByte _ _ => "LD Vx, byte"
  | addByte _ _ => "ADD Vx, byte"
  | copy _ _ => "LD Vx, Vy"
  | or _ _ => "OR Vx, Vy"
  | and _ _ => "AND Vx, Vy"
  | xor _ _ => "XOR Vx, Vy"
  | add _ _ => "ADD Vx, Vy"
  | sub _ _ => "SUB Vx, Vy"
  | shiftRight _ _ => "SHR Vx"
  | subFrom _ _ => "SUBN Vx, Vy"
  | shiftLeft _ _ => "SHL Vx"
  | skipNe _ _ => "SNE Vx, Vy"
  | setIndex _ => "LD I, addr"
  | jumpFrom _ => "JP V0, addr"
  | random _ _ => "RND Vx, byte"
  | draw _ _ _ => "DRW Vx, Vy, nibble"
  | skipKey _ => "SKP Vx"
  | skipNoKey _ => "SKNP Vx"
  | getDelay _ => "LD Vx, DT"
  | waitKey _ => "LD Vx, K"
  | setDelay _ => "LD DT, Vx"
  | setSound _ => "LD ST, Vx"
  | addIndex _ => "ADD I, Vx"
  | glyph _ => "LD F, Vx"
  | decimal _ => "LD B, Vx"
  | store _ => "LD [I], Vx"
  | load _ => "LD Vx, [I]"

end Chip8
