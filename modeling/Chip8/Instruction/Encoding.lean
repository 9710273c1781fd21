import Chip8.Instruction
import Chip8.Error

/-!
# The words of instructions

`encode` assembles the word of a row and `decode?` reads it back. Decoding accepts exactly the
assembled words (`decode?_eq_some_iff`); the one overlap is that the host calls `0E0` and `0EE`
are the words of `cls` and `ret`.
-/

namespace Chip8

namespace Instruction

/-- The word of an instruction. -/
def encode : Instruction → Word
  | sys nnn => 0x0#4 ++ nnn
  | cls => 0x00E0#16
  | ret => 0x00EE#16
  | jump nnn => 0x1#4 ++ nnn
  | call nnn => 0x2#4 ++ nnn
  | skipEqByte x kk => 0x3#4 ++ x ++ kk
  | skipNeByte x kk => 0x4#4 ++ x ++ kk
  | skipEq x y => 0x5#4 ++ x ++ y ++ 0x0#4
  | setByte x kk => 0x6#4 ++ x ++ kk
  | addByte x kk => 0x7#4 ++ x ++ kk
  | copy x y => 0x8#4 ++ x ++ y ++ 0x0#4
  | or x y => 0x8#4 ++ x ++ y ++ 0x1#4
  | and x y => 0x8#4 ++ x ++ y ++ 0x2#4
  | xor x y => 0x8#4 ++ x ++ y ++ 0x3#4
  | add x y => 0x8#4 ++ x ++ y ++ 0x4#4
  | sub x y => 0x8#4 ++ x ++ y ++ 0x5#4
  | shiftRight x y => 0x8#4 ++ x ++ y ++ 0x6#4
  | subFrom x y => 0x8#4 ++ x ++ y ++ 0x7#4
  | shiftLeft x y => 0x8#4 ++ x ++ y ++ 0xE#4
  | skipNe x y => 0x9#4 ++ x ++ y ++ 0x0#4
  | setIndex nnn => 0xA#4 ++ nnn
  | jumpFrom nnn => 0xB#4 ++ nnn
  | random x kk => 0xC#4 ++ x ++ kk
  | draw x y n => 0xD#4 ++ x ++ y ++ n
  | skipKey x => 0xE#4 ++ x ++ 0x9E#8
  | skipNoKey x => 0xE#4 ++ x ++ 0xA1#8
  | getDelay x => 0xF#4 ++ x ++ 0x07#8
  | waitKey x => 0xF#4 ++ x ++ 0x0A#8
  | setDelay x => 0xF#4 ++ x ++ 0x15#8
  | setSound x => 0xF#4 ++ x ++ 0x18#8
  | addIndex x => 0xF#4 ++ x ++ 0x1E#8
  | glyph x => 0xF#4 ++ x ++ 0x29#8
  | decimal x => 0xF#4 ++ x ++ 0x33#8
  | store x => 0xF#4 ++ x ++ 0x55#8
  | load x => 0xF#4 ++ x ++ 0x65#8

/-- The row of the arithmetic family that the last nibble names. -/
def arithmetic? (n x y : Nibble) : Option Instruction :=
  match n with
  | 0x0#4 => some (copy x y)
  | 0x1#4 => some (or x y)
  | 0x2#4 => some (and x y)
  | 0x3#4 => some (xor x y)
  | 0x4#4 => some (add x y)
  | 0x5#4 => some (sub x y)
  | 0x6#4 => some (shiftRight x y)
  | 0x7#4 => some (subFrom x y)
  | 0xE#4 => some (shiftLeft x y)
  | _ => none

/-- The row of the key family that the low byte names. -/
def key? (kk : Byte) (x : Nibble) : Option Instruction :=
  match kk with
  | 0x9E#8 => some (skipKey x)
  | 0xA1#8 => some (skipNoKey x)
  | _ => none

/-- The row of the last family, of timers, index and memory, that the low byte names. -/
def device? (kk : Byte) (x : Nibble) : Option Instruction :=
  match kk with
  | 0x07#8 => some (getDelay x)
  | 0x0A#8 => some (waitKey x)
  | 0x15#8 => some (setDelay x)
  | 0x18#8 => some (setSound x)
  | 0x1E#8 => some (addIndex x)
  | 0x29#8 => some (glyph x)
  | 0x33#8 => some (decimal x)
  | 0x55#8 => some (store x)
  | 0x65#8 => some (load x)
  | _ => none

/-- The instruction that a word spells, if any. -/
def decode? (w : Word) : Option Instruction :=
  match w.family with
  | 0x0#4 => some (if w = 0x00E0#16 then cls else if w = 0x00EE#16 then ret else sys w.nnn)
  | 0x1#4 => some (jump w.nnn)
  | 0x2#4 => some (call w.nnn)
  | 0x3#4 => some (skipEqByte w.x w.kk)
  | 0x4#4 => some (skipNeByte w.x w.kk)
  | 0x5#4 => if w.n = 0x0#4 then some (skipEq w.x w.y) else none
  | 0x6#4 => some (setByte w.x w.kk)
  | 0x7#4 => some (addByte w.x w.kk)
  | 0x8#4 => arithmetic? w.n w.x w.y
  | 0x9#4 => if w.n = 0x0#4 then some (skipNe w.x w.y) else none
  | 0xA#4 => some (setIndex w.nnn)
  | 0xB#4 => some (jumpFrom w.nnn)
  | 0xC#4 => some (random w.x w.kk)
  | 0xD#4 => some (draw w.x w.y w.n)
  | 0xE#4 => key? w.kk w.x
  | _ => device? w.kk w.x

theorem encode_of_arithmetic? {n x y : Nibble} {i : Instruction}
    (h : arithmetic? n x y = some i) : i.encode = 0x8#4 ++ x ++ y ++ n := by
  unfold arithmetic? at h
  split at h
  case h_10 => exact absurd h nofun
  all_goals cases h; rfl

theorem encode_of_key? {kk : Byte} {x : Nibble} {i : Instruction}
    (h : key? kk x = some i) : i.encode = 0xE#4 ++ x ++ kk := by
  unfold key? at h
  split at h
  case h_3 => exact absurd h nofun
  all_goals cases h; rfl

theorem encode_of_device? {kk : Byte} {x : Nibble} {i : Instruction}
    (h : device? kk x = some i) : i.encode = 0xF#4 ++ x ++ kk := by
  unfold device? at h
  split at h
  case h_10 => exact absurd h nofun
  all_goals cases h; rfl

/-- A decoded instruction spells the word that it was read from. -/
theorem encode_of_decode? {w : Word} {i : Instruction} (h : decode? w = some i) :
    i.encode = w := by
  unfold decode? at h
  split at h
  case h_1 hf =>
    split at h
    · rename_i hw; cases h; exact hw.symm
    · split at h
      · rename_i hw; cases h; exact hw.symm
      · cases h; rw [encode, ← hf, w.family_append]
  case h_6 hf =>
    split at h
    · rename_i hn; cases h; rw [encode, ← hf, ← hn, w.nibbles_append]
    · exact absurd h nofun
  case h_10 hf =>
    split at h
    · rename_i hn; cases h; rw [encode, ← hf, ← hn, w.nibbles_append]
    · exact absurd h nofun
  case h_9 hf => rw [encode_of_arithmetic? h, ← hf, w.nibbles_append]
  case h_15 hf => rw [encode_of_key? h, ← hf, w.family_x_append]
  case h_16 =>
    have hf : w.family = 0xF#4 := by
      generalize w.family = f at *
      revert f
      decide +revert
    rw [encode_of_device? h, ← hf, w.family_x_append]
  case h_14 hf => cases h; rw [encode, ← hf, w.nibbles_append]
  case h_2 hf | h_3 hf | h_11 hf | h_12 hf => cases h; rw [encode, ← hf, w.family_append]
  all_goals rename_i hf; cases h; rw [encode, ← hf, w.family_x_append]

/-- An instruction is read back from its word, the two shadowed host calls apart. -/
theorem decode?_encode {i : Instruction} (h0 : i ≠ sys 0x0E0) (h1 : i ≠ sys 0x0EE) :
    decode? i.encode = some i := by
  cases i with
  | sys nnn =>
    have word_ne {a : Addr} (h : sys nnn ≠ sys a) : 0x0#4 ++ nnn ≠ (0x0#4 ++ a : Word) := by
      intro e
      apply h
      rw [← Word.nnn_of_nnn 0x0#4 nnn, e, Word.nnn_of_nnn]
    have cls_ne : (0x0#4 ++ nnn : Word) ≠ 0x00E0#16 := word_ne h0
    have ret_ne : (0x0#4 ++ nnn : Word) ≠ 0x00EE#16 := word_ne h1
    simp only [encode, decode?, Word.family_of_nnn, Word.nnn_of_nnn]
    rw [if_neg cls_ne, if_neg ret_ne]
  | _ => first | rfl | simp [encode, decode?, arithmetic?, key?, device?]

/-- Decoding accepts exactly the words of instructions, and gives the instruction back. -/
theorem decode?_eq_some_iff {w : Word} {i : Instruction} :
    decode? w = some i ↔ i.encode = w ∧ i ≠ sys 0x0E0 ∧ i ≠ sys 0x0EE := by
  refine ⟨fun h => ⟨encode_of_decode? h, ?_, ?_⟩, fun ⟨h, h0, h1⟩ => h ▸ decode?_encode h0 h1⟩
  · rintro rfl
    have := encode_of_decode? h
    subst this
    exact absurd h (by decide)
  · rintro rfl
    have := encode_of_decode? h
    subst this
    exact absurd h (by decide)

/-- Reads an integer as an instruction through its low sixteen bits; `pc` is the address that a
fault reports. -/
def decodeAt (opcode pc : Int) : Except Fault Instruction :=
  let w : Word := BitVec.ofInt 16 opcode
  match decode? w with
  | some i => .ok i
  | none => .error ⟨.unknownOpcode, w.toNat, pc⟩

end Instruction

/-- What is told of a word that spells an instruction: the instruction, and the word with all of its
fields, also with those that the instruction does not use. -/
structure Decoded where
  instruction : Instruction
  opcode : Word
  x : Nibble
  y : Nibble
  n : Nibble
  kk : Byte
  nnn : Addr
  deriving DecidableEq, Repr

namespace Decoded

/-- The fields of a word beside an instruction. -/
def ofWord (w : Word) (i : Instruction) : Decoded where
  instruction := i
  opcode := w
  x := w.x
  y := w.y
  n := w.n
  kk := w.kk
  nnn := w.nnn

/-- Reads an integer as an instruction and tells the fields of its low sixteen bits; `pc` is the
address that a fault reports. -/
def ofNumber (opcode pc : Int) : Except Fault Decoded :=
  (Instruction.decodeAt opcode pc).map (ofWord (BitVec.ofInt 16 opcode))

end Decoded

end Chip8
