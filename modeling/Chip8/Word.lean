/-!
# Machine words

The widths of the machine: a nibble names a register or a key, a byte is what a register or a
memory cell holds, an address has twelve bits, and an instruction, the index register and the
program counter have sixteen. The fields of an instruction word are named as in its written form
`family x y n`, with `kk` for the low byte and `nnn` for the low twelve bits.
-/

namespace Chip8

/-- Four bits: a register number, a key, or a row count. -/
abbrev Nibble := BitVec 4

/-- Eight bits: the contents of a register, a timer or a memory cell. -/
abbrev Byte := BitVec 8

/-- Twelve bits: the name of a memory cell. -/
abbrev Addr := BitVec 12

/-- Sixteen bits: an instruction, the index register or the program counter. -/
abbrev Word := BitVec 16

namespace Byte

/-- One if the condition holds and zero otherwise. -/
def ofBool (c : Bool) : Byte := if c then 1 else 0

/-- One less, unless it is zero. -/
def countDown (b : Byte) : Byte := if b = 0 then 0 else b - 1

/-- The hundreds, tens and units. -/
def decimalDigits (b : Byte) : List Byte := [b / 100, b / 10 % 10, b % 10]

/-- Counting down a timer is subtraction that stops at zero. -/
theorem countDown_eq_ofNat (b : Byte) : b.countDown = BitVec.ofNat 8 (b.toNat - 1) := by
  unfold countDown
  split
  · rename_i hb
    subst hb
    rfl
  · rename_i hb
    have hpos : b.toNat ≠ 0 := fun h => hb (BitVec.eq_of_toNat_eq h)
    have hlt := b.isLt
    apply BitVec.eq_of_toNat_eq
    rw [BitVec.toNat_sub, BitVec.toNat_ofNat, show (1 : Byte).toNat = 1 from rfl]
    omega

end Byte

/-- The address as a word; the high four bits are clear. -/
def Addr.toWord (a : Addr) : Word := a.setWidth 16

theorem Addr.toNat_toWord (a : Addr) : a.toWord.toNat = a.toNat :=
  BitVec.toNat_setWidth_of_le (by decide)

namespace Word

/-- The word that two consecutive bytes spell, the high byte first. -/
def ofBytes (hi lo : Byte) : Word := hi ++ lo

/-- The memory cell that a word points to: only its low twelve bits count. -/
def addr (w : Word) : Addr := w.setWidth 12

/-- The word `k` cells further on, brought back below 4096. -/
def advance (w : Word) (k : Addr) : Word := (w.addr + k).toWord

/-- The leading nibble of an instruction, which names its family. -/
def family (w : Word) : Nibble := w.extractLsb' 12 4

/-- The second nibble, which names the destination register. -/
def x (w : Word) : Nibble := w.extractLsb' 8 4

/-- The third nibble, which names the other register. -/
def y (w : Word) : Nibble := w.extractLsb' 4 4

/-- The last nibble. -/
def n (w : Word) : Nibble := w.extractLsb' 0 4

/-- The low byte. -/
def kk (w : Word) : Byte := w.extractLsb' 0 8

/-- The low twelve bits. -/
def nnn (w : Word) : Addr := w.extractLsb' 0 12

/-- The number of two rows of bits, the high one first. -/
theorem toNat_append {v w : Nat} (hi : BitVec v) (lo : BitVec w) :
    (hi ++ lo).toNat = Nat.pow 2 w * hi.toNat + lo.toNat := by
  rw [BitVec.toNat_append, ← Nat.shiftLeft_add_eq_or_of_lt lo.isLt, Nat.shiftLeft_eq, Nat.mul_comm]
  rfl

/-- The number that two bytes spell. -/
theorem toNat_ofBytes (hi lo : Byte) : (ofBytes hi lo).toNat = 256 * hi.toNat + lo.toNat :=
  toNat_append hi lo

theorem toNat_family (w : Word) : w.family.toNat = w.toNat / 0x1000 := by
  have hlt := w.isLt
  rw [family, BitVec.extractLsb'_toNat, Nat.shiftRight_eq_div_pow, Nat.mod_eq_of_lt]
  omega

theorem toNat_n (w : Word) : w.n.toNat = w.toNat % 0x10 := by
  rw [n, BitVec.extractLsb'_toNat, Nat.shiftRight_zero]

theorem toNat_kk (w : Word) : w.kk.toNat = w.toNat % 0x100 := by
  rw [kk, BitVec.extractLsb'_toNat, Nat.shiftRight_zero]

/-- A word is its family followed by its low twelve bits. -/
theorem family_append (w : Word) : w.family ++ w.nnn = w := by
  rw [family, nnn, BitVec.extractLsb'_append_extractLsb'_eq_extractLsb' (by rfl)]
  exact BitVec.extractLsb'_eq_self

/-- The low twelve bits are the second nibble followed by the low byte. -/
theorem x_append_kk (w : Word) : w.x ++ w.kk = w.nnn :=
  BitVec.extractLsb'_append_extractLsb'_eq_extractLsb' (by rfl)

/-- The low byte is the third nibble followed by the last. -/
theorem y_append_n (w : Word) : w.y ++ w.n = w.kk :=
  BitVec.extractLsb'_append_extractLsb'_eq_extractLsb' (by rfl)

/-- A word is its family and its second nibble followed by its low byte. -/
theorem family_x_append (w : Word) : w.family ++ w.x ++ w.kk = w := by
  rw [family, x, kk, BitVec.extractLsb'_append_extractLsb'_eq_extractLsb' (by rfl),
    BitVec.extractLsb'_append_extractLsb'_eq_extractLsb' (by rfl)]
  exact BitVec.extractLsb'_eq_self

/-- A word is its four nibbles in order. -/
theorem nibbles_append (w : Word) : w.family ++ w.x ++ w.y ++ w.n = w := by
  rw [family, x, y, n, BitVec.extractLsb'_append_extractLsb'_eq_extractLsb' (by rfl),
    BitVec.extractLsb'_append_extractLsb'_eq_extractLsb' (by rfl),
    BitVec.extractLsb'_append_extractLsb'_eq_extractLsb' (by rfl)]
  exact BitVec.extractLsb'_eq_self

@[simp] theorem family_of_nnn (f : Nibble) (a : Addr) : family (f ++ a) = f :=
  BitVec.extractLsb'_append_eq_left

@[simp] theorem nnn_of_nnn (f : Nibble) (a : Addr) : nnn (f ++ a) = a :=
  BitVec.extractLsb'_append_eq_right

@[simp] theorem family_of_kk (f r : Nibble) (b : Byte) : family (f ++ r ++ b) = f := by
  rw [family, BitVec.extractLsb'_append_eq_of_le (by decide)]
  exact BitVec.extractLsb'_append_eq_left

@[simp] theorem x_of_kk (f r : Nibble) (b : Byte) : x (f ++ r ++ b) = r := by
  rw [x, BitVec.extractLsb'_append_eq_of_le (by decide)]
  exact BitVec.extractLsb'_append_eq_right

@[simp] theorem kk_of_kk (f r : Nibble) (b : Byte) : kk (f ++ r ++ b) = b :=
  BitVec.extractLsb'_append_eq_right

@[simp] theorem family_of_n (f r s k : Nibble) : family (f ++ r ++ s ++ k) = f := by
  rw [family, BitVec.extractLsb'_append_eq_of_le (by decide),
    BitVec.extractLsb'_append_eq_of_le (by decide)]
  exact BitVec.extractLsb'_append_eq_left

@[simp] theorem x_of_n (f r s k : Nibble) : x (f ++ r ++ s ++ k) = r := by
  rw [x, BitVec.extractLsb'_append_eq_of_le (by decide),
    BitVec.extractLsb'_append_eq_of_le (by decide)]
  exact BitVec.extractLsb'_append_eq_right

@[simp] theorem y_of_n (f r s k : Nibble) : y (f ++ r ++ s ++ k) = s := by
  rw [y, BitVec.extractLsb'_append_eq_of_le (by decide)]
  exact BitVec.extractLsb'_append_eq_right

@[simp] theorem n_of_n (f r s k : Nibble) : n (f ++ r ++ s ++ k) = k :=
  BitVec.extractLsb'_append_eq_right

/-- A word that has been advanced points into memory directly. -/
theorem advance_lt (w : Word) (k : Addr) : (w.advance k).toNat < 4096 := by
  simp only [advance, Addr.toWord, BitVec.toNat_setWidth]
  omega

@[simp] theorem addr_toWord (a : Addr) : a.toWord.addr = a := by
  simp [Addr.toWord, addr]

/-- A word below 4096 is an address. -/
theorem toWord_addr {w : Word} (hw : w.toNat < 4096) : w.addr.toWord = w := by
  apply BitVec.eq_of_toNat_eq
  simp only [Addr.toWord, addr, BitVec.toNat_setWidth]
  omega

/-- Going back over the cells that were passed leads to the start. -/
theorem advance_advance_neg {w : Word} (hw : w.toNat < 4096) (k : Addr) :
    (w.advance k).advance (-k) = w := by
  rw [advance, advance, addr_toWord, BitVec.add_assoc, BitVec.add_right_neg, BitVec.add_zero,
    toWord_addr hw]

/-- The number of a word that has been advanced. -/
theorem toNat_advance (w : Word) (k : Addr) :
    (w.advance k).toNat = (w.toNat + k.toNat) % 4096 := by
  simp only [advance, Addr.toWord, addr, BitVec.toNat_setWidth, BitVec.toNat_add]
  omega

end Word

end Chip8
