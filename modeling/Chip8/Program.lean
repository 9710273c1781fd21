import Chip8.Word
import Chip8.Error

/-!
# Programs

A program is a row of bytes that is not empty and fits into memory. `ofNumbers` checks a row of
numbers: first that all are bytes, then that there are any, then that they fit.
-/

namespace Chip8

/-- A row of bytes that can be put into memory. -/
structure Program where
  bytes : List Byte
  ne_nil : bytes ≠ []
  length_le : bytes.length ≤ roomForProgram
  deriving DecidableEq

/-- The byte that a number stands for, if it is in `0..255`. -/
def byteOfNumber? (v : Int) : Option Byte :=
  if 0 ≤ v ∧ v < 256 then some (BitVec.ofInt 8 v) else none

/-- A number stands for the byte that has this number. -/
theorem byteOfNumber?_eq_some_iff {v : Int} {b : Byte} :
    byteOfNumber? v = some b ↔ v = b.toNat := by
  have hb := b.isLt
  unfold byteOfNumber?
  constructor
  · intro hv
    split at hv
    · cases hv
      rw [BitVec.toNat_ofInt]
      omega
    · cases hv
  · rintro rfl
    rw [if_pos (by omega), BitVec.ofInt_natCast, BitVec.ofNat_toNat, BitVec.setWidth_eq]

/-- A row of numbers stands for the bytes that have these numbers. -/
theorem mapM_byteOfNumber?_eq_some_iff {numbers : List Int} {bytes : List Byte} :
    numbers.mapM byteOfNumber? = some bytes ↔ numbers = bytes.map fun b => (b.toNat : Int) := by
  induction numbers generalizing bytes with
  | nil => cases bytes <;> simp
  | cons v numbers ih =>
    rw [List.mapM_cons]
    cases bytes with
    | nil => simp [Option.bind_eq_some_iff]
    | cons b bytes =>
      simp [Option.bind_eq_some_iff, byteOfNumber?_eq_some_iff, ih]

namespace Program

/-- The number of bytes. -/
def size (p : Program) : Nat := p.bytes.length

/-- Checks that a row of bytes is a program. -/
def ofBytes (bytes : List Byte) : Except Error Program :=
  if hne : bytes = [] then .error (.load .empty)
  else if hle : bytes.length ≤ roomForProgram then .ok ⟨bytes, hne, hle⟩
  else .error (.load (.tooLong bytes.length))

/-- Checks that a row of numbers is a program. -/
def ofNumbers (numbers : List Int) : Except Error Program :=
  match numbers.mapM byteOfNumber? with
  | none => .error (.badValue .notByte)
  | some bytes => ofBytes bytes

/-- The bytes of a program are a program again. -/
@[simp] theorem ofBytes_bytes (p : Program) : ofBytes p.bytes = .ok p := by
  simp [ofBytes, p.ne_nil, p.length_le]

/-- A row of bytes that is a program is the row of its bytes. -/
theorem bytes_eq_of_ofBytes {bytes : List Byte} {p : Program} (hp : ofBytes bytes = .ok p) :
    p.bytes = bytes := by
  unfold ofBytes at hp
  split at hp
  · cases hp
  · split at hp
    · cases hp
      rfl
    · cases hp

/-- A row of numbers is a program if it is the row of its bytes. -/
theorem ofNumbers_eq_ok_iff {numbers : List Int} {p : Program} :
    ofNumbers numbers = .ok p ↔ numbers = p.bytes.map fun b => (b.toNat : Int) := by
  unfold ofNumbers
  constructor
  · intro hp
    split at hp
    · cases hp
    · rename_i bytes hbytes
      rw [bytes_eq_of_ofBytes hp]
      exact mapM_byteOfNumber?_eq_some_iff.mp hbytes
  · intro hnumbers
    rw [mapM_byteOfNumber?_eq_some_iff.mpr hnumbers]
    exact ofBytes_bytes p

end Program

end Chip8
