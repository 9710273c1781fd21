/-!
# Banks of cells

A bank of width `w` has one cell for every `w`-bit address, so that addresses wrap by themselves:
memory, the registers and the key states are banks. A bank is determined by its cells
(`Bank.ext`), a write changes one cell (`get_set`), and a row of cells that is written and read
back at the same address returns unchanged as long as it does not lap the bank
(`read_writeAll`).
-/

namespace Chip8

/-- One cell of type `α` for each address of `w` bits. -/
structure Bank (w : Nat) (α : Type) where
  cells : Vector α (Nat.pow 2 w)
  deriving DecidableEq

namespace Bank

variable {w : Nat} {α : Type}

/-- The bank whose cells all hold `x`. -/
def fill (w : Nat) (x : α) : Bank w α := ⟨Vector.replicate (Nat.pow 2 w) x⟩

/-- The contents of a cell. -/
def get (b : Bank w α) (a : BitVec w) : α := b.cells.get a.toFin

/-- The bank with one cell replaced. -/
def set (b : Bank w α) (a : BitVec w) (x : α) : Bank w α := ⟨b.cells.set a.toNat x a.isLt⟩

/-- The `k` cells from `a` on, wrapping past the last address. -/
def read (b : Bank w α) (a : BitVec w) (k : Nat) : List α :=
  (List.range k).map fun i => b.get (a + BitVec.ofNat w i)

/-- Writes a row of values from `a` on, one after the other, wrapping past the last address. -/
def writeAll (b : Bank w α) (a : BitVec w) : List α → Bank w α
  | [] => b
  | x :: xs => (b.set a x).writeAll (a + 1) xs

/-- All cells in the order of their addresses. -/
def toList (b : Bank w α) : List α := b.cells.toList

@[ext] theorem ext {b c : Bank w α} (h : ∀ a, b.get a = c.get a) : b = c := by
  obtain ⟨u⟩ := b
  obtain ⟨v⟩ := c
  congr 1
  apply Vector.ext
  intro i hi
  have := h (BitVec.ofFin ⟨i, hi⟩)
  exact this

@[simp] theorem get_fill (x : α) (a : BitVec w) : (fill w x).get a = x := by
  simp [get, fill, Vector.get]

theorem get_set (b : Bank w α) (a c : BitVec w) (x : α) :
    (b.set a x).get c = if a = c then x else b.get c := by
  have key : (b.set a x).get c = if a.toNat = c.toNat then x else b.get c := by
    simp only [get, set]
    exact Vector.getElem_set a.isLt c.isLt
  simpa only [BitVec.toNat_inj] using key

@[simp] theorem get_set_self (b : Bank w α) (a : BitVec w) (x : α) : (b.set a x).get a = x := by
  simp [get_set]

theorem get_set_ne (b : Bank w α) {a c : BitVec w} (h : a ≠ c) (x : α) :
    (b.set a x).get c = b.get c := by
  simp [get_set, h]

@[simp] theorem length_read (b : Bank w α) (a : BitVec w) (k : Nat) : (b.read a k).length = k := by
  simp [read]

/-- The cells that are read, by their offset. -/
theorem getElem?_read (b : Bank w α) (a : BitVec w) (k i : Nat) :
    (b.read a k)[i]? = if i < k then some (b.get (a + BitVec.ofNat w i)) else none := by
  rw [read, List.getElem?_map]
  split
  · rename_i hi
    rw [List.getElem?_range hi]
    rfl
  · rename_i hi
    rw [List.getElem?_eq_none (by rw [List.length_range]; omega)]
    rfl

/-- One less than an offset, where the offset 0 is followed backwards by the largest. -/
theorem toNat_sub_one (d : BitVec w) :
    (d - 1).toNat = if d = 0 then Nat.pow 2 w - 1 else d.toNat - 1 := by
  have hd := d.isLt
  cases w with
  | zero => simp [BitVec.of_length_zero]
  | succ w =>
    have hone : 1 < 2 ^ (w + 1) := by
      have := Nat.two_pow_pos w
      rw [Nat.pow_succ]
      omega
    rw [BitVec.toNat_sub, show (1 : BitVec (w + 1)).toNat = 1 from Nat.mod_eq_of_lt hone]
    split
    · rename_i h
      subst h
      exact Nat.mod_eq_of_lt (Nat.sub_lt (by omega) (by omega))
    · rename_i h
      have hne : d.toNat ≠ 0 := fun e => h (BitVec.eq_of_toNat_eq (by simpa using e))
      rw [show 2 ^ (w + 1) - 1 + d.toNat = 2 ^ (w + 1) + (d.toNat - 1) by omega, Nat.add_mod_left]
      exact Nat.mod_eq_of_lt (by omega)

/-- After a row was written, a cell holds the row's value at its offset, or what it held before. -/
theorem get_writeAll (b : Bank w α) (a c : BitVec w) (xs : List α) (h : xs.length ≤ Nat.pow 2 w) :
    (b.writeAll a xs).get c = (xs[(c - a).toNat]?).getD (b.get c) := by
  induction xs generalizing b a with
  | nil => simp [writeAll]
  | cons x xs ih =>
    have hl : xs.length < Nat.pow 2 w := h
    have hoff : c - (a + 1) = c - a - 1 := by
      rw [BitVec.sub_eq_iff_eq_add, BitVec.add_comm a 1, ← BitVec.add_assoc,
        BitVec.sub_add_cancel, BitVec.sub_add_cancel]
    rw [writeAll, ih _ _ (Nat.le_of_lt hl), get_set, hoff, toNat_sub_one]
    by_cases hac : a = c
    · subst hac
      have hlast : xs.length ≤ Nat.pow 2 w - 1 := Nat.le_sub_one_of_lt hl
      have hzero : a - a = 0 := BitVec.sub_self a
      rw [if_pos hzero, List.getElem?_eq_none hlast, hzero]
      simp
    · have hd : c - a ≠ 0 := fun e => hac (by
        rw [← BitVec.sub_add_cancel c a, e]
        exact (BitVec.zero_add a).symm)
      have hpos : (c - a).toNat ≠ 0 := fun e => hd (BitVec.eq_of_toNat_eq (by simpa using e))
      obtain ⟨k, hk⟩ := Nat.exists_eq_succ_of_ne_zero hpos
      simp only [hd, hac, ite_false, hk, Nat.succ_eq_add_one, Nat.add_sub_cancel,
        List.getElem?_cons_succ]

/-- A cell of a row that was written, by its offset. -/
theorem get_writeAll_add (b : Bank w α) (a : BitVec w) {xs : List α} (h : xs.length ≤ Nat.pow 2 w)
    {i : Nat} (hi : i < xs.length) :
    (b.writeAll a xs).get (a + BitVec.ofNat w i) = xs[i] := by
  have hlt : i < 2 ^ w := Nat.lt_of_lt_of_le hi h
  have hoff : a + BitVec.ofNat w i - a = BitVec.ofNat w i := by
    rw [BitVec.add_comm, BitVec.add_sub_cancel]
  rw [get_writeAll _ _ _ _ h, hoff, BitVec.toNat_ofNat, Nat.mod_eq_of_lt hlt,
    List.getElem?_eq_getElem hi, Option.getD_some]

/-- A row that does not lap the bank is read back as it was written. -/
theorem read_writeAll (b : Bank w α) (a : BitVec w) (xs : List α) (h : xs.length ≤ Nat.pow 2 w) :
    (b.writeAll a xs).read a xs.length = xs := by
  apply List.ext_getElem (by simp)
  intro i hi hx
  simp only [read, List.getElem_map, List.getElem_range, get_writeAll_add b a h hx]

/-- Writing a row where it was read changes nothing. -/
theorem writeAll_read (b : Bank w α) (a : BitVec w) {k : Nat} (h : k ≤ Nat.pow 2 w) :
    b.writeAll a (b.read a k) = b := by
  ext c
  have hoff : a + BitVec.ofNat w (c - a).toNat = c := by
    rw [BitVec.ofNat_toNat, BitVec.setWidth_eq, BitVec.add_comm, BitVec.sub_add_cancel]
  rw [get_writeAll _ _ _ _ (by rwa [length_read]), getElem?_read, hoff]
  split <;> rfl

end Bank

end Chip8
