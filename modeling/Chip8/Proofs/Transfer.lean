import Chip8.Proofs.Arithmetic

/-!
# Registers and memory

Storing puts `V0` to `Vx` in the cells from the index register on, and loading takes them from
there. A row of at most sixteen cells does not lap the memory, so each undoes the other
(`reg_load_store`, `memory_store_load`), also where the row goes over the end of memory and where
the index register points beyond it. The three decimal digits of a register are stored and loaded in
the same way (`transfer_inverse`).
-/

namespace Chip8

/-- The hundreds, tens and units of a byte are digits and make up its number. -/
theorem Byte.decimal_digits (b : Byte) :
    (b / 100).toNat ≤ 9 ∧ (b / 10 % 10).toNat ≤ 9 ∧ (b % 10).toNat ≤ 9 ∧
      100 * (b / 100).toNat + 10 * (b / 10 % 10).toNat + (b % 10).toNat = b.toNat := by
  have hb := b.isLt
  have h10 : (10 : Byte).toNat = 10 := rfl
  have h100 : (100 : Byte).toNat = 100 := rfl
  simp only [BitVec.toNat_udiv, BitVec.toNat_umod, h10, h100]
  omega

namespace Machine

variable {w h : Nat} {τ : Type}

/-- Loading what was stored restores the registers up to `Vx`, whatever they hold by then. -/
theorem reg_load_store (random : Nat → Int) (m : Machine w h τ) (x r : Nibble) (v : Bank 4 Byte) :
    (execute random { (m.execute random (.store x)).1 with cpu.v := v } (.load x)).1.reg r =
      if r ≤ x then m.reg r else v.get r := by
  rw [reg_execute_load]
  by_cases hr : r ≤ x
  · have hlt : r.toNat < (m.cpu.v.read 0 (x.toNat + 1)).length := by
      rw [Bank.length_read]
      exact Nat.lt_succ_of_le hr
    have hstored : (m.cpu.v.read 0 (x.toNat + 1))[r.toNat] = m.reg r := by
      simp [Bank.read, reg]
    have hcell : (m.memory.writeAll m.cpu.i.addr (m.cpu.v.read 0 (x.toNat + 1))).get
        (m.cpu.i.addr + BitVec.ofNat 12 r.toNat) = (m.cpu.v.read 0 (x.toNat + 1))[r.toNat] :=
      Bank.get_writeAll_add _ _ (m.length_stored x) hlt
    rw [if_pos hr, if_pos hr]
    exact hcell.trans hstored
  · rw [if_neg hr, if_neg hr]
    rfl

/-- Storing what was loaded leaves the memory as it is. -/
theorem memory_store_load (random : Nat → Int) (m : Machine w h τ) (x : Nibble) :
    ((m.execute random (.load x)).1.execute random (.store x)).1.memory = m.memory := by
  have hx := x.isLt
  have hlength : (m.memory.read m.cpu.i.addr (x.toNat + 1)).length = x.toNat + 1 :=
    Bank.length_read ..
  have hrow := m.cpu.v.read_writeAll 0 (m.memory.read m.cpu.i.addr (x.toNat + 1))
    (hlength.trans_le hx)
  rw [hlength] at hrow
  simp only [execute, hrow]
  exact Bank.writeAll_read _ _ (Nat.le_trans hx (by decide))

/-- The decimal digits of a register are loaded in `V0`, `V1` and `V2`. -/
theorem reg_load_decimal (random : Nat → Int) (m : Machine w h τ) (x r : Nibble)
    (hr : r.toNat < (m.reg x).decimalDigits.length) :
    ((m.execute random (.decimal x)).1.execute random (.load 2)).1.reg r =
      (m.reg x).decimalDigits[r.toNat] := by
  have hle : r ≤ 2 := Nat.le_of_lt_succ hr
  have hlength : (m.reg x).decimalDigits.length ≤ Nat.pow 2 12 := Nat.le_of_ble_eq_true rfl
  rw [reg_execute_load, if_pos hle]
  exact Bank.get_writeAll_add _ _ hlength hr

/-- Storing registers and loading them again restores them, whatever they were replaced by in
between, and leaves the others at what replaced them; loading and storing leaves the memory as it
is. Neither moves the index register. Storing the decimal digits of a register and loading three
leaves in `V0`, `V1` and `V2` the digits of what it held. -/
theorem transfer_inverse (random : Nat → Int) (m : Machine w h τ) (x : Nibble) :
    let stored := (m.execute random (.store x)).1
    let loaded := (m.execute random (.load x)).1
    let digits := ((m.execute random (.decimal x)).1.execute random (.load 2)).1
    (∀ (v : Bank 4 Byte) (r : Nibble),
      (execute random { stored with cpu.v := v } (.load x)).1.reg r =
        if r ≤ x then m.reg r else v.get r) ∧
    (∀ a, (loaded.execute random (.store x)).1.memory.get a = m.memory.get a) ∧
    stored.cpu.i = m.cpu.i ∧ loaded.cpu.i = m.cpu.i ∧
    (digits.reg 0).toNat ≤ 9 ∧ (digits.reg 1).toNat ≤ 9 ∧ (digits.reg 2).toNat ≤ 9 ∧
    100 * (digits.reg 0).toNat + 10 * (digits.reg 1).toNat + (digits.reg 2).toNat =
      (m.reg x).toNat := by
  intro stored loaded digits
  refine ⟨fun v r => reg_load_store random m x r v, fun a => ?_, rfl, rfl, ?_⟩
  · rw [memory_store_load]
  · have hundreds : digits.reg 0 = m.reg x / 100 :=
      reg_load_decimal random m x 0 (Nat.le_of_ble_eq_true rfl)
    have tens : digits.reg 1 = m.reg x / 10 % 10 :=
      reg_load_decimal random m x 1 (Nat.le_of_ble_eq_true rfl)
    have units : digits.reg 2 = m.reg x % 10 :=
      reg_load_decimal random m x 2 (Nat.le_of_ble_eq_true rfl)
    rw [hundreds, tens, units]
    exact (m.reg x).decimal_digits

end Machine

end Chip8
