import Chip8.Screen
import Mathlib.Algebra.Ring.Parity

/-!
# Toggling pixels

A toggle inverts the pixel that its coordinates wrap to (`Screen.place`) and no other. After a row
of toggles a pixel is inverted exactly if an odd number of them was of it (`Screen.get_toggleAll`),
on any screen that has pixels. If no pixel is met twice, all that are met are inverted
(`Screen.get_toggleAll_ne_iff`), and each toggle reports what its pixel was before the first of them
(`Screen.toggleAll_snd_of_nodup`).
-/

namespace Chip8

/-- A coordinate that is not negative wraps to its remainder. -/
theorem val_wrap_natCast {n : Nat} (hn : 0 < n) (k : Nat) : (wrap hn k).val = k % n := by
  show ((k : Int) % n).toNat = k % n
  rw [← Int.natCast_emod, Int.toNat_natCast]

/-- A sum is odd just if one of its terms is odd and the other is not. -/
theorem decide_odd_add (m n : Nat) :
    decide (Odd (m + n)) = (decide (Odd m) ^^ decide (Odd n)) := by
  simp only [Nat.odd_add, ← Nat.not_odd_iff_even]
  by_cases hm : Odd m <;> by_cases hn : Odd n <;> simp only [hm, hn] <;> rfl

namespace Screen

variable {w h : Nat} (hw : 0 < w) (hh : 0 < h)

/-- The column and the row of the pixel that a pair of coordinates wraps to. -/
def place (p : Int × Int) : Fin w × Fin h := (wrap hw p.1, wrap hh p.2)

/-- Within the screen nothing wraps. -/
theorem lit_natCast (s : Screen w h) {x y : Nat} (hx : x < w) (hy : y < h) :
    s.lit x y = s.rows[y][x] := by
  have hcolumn : wrap (Nat.zero_lt_of_lt hx) x = ⟨x, hx⟩ := by
    ext
    rw [val_wrap_natCast, Nat.mod_eq_of_lt hx]
  have hrow : wrap (Nat.zero_lt_of_lt hy) y = ⟨y, hy⟩ := by
    ext
    rw [val_wrap_natCast, Nat.mod_eq_of_lt hy]
  rw [lit, dif_pos ⟨Nat.zero_lt_of_lt hx, Nat.zero_lt_of_lt hy⟩, hcolumn, hrow]
  rfl

/-- Screens with the same pixels have the same rows. -/
theorem rows_eq_of_get_eq {s t : Screen w h} (hget : ∀ a b, s.get a b = t.get a b) :
    s.rows = t.rows := by
  have heq : { s with shouldDraw := t.shouldDraw, framesPresented := t.framesPresented } = t :=
    ext_get hget rfl rfl
  rw [← heq]

/-- A toggle inverts the pixel at its place. -/
theorem get_toggle (s : Screen w h) (p : Int × Int) (a : Fin w) (b : Fin h) :
    (s.toggle p.1 p.2).1.get a b = (s.get a b ^^ decide (place hw hh p = (a, b))) := by
  rw [toggle, dif_pos ⟨hw, hh⟩, get_flip]
  simp only [place, Prod.mk.injEq]

/-- A toggle reports whether its pixel was lit before. -/
theorem toggle_snd (s : Screen w h) (p : Int × Int) :
    (s.toggle p.1 p.2).2 = s.get (place hw hh p).1 (place hw hh p).2 := by
  rw [toggle, dif_pos ⟨hw, hh⟩]
  rfl

/-- After a row of toggles a pixel is inverted exactly if it was met an odd number of times. -/
theorem get_toggleAll (s : Screen w h) (ps : List (Int × Int)) (a : Fin w) (b : Fin h) :
    (s.toggleAll ps).1.get a b =
      (s.get a b ^^ decide (Odd ((ps.map (place hw hh)).count (a, b)))) := by
  induction ps generalizing s with
  | nil => simp [toggleAll]
  | cons p ps ih =>
    simp only [toggleAll]
    rw [ih, get_toggle hw hh, Bool.xor_assoc, List.map_cons, List.count_cons]
    by_cases hp : place hw hh p = (a, b)
    · simp only [hp, decide_true, Bool.true_xor, beq_self_eq_true, if_true, Nat.odd_add_one,
        decide_not]
    · simp [hp]

/-- Toggles of different pixels report whether these were lit before the first of them. -/
theorem toggleAll_snd_of_nodup (s : Screen w h) {ps : List (Int × Int)}
    (hps : (ps.map (place hw hh)).Nodup) :
    (s.toggleAll ps).2 = ps.map fun p => s.get (place hw hh p).1 (place hw hh p).2 := by
  induction ps generalizing s with
  | nil => rfl
  | cons p ps ih =>
    rw [List.map_cons, List.nodup_cons] at hps
    obtain ⟨hp, hrest⟩ := hps
    simp only [toggleAll, List.map_cons]
    rw [toggle_snd hw hh, ih _ hrest]
    congr 1
    apply List.map_congr_left
    intro q hq
    have hne : place hw hh p ≠ place hw hh q := by
      intro heq
      exact hp (heq ▸ List.mem_map_of_mem hq)
    rw [get_toggle hw hh]
    simp [hne]

/-- Toggles of different pixels invert these and no others. -/
theorem get_toggleAll_ne_iff (s : Screen w h) {ps : List (Int × Int)}
    (hps : (ps.map (place hw hh)).Nodup) (a : Fin w) (b : Fin h) :
    (s.toggleAll ps).1.get a b ≠ s.get a b ↔ (a, b) ∈ ps.map (place hw hh) := by
  rw [get_toggleAll hw hh, hps.count]
  by_cases hmem : (a, b) ∈ ps.map (place hw hh)
  · simp [hmem]
  · simp [hmem]

/-- Some toggle of different pixels reports a lit one just if one of them was lit. -/
theorem any_toggleAll_iff (s : Screen w h) {ps : List (Int × Int)}
    (hps : (ps.map (place hw hh)).Nodup) :
    (s.toggleAll ps).2.any id = true ↔
      ∃ a b, (a, b) ∈ ps.map (place hw hh) ∧ s.get a b = true := by
  rw [toggleAll_snd_of_nodup hw hh s hps, List.any_map, List.any_eq_true]
  constructor
  · rintro ⟨p, hp, hlit⟩
    exact ⟨_, _, List.mem_map_of_mem hp, hlit⟩
  · rintro ⟨a, b, hmem, hlit⟩
    obtain ⟨p, hp, hplace⟩ := List.mem_map.mp hmem
    refine ⟨p, hp, ?_⟩
    rw [Function.comp_apply, hplace]
    exact hlit

end Screen

end Chip8
