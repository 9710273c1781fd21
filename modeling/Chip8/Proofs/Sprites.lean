import Chip8.Proofs.Toggling
import Mathlib.Data.Finset.Card
import Mathlib.Data.Finset.Prod
import Mathlib.Data.List.Nodup

/-!
# The pixels of a sprite

The points of a sprite are those of its set bits (`Sprite.points_eq_map_bits`), each bit being met
once (`Sprite.nodup_bits`). So a pixel of any screen is met as often as there are set bits that fall
on it, after their coordinates have wrapped around a standard screen and then around this one
(`PlacedSprite.count_place_points`). On a standard screen no two bits fall on the same pixel
(`PlacedSprite.nodup_place_points`).
-/

namespace Chip8

/-- The bit that a mask of one bit selects. -/
theorem Byte.and_mask_ne_zero_iff (b : Byte) (c : Nat) :
    b &&& (0x80#8 >>> c) ≠ 0 ↔ b.getMsbD c = true := by
  rw [BitVec.getMsbD_eq_getLsbD]
  by_cases hc : c < 8
  · have hmask : ∀ k < 8, 0x80#8 >>> k = BitVec.twoPow 8 (7 - k) ∧
        BitVec.twoPow 8 (7 - k) ≠ 0#8 := by decide
    obtain ⟨heq, hpos⟩ := hmask c hc
    rw [heq, BitVec.and_twoPow]
    cases b.getLsbD (7 - c) <;> simp [hc, hpos]
  · have hmask : 0x80#8 >>> c = 0 := BitVec.ushiftRight_eq_zero (by omega)
    simp [hmask, hc]

namespace Sprite

/-- The set bits of a sprite by row and column, in the order in which they are drawn. -/
def bits (rows : List Byte) : List (Nat × Nat) :=
  rows.zipIdx.flatMap fun (row, r) => (columns row).map fun c => (r, c)

/-- The set bits of a sprite by row and column: column `c` of a row is the bit `0x80 >> c`. -/
def setBits (rows : List Byte) : Finset (Nat × Nat) :=
  (Finset.range rows.length ×ˢ Finset.range 8).filter fun p =>
    rows.getD p.1 0 &&& (0x80#8 >>> p.2) ≠ 0

/-- The points of a sprite are those of its set bits. -/
theorem points_eq_map_bits (px py : Byte) (rows : List Byte) :
    points px py rows = (bits rows).map fun p =>
      ((((px.toNat + p.2) % screenWidth : Nat) : Int),
        (((py.toNat + p.1) % screenHeight : Nat) : Int)) := by
  simp only [points, bits, List.map_flatMap, List.map_map]
  rfl

theorem mem_columns {row : Byte} {c : Nat} : c ∈ columns row ↔ row.getMsbD c = true := by
  simp only [columns, List.mem_filter, List.mem_range, and_iff_right_iff_imp]
  exact BitVec.lt_of_getMsbD

theorem mem_bits {rows : List Byte} {r c : Nat} :
    (r, c) ∈ bits rows ↔ ∃ row, rows[r]? = some row ∧ row.getMsbD c = true := by
  simp only [bits, List.mem_flatMap, List.mem_map, List.mem_zipIdx_iff_getElem?, mem_columns]
  constructor
  · rintro ⟨⟨row, _⟩, hrow, _, hc, heq⟩
    obtain ⟨rfl, rfl⟩ := Prod.mk.inj heq
    exact ⟨row, hrow, hc⟩
  · rintro ⟨row, hrow, hc⟩
    exact ⟨(row, r), hrow, c, hc, rfl⟩

/-- No bit is drawn twice. -/
theorem nodup_bits (rows : List Byte) : (bits rows).Nodup := by
  rw [bits, List.nodup_flatMap]
  constructor
  · rintro ⟨row, r⟩ -
    exact (List.nodup_range.filter _).map fun c d heq => (Prod.mk.inj heq).2
  · have hrows : rows.zipIdx.Pairwise fun p q => p.2 ≠ q.2 := by
      apply List.pairwise_map.mp
      rw [List.zipIdx_map_snd]
      exact List.nodup_range'
    refine hrows.imp fun {p q} hne => ?_
    intro bit hp hq
    obtain ⟨_, -, rfl⟩ := List.mem_map.mp hp
    obtain ⟨_, -, heq⟩ := List.mem_map.mp hq
    exact hne (Prod.mk.inj heq).1.symm

theorem toFinset_bits (rows : List Byte) : (bits rows).toFinset = setBits rows := by
  ext ⟨r, c⟩
  simp only [List.mem_toFinset, mem_bits, setBits, Finset.mem_filter, Finset.mem_product,
    Finset.mem_range, Byte.and_mask_ne_zero_iff]
  constructor
  · rintro ⟨row, hrow, hc⟩
    have hlt : r < rows.length := (List.getElem?_eq_some_iff.mp hrow).1
    rw [List.getD_eq_getElem?_getD, hrow]
    exact ⟨⟨hlt, BitVec.lt_of_getMsbD hc⟩, hc⟩
  · rintro ⟨⟨hlt, -⟩, hc⟩
    rw [List.getD_eq_getElem?_getD, List.getElem?_eq_getElem hlt] at hc
    exact ⟨rows[r], List.getElem?_eq_getElem hlt, hc⟩

end Sprite

/-- A sprite with the coordinates of its corner. -/
structure PlacedSprite where
  px : Byte
  py : Byte
  rows : List Byte
  deriving DecidableEq

namespace PlacedSprite

/-- The coordinates that drawing a sprite toggles. -/
def points (s : PlacedSprite) : List (Int × Int) := Sprite.points s.px s.py s.rows

/-- How many set bits of a sprite fall on the pixel in column `a` of row `b` of a screen of `w` by
`h` pixels. -/
def hits (s : PlacedSprite) (w h a b : Nat) : Nat :=
  ((Sprite.setBits s.rows).filter fun p =>
    (s.px.toNat + p.2) % 64 % w = a ∧ (s.py.toNat + p.1) % 32 % h = b).card

/-- How many set bits of several sprites fall on a pixel. -/
def totalHits (w h a b : Nat) : List PlacedSprite → Nat
  | [] => 0
  | s :: ss => s.hits w h a b + totalHits w h a b ss

theorem totalHits_append (w h a b : Nat) (ss ts : List PlacedSprite) :
    totalHits w h a b (ss ++ ts) = totalHits w h a b ss + totalHits w h a b ts := by
  induction ss with
  | nil => exact (Nat.zero_add _).symm
  | cons s ss ih =>
    simp only [List.cons_append, totalHits]
    omega

/-- The order of sprites does not matter to the number of bits that fall on a pixel. -/
theorem totalHits_perm (w h a b : Nat) {ss ts : List PlacedSprite} (hperm : ss.Perm ts) :
    totalHits w h a b ss = totalHits w h a b ts := by
  induction hperm with
  | nil => rfl
  | cons s _ ih =>
    simp only [totalHits]
    omega
  | swap s t ss =>
    simp only [totalHits]
    omega
  | trans _ _ ih₁ ih₂ => exact ih₁.trans ih₂

variable {w h : Nat} (hw : 0 < w) (hh : 0 < h) (s : PlacedSprite)

/-- The pixel that a bit falls on. -/
theorem place_eq_iff {p : Nat × Nat} {a : Fin w} {b : Fin h} :
    Screen.place hw hh (((s.px.toNat + p.2) % screenWidth : Nat),
        ((s.py.toNat + p.1) % screenHeight : Nat)) = (a, b) ↔
      (s.px.toNat + p.2) % 64 % w = a ∧ (s.py.toNat + p.1) % 32 % h = b := by
  rw [Screen.place, Prod.mk.injEq, Fin.ext_iff, Fin.ext_iff, val_wrap_natCast, val_wrap_natCast]
  rfl

/-- Drawing a sprite meets a pixel once for each set bit that falls on it. -/
theorem count_place_points (a : Fin w) (b : Fin h) :
    (s.points.map (Screen.place hw hh)).count (a, b) = s.hits w h a b := by
  have hfinset : (Sprite.setBits s.rows).filter (fun p =>
      (s.px.toNat + p.2) % 64 % w = a ∧ (s.py.toNat + p.1) % 32 % h = b) =
      ((Sprite.bits s.rows).filter fun p => decide
        ((s.px.toNat + p.2) % 64 % w = a ∧ (s.py.toNat + p.1) % 32 % h = b)).toFinset := by
    rw [← Sprite.toFinset_bits]
    ext p
    simp only [Finset.mem_filter, List.mem_toFinset, List.mem_filter, decide_eq_true_eq]
  rw [points, Sprite.points_eq_map_bits, List.map_map, List.count, List.countP_map,
    List.countP_eq_length_filter, hits, hfinset,
    List.toFinset_card_of_nodup ((Sprite.nodup_bits _).filter _)]
  congr 1
  apply List.filter_congr
  intro p _
  rw [Function.comp_apply, Function.comp_apply, beq_eq_decide, decide_eq_decide]
  exact s.place_eq_iff hw hh

/-- A pixel is met just if some set bit falls on it. -/
theorem mem_place_points_iff {a : Fin w} {b : Fin h} :
    (a, b) ∈ s.points.map (Screen.place hw hh) ↔ ∃ r c, (r, c) ∈ Sprite.bits s.rows ∧
      (s.px.toNat + c) % 64 % w = a ∧ (s.py.toNat + r) % 32 % h = b := by
  rw [points, Sprite.points_eq_map_bits, List.map_map, List.mem_map]
  constructor
  · rintro ⟨⟨r, c⟩, hbit, hplace⟩
    exact ⟨r, c, hbit, (s.place_eq_iff hw hh).mp hplace⟩
  · rintro ⟨r, c, hbit, hfall⟩
    exact ⟨(r, c), hbit, (s.place_eq_iff hw hh).mpr hfall⟩

/-- On a standard screen no pixel is met twice: a sprite is narrower and lower than the screen. -/
theorem nodup_place_points (hs : s.rows.length ≤ 32) :
    (s.points.map (Screen.place (w := 64) (h := 32) (by decide) (by decide))).Nodup := by
  rw [points, Sprite.points_eq_map_bits, List.map_map]
  apply List.Nodup.map_on _ (Sprite.nodup_bits s.rows)
  rintro ⟨r, c⟩ hp ⟨r', c'⟩ hq heq
  obtain ⟨hcolumn, hrow⟩ := (s.place_eq_iff _ _).mp heq
  simp only [val_wrap_natCast, screenWidth, screenHeight] at hcolumn hrow
  have hbounds : ∀ {r c}, (r, c) ∈ Sprite.bits s.rows → r < 32 ∧ c < 8 := by
    intro r c hbit
    obtain ⟨row, hrow, hc⟩ := Sprite.mem_bits.mp hbit
    have hlt := (List.getElem?_eq_some_iff.mp hrow).1
    exact ⟨Nat.lt_of_lt_of_le hlt hs, BitVec.lt_of_getMsbD hc⟩
  have hp := hbounds hp
  have hq := hbounds hq
  have hc : c = c' := by omega
  have hr : r = r' := by omega
  rw [hr, hc]

end PlacedSprite

end Chip8
