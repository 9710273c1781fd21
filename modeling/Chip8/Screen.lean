import Chip8.Error
import Chip8.Word

/-!
# The screen

A grid of pixels that are lit or dark. Coordinates are integers that wrap around at the edges.
Toggling a pixel twice leaves the grid as it was, and a toggle tells whether the pixel went dark.
Presenting counts a frame and marks the screen as changed for whoever shows it.
-/

namespace Chip8

/-- A screen of `w` by `h` pixels. -/
structure Screen (w h : Nat) where
  /-- The rows from the top down, each from left to right. -/
  rows : Vector (Vector Bool w) h
  /-- The picture that is shown is out of date. -/
  shouldDraw : Bool
  /-- How often the screen was presented. -/
  framesPresented : Nat
  deriving DecidableEq

/-- The place below `n` that an integer coordinate wraps to. -/
def wrap {n : Nat} (hn : 0 < n) (i : Int) : Fin n :=
  ⟨(i % n).toNat, by have := Int.emod_nonneg i (b := n) (by omega)
                     have := Int.emod_lt_of_pos i (b := n) (by omega)
                     omega⟩

namespace Screen

variable {w h : Nat}

/-- A dark screen, not yet shown. -/
def dark (w h : Nat) : Screen w h :=
  ⟨Vector.replicate h (Vector.replicate w false), true, 0⟩

/-- A dark screen of the given width and height, which must not be negative. -/
def ofSize (width height : Int) : Except Error (Screen width.toNat height.toNat) :=
  if width < 0 ∨ height < 0 then .error (.badValue .negativeSize) else .ok (dark _ _)

/-- The screen has a pixel to draw on. -/
def hasPixels (_ : Screen w h) : Bool := 0 < w && 0 < h

/-- Whether the pixel in column `x` of row `y` is lit. -/
def get (s : Screen w h) (x : Fin w) (y : Fin h) : Bool := (s.rows.get y).get x

/-- The screen with the pixel in column `x` of row `y` inverted. -/
def flip (s : Screen w h) (x : Fin w) (y : Fin h) : Screen w h :=
  { s with rows := s.rows.set y ((s.rows.get y).set x (!s.get x y) x.isLt) y.isLt }

/-- Whether the pixel at a pair of coordinates is lit; a screen without pixels is dark. -/
def lit (s : Screen w h) (x y : Int) : Bool :=
  if hs : 0 < w ∧ 0 < h then s.get (wrap hs.1 x) (wrap hs.2 y) else false

/-- Inverts the pixel at a pair of coordinates and tells whether it is dark now; a screen without
pixels stays as it is. -/
def toggle (s : Screen w h) (x y : Int) : Screen w h × Bool :=
  if hs : 0 < w ∧ 0 < h then
    (s.flip (wrap hs.1 x) (wrap hs.2 y), s.get (wrap hs.1 x) (wrap hs.2 y))
  else (s, false)

/-- Reads a pixel, or says that there is none. -/
def lit? (s : Screen w h) (x y : Int) : Except Error Bool :=
  if s.hasPixels then .ok (s.lit x y) else .error .noPixels

/-- Toggles a pixel, or says that there is none. -/
def toggle? (s : Screen w h) (x y : Int) : Except Error (Screen w h × Bool) :=
  if s.hasPixels then .ok (s.toggle x y) else .error .noPixels

/-- Toggles the pixels at a list of coordinates in order; for each, whether it went dark. -/
def toggleAll (s : Screen w h) : List (Int × Int) → Screen w h × List Bool
  | [] => (s, [])
  | p :: ps =>
    let first := s.toggle p.1 p.2
    let rest := first.1.toggleAll ps
    (rest.1, first.2 :: rest.2)

/-- The screen with all pixels dark. -/
def clear (s : Screen w h) : Screen w h :=
  { s with rows := Vector.replicate h (Vector.replicate w false) }

/-- Counts a frame and marks the screen as changed. -/
def present (s : Screen w h) : Screen w h :=
  { s with shouldDraw := true, framesPresented := s.framesPresented + 1 }

/-- Notes that the current picture has been shown. -/
def drawn (s : Screen w h) : Screen w h := { s with shouldDraw := false }

/-- The rows as lists. -/
def toLists (s : Screen w h) : List (List Bool) := s.rows.toList.map Vector.toList

/-- The number of lit pixels. -/
def litCount (s : Screen w h) : Nat := s.toLists.flatten.count true

theorem get_flip (s : Screen w h) (x a : Fin w) (y b : Fin h) :
    (s.flip x y).get a b = ((s.get a b) ^^ decide (x = a ∧ y = b)) := by
  have hrow : (s.flip x y).rows.get b
      = if y = b then (s.rows.get y).set x (!s.get x y) x.isLt else s.rows.get b := by
    simp only [flip, Fin.ext_iff]
    exact Vector.getElem_set y.isLt b.isLt
  rw [get, hrow]
  by_cases hy : y = b
  · subst hy
    have hcell : ((s.rows.get y).set x (!s.get x y) x.isLt).get a
        = if x = a then !s.get x y else s.get a y := by
      simp only [get, Fin.ext_iff]
      exact Vector.getElem_set x.isLt a.isLt
    rw [if_pos rfl, hcell]
    by_cases hx : x = a
    · subst hx; simp
    · simp [hx]
  · simp [hy, get]

/-- A screen is determined by its pixels, its mark and its frame count. -/
theorem ext_get {s t : Screen w h} (hrows : ∀ x y, s.get x y = t.get x y)
    (hdraw : s.shouldDraw = t.shouldDraw) (hframes : s.framesPresented = t.framesPresented) :
    s = t := by
  obtain ⟨rows, draw, frames⟩ := s
  obtain ⟨rows', draw', frames'⟩ := t
  cases hdraw
  cases hframes
  congr 1
  apply Vector.ext
  intro y hy
  apply Vector.ext
  intro x hx
  exact hrows ⟨x, hx⟩ ⟨y, hy⟩

/-- Inverting a pixel twice changes nothing. -/
@[simp] theorem flip_flip (s : Screen w h) (x : Fin w) (y : Fin h) :
    (s.flip x y).flip x y = s := by
  refine ext_get (fun a b => ?_) rfl rfl
  simp only [get_flip]
  cases s.get a b <;> cases decide (x = a ∧ y = b) <;> rfl

@[simp] theorem get_clear (s : Screen w h) (x : Fin w) (y : Fin h) : s.clear.get x y = false := by
  simp [get, clear, Vector.get]

@[simp] theorem get_dark (x : Fin w) (y : Fin h) : (dark w h).get x y = false := by
  simp [get, dark, Vector.get]

@[simp] theorem get_present (s : Screen w h) (x : Fin w) (y : Fin h) :
    s.present.get x y = s.get x y := rfl

@[simp] theorem get_drawn (s : Screen w h) (x : Fin w) (y : Fin h) :
    s.drawn.get x y = s.get x y := rfl

end Screen

/-! ## Sprites

A sprite is a column of up to fifteen bytes, each a row of eight pixels with the leftmost in the
highest bit. Drawing one toggles the pixels of its set bits, row by row and from left to right,
at coordinates that wrap around a screen of standard size. -/

/-- The width of a standard screen. -/
def screenWidth : Nat := 64

/-- The height of a standard screen. -/
def screenHeight : Nat := 32

namespace Sprite

/-- The columns of the set bits of a row, from left to right. -/
def columns (row : Byte) : List Nat := (List.range 8).filter fun c => row.getMsbD c

/-- The coordinates that a sprite toggles when its corner is at (`px`, `py`). -/
def points (px py : Byte) (rows : List Byte) : List (Int × Int) :=
  rows.zipIdx.flatMap fun (row, r) =>
    (columns row).map fun c =>
      (((px.toNat + c) % screenWidth : Nat), ((py.toNat + r) % screenHeight : Nat))

end Sprite

end Chip8
