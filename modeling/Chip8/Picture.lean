import Chip8.Screen
import Chip8.Word

/-!
# Pictures

A picture is a grid of coloured pixels with its bottom row first. The picture of a screen shows
each of its pixels as a square of ten by ten, white if lit and black if dark. As bytes, a picture
is its pixels row by row, four bytes each.
-/

namespace Chip8

/-- A colour: three components and the opacity. -/
structure Colour where
  red : Byte
  green : Byte
  blue : Byte
  alpha : Byte
  deriving DecidableEq, Repr

namespace Colour

/-- No colour at all. -/
def transparent : Colour := ⟨0, 0, 0, 0⟩

/-- The colour of a pixel: opaque white if it is lit, opaque black if it is dark. -/
def ofPixel (lit : Bool) : Colour :=
  let level : Byte := if lit then 255 else 0
  ⟨level, level, level, 255⟩

/-- The components in the order in which they are stored. -/
def bytes (c : Colour) : List Byte := [c.red, c.green, c.blue, c.alpha]

end Colour

/-- Rows of colours from the bottom up, each from left to right. -/
structure Picture where
  rows : List (List Colour)
  deriving DecidableEq, Repr

namespace Picture

/-- How many picture pixels a screen pixel is wide and high. -/
def scale : Nat := 10

/-- A transparent picture. -/
def blank (width height : Nat) : Picture :=
  ⟨List.replicate height (List.replicate width .transparent)⟩

/-- A row of screen pixels, each drawn `scale` pixels wide. -/
def ofRow (row : List Bool) : List Colour :=
  row.flatMap fun lit => List.replicate scale (Colour.ofPixel lit)

/-- The picture of a screen. -/
def ofScreen {w h : Nat} (s : Screen w h) : Picture :=
  ⟨s.toLists.reverse.flatMap fun row => List.replicate scale (ofRow row)⟩

/-- The picture as bytes. -/
def bytes (p : Picture) : List Byte := p.rows.flatMap fun row => row.flatMap Colour.bytes

end Picture

/-! ## The canvas

The pixels of a screen are painted on a canvas of the same size, the bottom row first, and the
canvas is enlarged to a picture. One canvas serves for all pictures of a window: painting replaces
the components of every colour and keeps its opacity, which is full from the start. So what was on
the canvas before does not show in the next picture (`Canvas.picture_paint`). -/

/-- The colour with its three components at the same level and its own opacity. -/
def Colour.withLevel (c : Colour) (level : Byte) : Colour :=
  { c with red := level, green := level, blue := level }

/-- The components decide the colour of an opaque pixel. -/
theorem Colour.withLevel_eq_ofPixel {c : Colour} (hc : c.alpha = 255) (lit : Bool) :
    c.withLevel (if lit then 255 else 0) = ofPixel lit := by
  rw [withLevel, hc]
  rfl

/-- A canvas of `w` by `h` opaque colours. -/
structure Canvas (w h : Nat) where
  /-- The rows from the bottom up, each from left to right. -/
  rows : Vector (Vector Colour w) h
  solid : ∀ y (hy : y < h) x (hx : x < w), rows[y][x].alpha = 255
  deriving DecidableEq

namespace Canvas

variable {w h : Nat}

/-- A black canvas. -/
def black (w h : Nat) : Canvas w h where
  rows := Vector.replicate h (Vector.replicate w (.ofPixel false))
  solid y hy x hx := by
    rw [Vector.getElem_replicate, Vector.getElem_replicate]
    rfl

/-- The canvas with the pixels of a screen painted over it. -/
def paint (c : Canvas w h) (s : Screen w h) : Canvas w h where
  rows := c.rows.zipWith
    (fun row pixels =>
      row.zipWith (fun colour lit => colour.withLevel (if lit then 255 else 0)) pixels)
    s.rows.reverse
  solid y hy x hx := by
    rw [Vector.getElem_zipWith, Vector.getElem_zipWith]
    exact c.solid y hy x hx

/-- The picture of a canvas: every row is repeated `Picture.scale` times, and then every colour in
its row. -/
def picture (c : Canvas w h) : Picture where
  rows := (c.rows.toList.flatMap (List.replicate Picture.scale)).map fun row =>
    row.toList.flatMap (List.replicate Picture.scale)

/-- Paint covers whatever the canvas has held before. -/
theorem rows_paint (c : Canvas w h) (s : Screen w h) :
    (c.paint s).rows = s.rows.reverse.map (Vector.map Colour.ofPixel) := by
  apply Vector.ext
  intro y hy
  apply Vector.ext
  intro x hx
  rw [paint, Vector.getElem_zipWith, Vector.getElem_zipWith, Vector.getElem_map, Vector.getElem_map]
  exact Colour.withLevel_eq_ofPixel (c.solid y hy x hx) _

/-- The picture of a painted canvas is that of the screen. -/
theorem picture_paint (c : Canvas w h) (s : Screen w h) :
    (c.paint s).picture = .ofScreen s := by
  rw [picture, rows_paint, Picture.ofScreen, Screen.toLists]
  simp only [Vector.toList_map, Vector.toList_reverse, List.flatMap_map, List.map_flatMap,
    List.map_replicate, ← List.map_reverse, Picture.ofRow]

end Canvas

end Chip8
