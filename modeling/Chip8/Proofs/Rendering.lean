import Chip8.Proofs.Shown
import Chip8.Proofs.Shutdown
import Chip8.Proofs.Toggling

/-!
# What is handed to the host

A picture is handed over as bytes, row after row and four to a pixel, so that a byte is found by
division (`Picture.getElem?_bytes`). In the picture of a screen a pixel of the screen is a square of
`Picture.scale` pixels, and the bottom row comes first (`Picture.getElem?_bytes_ofScreen`). A draw
of a screen that has changed hands over this picture, whatever image and canvas were before, and any
other draw shows the image that was handed over last (`Window.draw_renders_screen`).
-/

namespace Chip8

section Blocks

variable {α β : Type} {l : List α} {f : α → List β} {n : Nat}

/-- Blocks of one length, put one after the other. -/
theorem length_flatMap_of_length (hf : ∀ a ∈ l, (f a).length = n) :
    (l.flatMap f).length = n * l.length := by
  induction l with
  | nil => rfl
  | cons a l ih =>
    rw [List.flatMap_cons, List.length_append, hf a List.mem_cons_self,
      ih fun b hb => hf b (List.mem_cons_of_mem a hb), List.length_cons, Nat.mul_succ, Nat.add_comm]

/-- The element at a place within one of several blocks of one length. -/
theorem getElem?_flatMap_of_length (hf : ∀ a ∈ l, (f a).length = n) (i : Nat) {j : Nat}
    (hj : j < n) : (l.flatMap f)[n * i + j]? = l[i]?.bind fun a => (f a)[j]? := by
  induction l generalizing i with
  | nil => rfl
  | cons a l ih =>
    have hfirst : (f a).length = n := hf a List.mem_cons_self
    have hrest : ∀ b ∈ l, (f b).length = n := fun b hb => hf b (List.mem_cons_of_mem a hb)
    rw [List.flatMap_cons]
    cases i with
    | zero =>
      rw [Nat.mul_zero, Nat.zero_add, List.getElem?_append_left (by omega)]
      rfl
    | succ i =>
      have hindex : n * (i + 1) + j = n + (n * i + j) := by
        rw [Nat.mul_succ]
        omega
      rw [hindex, List.getElem?_append_right (by omega), hfirst, Nat.add_sub_cancel_left,
        ih hrest i, List.getElem?_cons_succ]

/-- The elements of a list, each repeated a number of times. -/
theorem getElem?_flatMap_replicate (g : α → β) (hn : 0 < n) (i : Nat) :
    (l.flatMap fun a => List.replicate n (g a))[i]? = l[i / n]?.map g := by
  have hlength : ∀ a ∈ l, (List.replicate n (g a)).length = n := fun a _ => List.length_replicate
  have hj : i % n < n := Nat.mod_lt i hn
  conv_lhs => rw [← Nat.div_add_mod i n]
  rw [getElem?_flatMap_of_length hlength _ hj]
  cases l[i / n]? with
  | none => rfl
  | some a => exact List.getElem?_replicate_of_lt hj

end Blocks

/-- The bytes of a pixel: three that tell whether it is lit, and full opacity. -/
theorem Colour.getElem?_bytes_ofPixel (lit : Bool) {k : Nat} (hk : k < 4) :
    (ofPixel lit).bytes[k]? = some (if k = 3 ∨ lit = true then 255 else 0) := by
  obtain rfl | rfl | rfl | rfl : k = 0 ∨ k = 1 ∨ k = 2 ∨ k = 3 := by omega
  all_goals cases lit <;> rfl

namespace Picture

/-- A row has four bytes to a pixel. -/
theorem length_rowBytes (row : List Colour) :
    (row.flatMap Colour.bytes).length = 4 * row.length :=
  length_flatMap_of_length fun _ _ => rfl

section OneLength

variable {p : Picture} {n : Nat} (hp : ∀ row ∈ p.rows, row.length = n)
include hp

/-- The number of bytes in a picture whose rows have one length. -/
theorem length_bytes : p.bytes.length = 4 * n * p.rows.length := by
  apply length_flatMap_of_length
  intro row hrow
  rw [length_rowBytes, hp row hrow]

/-- The bytes of a picture whose rows have one length. -/
theorem getElem?_bytes (r : Nat) {c k : Nat} (hc : c < n) (hk : k < 4) :
    p.bytes[4 * (n * r + c) + k]? =
      p.rows[r]?.bind fun row => row[c]?.bind fun colour => colour.bytes[k]? := by
  have hrow : ∀ row ∈ p.rows, (row.flatMap Colour.bytes).length = 4 * n := by
    intro row hmem
    rw [length_rowBytes, hp row hmem]
  have hindex : 4 * (n * r + c) + k = 4 * n * r + (4 * c + k) := by
    rw [Nat.mul_add, Nat.mul_assoc, Nat.add_assoc]
  rw [bytes, hindex, getElem?_flatMap_of_length hrow r (by omega)]
  congr 1
  funext row
  have hpixel : ∀ colour ∈ row, colour.bytes.length = 4 := fun _ _ => rfl
  exact getElem?_flatMap_of_length hpixel c hk

end OneLength

variable {w h : Nat} (s : Screen w h)

/-- Every row of the picture of a screen is as wide as the screen is, enlarged. -/
theorem length_of_mem_rows_ofScreen {row : List Colour} (hrow : row ∈ (ofScreen s).rows) :
    row.length = scale * w := by
  obtain ⟨pixels, hpixels, hmem⟩ := List.mem_flatMap.mp hrow
  obtain ⟨line, -, rfl⟩ := List.mem_map.mp (List.mem_reverse.mp hpixels)
  have henlarged : (ofRow line.toList).length = scale * line.toList.length :=
    length_flatMap_of_length fun _ _ => List.length_replicate
  rw [List.eq_of_mem_replicate hmem, henlarged, Vector.length_toList]

/-- The picture of a screen has as many rows as the screen, enlarged. -/
theorem length_rows_ofScreen : (ofScreen s).rows.length = scale * h := by
  have henlarged : (ofScreen s).rows.length = scale * s.toLists.reverse.length :=
    length_flatMap_of_length fun _ _ => List.length_replicate
  rw [henlarged, List.length_reverse, Screen.toLists, List.length_map, Vector.length_toList]

/-- The number of bytes in the picture of a screen. -/
theorem length_bytes_ofScreen : (ofScreen s).bytes.length = 4 * (scale * w) * (scale * h) := by
  rw [length_bytes fun _ => length_of_mem_rows_ofScreen s, length_rows_ofScreen]

/-- The bytes of the picture of a screen, the bottom row first. -/
theorem getElem?_bytes_ofScreen {r c k : Nat} (hr : r < scale * h) (hc : c < scale * w)
    (hk : k < 4) : (ofScreen s).bytes[4 * (scale * w * r + c) + k]? =
      some (if k = 3 ∨ s.lit (c / scale : Nat) (h - 1 - r / scale : Nat) = true
        then 255 else 0) := by
  have hx : c / scale < w := Nat.div_lt_of_lt_mul hc
  have hy : r / scale < h := Nat.div_lt_of_lt_mul hr
  have hflipped : h - 1 - r / scale < h :=
    Nat.lt_of_le_of_lt (Nat.sub_le ..) (Nat.sub_one_lt_of_lt hy)
  have hline : s.toLists.reverse[r / scale]? = some (s.rows[h - 1 - r / scale]).toList := by
    have hlength : s.toLists.length = h := (List.length_map _).trans s.rows.length_toList
    rw [List.getElem?_reverse (by rwa [hlength]), hlength, Screen.toLists, List.getElem?_map,
      Vector.getElem?_toList, Vector.getElem?_eq_getElem hflipped]
    rfl
  rw [getElem?_bytes (fun _ => length_of_mem_rows_ofScreen s) r hc hk, ofScreen,
    getElem?_flatMap_replicate ofRow (by decide), hline, Option.map_some, Option.bind_some, ofRow,
    getElem?_flatMap_replicate Colour.ofPixel (by decide), Vector.getElem?_toList,
    Vector.getElem?_eq_getElem hx, Option.map_some, Option.bind_some,
    Colour.getElem?_bytes_ofPixel _ hk, Screen.lit_natCast s hx hflipped]

end Picture

/-- The data of the image after a request. -/
def HostCall.imageAfter (image : Picture) : HostCall → Picture
  | .setImage _ picture => picture
  | _ => image

namespace Window

/-- Only a draw touches the image. -/
theorem image_handle_of_ne_draw (random : Nat → Int) (w : Window) {e : WindowEvent}
    (he : e ≠ .draw) : (w.handle random e).window.image = w.image := by
  cases e with
  | tick => exact image_tick random w
  | draw => exact absurd rfl he
  | keyDown k => cases k <;> rfl
  | keyUp k =>
    simp only [handle, keyUp]
    split <;> rfl
  | close | startTone | stopTone => rfl

/-- Only a draw hands over a picture. -/
theorem foldl_imageAfter_of_ne_draw (random : Nat → Int) (w : Window) {e : WindowEvent}
    (he : e ≠ .draw) (image : Picture) :
    (w.handle random e).calls.foldl HostCall.imageAfter image = image := by
  have hcalls : ∀ c ∈ (w.handle random e).calls, c.imageAfter image = image := by
    intro c hc
    obtain ⟨s, rfl⟩ | rfl | rfl | ⟨rfl, -⟩ := cases_of_mem_calls he hc <;> rfl
  generalize (w.handle random e).calls = calls at hcalls
  induction calls with
  | nil => rfl
  | cons c calls ih =>
    rw [List.foldl_cons, hcalls c List.mem_cons_self]
    exact ih fun d hd => hcalls d (List.mem_cons_of_mem c hd)

/-- After an event the image is the picture that it has handed over last, if any. -/
theorem image_handle (random : Nat → Int) (w : Window) (e : WindowEvent) :
    (w.handle random e).window.image =
      (w.handle random e).calls.foldl HostCall.imageAfter w.image := by
  by_cases he : e = .draw
  · subst he
    simp only [handle, draw]
    split <;> rfl
  · rw [image_handle_of_ne_draw random w he, foldl_imageAfter_of_ne_draw random w he]

/-- After a run the image is the picture that was handed over last. -/
theorem image_handleAll (random : Nat → Int) (w : Window) (events : List WindowEvent) :
    (w.handleAll random events).image =
      ((w.reactions random events).flatMap Reaction.calls).foldl HostCall.imageAfter w.image := by
  induction events generalizing w with
  | nil => rfl
  | cons e events ih =>
    rw [reactions, List.flatMap_cons, List.foldl_append, ← image_handle]
    exact ih (w.handle random e).window

/-- What a draw asks of the host, whatever image and canvas there were before. If the screen is
marked as changed, a picture is handed over, its bottom row first: each pixel of the screen is a
square of ten by ten, lit or dark in three bytes and opaque in the fourth. The mark is taken down,
and of the machine nothing else changes. Otherwise the image there is, which is the one that was
handed over last, is shown again. -/
theorem draw_renders_screen (w : Window) :
    let screen := w.machine.screen
    let r := w.draw
    (r.lines = [] ∧ r.error = none) ∧
    (screen.shouldDraw = true → ∃ picture,
      r.calls = [.clear, .setImage (640 * 4) picture, .showImage 0 0] ∧
      picture.bytes.length = 640 * 320 * 4 ∧
      (∀ R < 320, ∀ C < 640, ∀ k < 4, picture.bytes[4 * (640 * R + C) + k]? =
        some (if k = 3 ∨ screen.lit (C / 10 : Nat) (31 - R / 10 : Nat) = true then 255 else 0)) ∧
      r.window = { w with
        canvas := r.window.canvas, image := picture, machine.screen.shouldDraw := false }) ∧
    (screen.shouldDraw = false → r.calls = [.clear, .showImage 0 0] ∧ r.window = w) ∧
    ∀ random events, (w.handleAll random events).image =
      ((w.reactions random events).flatMap Reaction.calls).foldl HostCall.imageAfter w.image := by
  intro screen r
  refine ⟨?_, fun hmark => ?_, fun hmark => ?_, fun random => image_handleAll random w⟩
  · simp only [r, draw]
    split <;> exact ⟨rfl, rfl⟩
  · have hdraw : r = _ := if_pos hmark
    refine ⟨.ofScreen screen, ?_, Picture.length_bytes_ofScreen screen, ?_, ?_⟩
    · rw [hdraw, ← w.canvas.picture_paint]
      rfl
    · intro R hR C hC k hk
      exact Picture.getElem?_bytes_ofScreen screen hR hC hk
    · rw [hdraw, ← w.canvas.picture_paint]
      rfl
  · have hdraw : r = _ := if_neg (Bool.eq_false_iff.mp hmark)
    rw [hdraw]
    exact ⟨rfl, rfl⟩

/-- A sprite is shown and then taken away again: the canvas still holds it when the next picture is
drawn, in which its place is dark. -/
theorem draw_renders_screen_over_earlier_sprite :
    let random : Nat → Int := fun _ => 0
    let p : Program := ⟨[0xD0, 0x05, 0xD0, 0x05], by decide, by decide⟩
    let w := (fresh p 1 false).handleAll random [.tick, .draw, .tick]
    w.canvas.rows[31][0] = .ofPixel true ∧ w.machine.screen.shouldDraw = true ∧
      ∃ picture, w.draw.calls = [.clear, .setImage (640 * 4) picture, .showImage 0 0] ∧
        picture.bytes[4 * (640 * 319 + 9)]? = some 0 := by
  intro random p w
  obtain ⟨hcanvas, hmark, hdark⟩ : w.canvas.rows[31][0] = .ofPixel true ∧
      w.machine.screen.shouldDraw = true ∧ w.machine.screen.lit 0 0 = false := by
    decide +kernel
  obtain ⟨-, hdraw, -⟩ := draw_renders_screen w
  obtain ⟨picture, hcalls, -, hbytes, -⟩ := hdraw hmark
  have hbyte := hbytes 319 (by decide) 9 (by decide) 0 (by decide)
  rw [if_neg] at hbyte
  · exact ⟨hcanvas, hmark, picture, hcalls, hbyte⟩
  · rintro (hthree | hlit)
    · cases hthree
    · exact absurd (hdark.symm.trans hlit) (by decide)

end Window

end Chip8
