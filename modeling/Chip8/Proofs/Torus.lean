import Chip8.Bench
import Chip8.Proofs.Toggling
import Mathlib.Algebra.BigOperators.Fin
import Mathlib.Data.List.DropRight
import Mathlib.Data.List.Induction

/-!
# The screen as a torus

A screen keeps the parity of what was done to it: after any commands that do not run the machine a
pixel is lit exactly if an odd number of the toggles since the last clearing were of it, where
coordinates that differ by a multiple of the width or of the height mean the same pixel. Each toggle
that reports a dark pixel takes one from the lit cells and each other one adds one. So the pixels do
not depend on the order of the toggles (`Machine.screen_is_parity_torus`).
-/

namespace Chip8

/-- Coordinates wrap to the same place just if they have the same remainder. -/
theorem wrap_eq_wrap_iff {n : Nat} (hn : 0 < n) (i j : Int) :
    wrap hn i = wrap hn j ↔ i % n = j % n := by
  have hi := Int.emod_nonneg i (b := n) (by omega)
  have hj := Int.emod_nonneg j (b := n) (by omega)
  rw [Fin.ext_iff]
  simp only [wrap]
  omega

/-- How many of a list of coordinates mean the pixel at `x` and `y`. -/
def hits (w h : Nat) (ps : List (Int × Int)) (x y : Int) : Nat :=
  ps.countP fun p => p.1 % w = x % w ∧ p.2 % h = y % h

/-- The number of true values at the indices of a row. -/
theorem count_true_ofFn {n : Nat} (f : Fin n → Bool) :
    (List.ofFn f).count true = (Finset.univ.filter fun i => f i = true).card := by
  rw [← Multiset.coe_count, ← Fin.univ_val_map, Multiset.count_map]
  simp only [eq_comm (a := true)]
  rfl

/-- A vector as the list of its values. -/
theorem toList_eq_ofFn {α : Type} {n : Nat} (v : Vector α n) : v.toList = List.ofFn v.get := by
  apply List.ext_getElem (by simp)
  intro i hi hn
  simp [Vector.get]

namespace Screen

variable {w h : Nat}

/-- A screen that has just been made is dark. -/
theorem ofSize_natCast (w h : Nat) : ofSize w h = .ok (dark w h) := by
  have hsize : ¬ ((w : Int) < 0 ∨ (h : Int) < 0) := by omega
  rw [ofSize, if_neg hsize]
  rfl

/-- The places of the lit pixels. -/
def litCells (s : Screen w h) : Finset (Fin w × Fin h) :=
  Finset.univ.filter fun p => s.get p.1 p.2 = true

theorem mem_litCells (s : Screen w h) (p : Fin w × Fin h) :
    p ∈ s.litCells ↔ s.get p.1 p.2 = true := by
  simp [litCells]

/-- The lit pixels are counted cell by cell. -/
theorem litCount_eq_card (s : Screen w h) : s.litCount = s.litCells.card := by
  have hrow : ∀ y, (s.rows.get y).toList.count true =
      (Finset.univ.filter fun x => s.get x y = true).card := by
    intro y
    rw [toList_eq_ofFn, count_true_ofFn]
    rfl
  calc s.litCount
      = (List.ofFn fun y => (s.rows.get y).toList.count true).sum := by
        rw [litCount, toLists, List.count_flatten, List.map_map, toList_eq_ofFn, List.map_ofFn]
        rfl
    _ = ∑ y, (Finset.univ.filter fun x => s.get x y = true).card := by
        rw [List.sum_ofFn]
        simp only [hrow]
    _ = s.litCells.card := by
        rw [litCells, Finset.card_filter, Fintype.sum_prod_type_right]
        simp only [Finset.card_filter]

variable (hw : 0 < w) (hh : 0 < h)

/-- The pixel at a pair of coordinates is that of their place. -/
theorem lit_eq_get (s : Screen w h) (x y : Int) :
    s.lit x y = s.get (place hw hh (x, y)).1 (place hw hh (x, y)).2 := by
  rw [lit, dif_pos ⟨hw, hh⟩]
  rfl

include hw hh in
/-- A toggle reports a pixel that is dark now. -/
theorem lit_toggle_self (s : Screen w h) (x y : Int) :
    (s.toggle x y).1.lit x y = !(s.toggle x y).2 := by
  have hsnd := toggle_snd hw hh s (x, y)
  rw [lit_eq_get hw hh, get_toggle hw hh s (x, y), hsnd, decide_eq_true rfl, Bool.xor_true]

/-- A pixel is met by those coordinates that mean it. -/
theorem count_place_eq_hits (ps : List (Int × Int)) (x y : Int) :
    (ps.map (place hw hh)).count (place hw hh (x, y)) = hits w h ps x y := by
  rw [List.count, List.countP_map, hits]
  apply List.countP_congr
  intro p _
  simp [place, wrap_eq_wrap_iff]

/-- A toggle of a dark pixel adds it to the lit ones, and one of a lit pixel takes it away. -/
theorem litCells_toggle (s : Screen w h) (p : Int × Int) :
    (s.toggle p.1 p.2).1.litCells =
      if (s.toggle p.1 p.2).2 then s.litCells.erase (place hw hh p)
      else insert (place hw hh p) s.litCells := by
  ext c
  rw [mem_litCells, get_toggle hw hh, toggle_snd hw hh]
  by_cases hp : place hw hh p = c
  · subst hp
    cases hget : s.get (place hw hh p).1 (place hw hh p).2 <;> simp
  · have hc : c ≠ place hw hh p := fun h => hp h.symm
    split <;> simp [hp, hc, mem_litCells]

include hw hh in
/-- The count of the lit pixels goes with what a toggle reports. -/
theorem litCount_toggle (s : Screen w h) (p : Int × Int) :
    ((s.toggle p.1 p.2).1.litCount : Int) =
      s.litCount + if (s.toggle p.1 p.2).2 then -1 else 1 := by
  have hmem : place hw hh p ∈ s.litCells ↔ (s.toggle p.1 p.2).2 = true := by
    rw [mem_litCells, toggle_snd hw hh]
  rw [litCount_eq_card, litCount_eq_card, litCells_toggle hw hh]
  split
  · rename_i hoff
    have hcell := hmem.mpr hoff
    have hpos := Finset.card_pos.mpr ⟨_, hcell⟩
    rw [Finset.card_erase_of_mem hcell]
    omega
  · rename_i hoff
    rw [Finset.card_insert_of_notMem (hmem.not.mpr hoff)]
    rfl

/-- The screen shows the parity of these toggles, whose reports were these. -/
structure Parity (s : Screen w h) (toggles : List (Int × Int)) (reports : List Bool) : Prop where
  get_eq : ∀ a b, s.get a b = decide (Odd ((toggles.map (place hw hh)).count (a, b)))
  litCount_eq : (s.litCount : Int) = reports.count false - reports.count true

namespace Parity

variable {hw hh} {s : Screen w h} {toggles : List (Int × Int)} {reports : List Bool}

/-- A screen without lit pixels shows no toggles. -/
theorem of_dark (hdark : ∀ a b, s.get a b = false) : Parity hw hh s [] [] where
  get_eq a b := by
    rw [hdark]
    rfl
  litCount_eq := by
    have hempty : s.litCells = ∅ := by
      ext c
      simp [mem_litCells, hdark]
    rw [litCount_eq_card, hempty]
    rfl

/-- One more toggle. -/
theorem toggle (hs : Parity hw hh s toggles reports) (p : Int × Int) :
    Parity hw hh (s.toggle p.1 p.2).1 (toggles ++ [p]) (reports ++ [(s.toggle p.1 p.2).2]) where
  get_eq a b := by
    rw [get_toggle hw hh, hs.get_eq, List.map_append, List.count_append, decide_odd_add]
    congr 1
    by_cases hp : place hw hh p = (a, b) <;> simp [hp]
  litCount_eq := by
    rw [litCount_toggle hw hh, hs.litCount_eq]
    cases (s.toggle p.1 p.2).2 <;> simp <;> omega

/-- Only the pixels count. -/
theorem congr (hs : Parity hw hh s toggles reports) {t : Screen w h} (hrows : t.rows = s.rows) :
    Parity hw hh t toggles reports where
  get_eq a b := by
    rw [get, hrows]
    exact hs.get_eq a b
  litCount_eq := by
    rw [litCount, toLists, hrows]
    exact hs.litCount_eq

/-- A pixel is lit exactly if the toggles of it are odd in number. -/
theorem lit_eq (hs : Parity hw hh s toggles reports) (x y : Int) :
    s.lit x y = decide (Odd (hits w h toggles x y)) := by
  rw [lit_eq_get hw hh, hs.get_eq, Prod.mk.eta, count_place_eq_hits]

end Parity

end Screen

/-- The command operates the machine. -/
def Command.isOperation : Command → Bool
  | operate _ => true
  | _ => false

/-- The coordinates of the pixel that the command toggles. -/
def Command.toggled? : Command → Option (Int × Int)
  | togglePixel x y => some (x, y)
  | _ => none

/-- What a reply to a toggle reports. -/
def report? {w h : Nat} {τ : Type} : Command × Outcome w h τ → Option Bool
  | (.togglePixel _ _, { answer := .flag off, .. }) => some off
  | _ => none

/-- The coordinates toggled since the screen was cleared last, or from the beginning. -/
def togglesSinceClear (cs : List Command) : List (Int × Int) :=
  (cs.rtakeWhile (· ≠ .clearScreen)).filterMap Command.toggled?

/-- What the toggles since the last clearing reported. -/
def reportsSinceClear {w h : Nat} {τ : Type} (rs : List (Command × Outcome w h τ)) : List Bool :=
  (rs.rtakeWhile (·.1 ≠ .clearScreen)).filterMap report?

/-- What is collected since the last element that is not passed over, with one more element. -/
theorem filterMap_rtakeWhile_concat {α β : Type} (p : α → Bool) (f : α → Option β) (l : List α)
    (x : α) : ((l ++ [x]).rtakeWhile p).filterMap f =
      if p x then (l.rtakeWhile p).filterMap f ++ (f x).toList else [] := by
  rw [List.rtakeWhile_concat]
  split
  · rw [List.filterMap_append]
    cases hx : f x <;> simp [hx]
  · rfl

namespace Machine

variable {w h : Nat} {τ : Type} [ToneGenerator τ] (hw : 0 < w) (hh : 0 < h)

include hw hh in
/-- A toggle reports what it does to the screen. -/
theorem obey_togglePixel (env : Environment) (m : Machine w h τ) (x y : Int) :
    m.obey env (.togglePixel x y) =
      { m with screen := (m.screen.toggle x y).1 }.answering
        [.toggled x y (m.screen.toggle x y).2] (.flag (m.screen.toggle x y).2) := by
  simp [obey, Screen.toggle?, Screen.hasPixels, hw, hh]

include hw hh in
/-- A pixel is read as one or zero. -/
theorem obey_readPixel (env : Environment) (m : Machine w h τ) (x y : Int) :
    m.obey env (.readPixel x y) = m.answering [] (.number (m.screen.lit x y).toNat) := by
  simp [obey, Screen.lit?, Screen.hasPixels, hw, hh]

/-- Of the commands that are no operations only toggles and the clearing change pixels. -/
theorem rows_obey (env : Environment) (m : Machine w h τ) {c : Command}
    (hc : c.isOperation = false) (htoggle : c.toggled? = none) (hclear : c ≠ .clearScreen) :
    (m.obey env c).machine.screen.rows = m.screen.rows := by
  cases c with
  | operate => cases hc
  | togglePixel => cases htoggle
  | clearScreen => exact absurd rfl hclear
  | readPixel x y =>
    simp only [obey]
    split <;> rfl
  | _ => rfl

/-- A command that is no operation keeps the record of the screen. -/
theorem parity_obey {m : Machine w h τ} {toggles : List (Int × Int)} {reports : List Bool}
    (hm : Screen.Parity hw hh m.screen toggles reports) (env : Environment) {c : Command}
    (hc : c.isOperation = false) :
    Screen.Parity hw hh (m.obey env c).machine.screen
      (if c ≠ .clearScreen then toggles ++ c.toggled?.toList else [])
      (if c ≠ .clearScreen then reports ++ (report? (c, m.obey env c)).toList else []) := by
  by_cases hclear : c = .clearScreen
  · subst hclear
    exact .of_dark m.screen.get_clear
  rw [if_pos hclear, if_pos hclear]
  cases htoggle : c.toggled? with
  | none =>
    have hreport : report? (c, m.obey env c) = none := by
      cases c with
      | togglePixel => cases htoggle
      | _ => rfl
    simp only [hreport, Option.toList_none, List.append_nil]
    exact hm.congr (rows_obey env m hc htoggle hclear)
  | some p =>
    cases c with
    | togglePixel x y =>
      obtain rfl := Option.some.inj htoggle
      rw [obey_togglePixel hw hh]
      exact hm.toggle (x, y)
    | _ => cases htoggle

/-- The record of the screen is right after any commands that are no operations. -/
theorem parity_obeyAll {m : Machine w h τ} (hm : m.screen = .dark w h) (env : Environment)
    {cs : List Command} (hcs : ∀ c ∈ cs, c.isOperation = false) :
    Screen.Parity hw hh (m.obeyAll env cs).screen (togglesSinceClear cs)
      (reportsSinceClear (m.replies env cs)) := by
  -- By induction on the last command: both records are read back from the end of the run.
  induction cs using List.reverseRecOn with
  | nil =>
    refine .of_dark fun a b => ?_
    rw [obeyAll, List.foldl_nil, hm, Screen.get_dark]
  | append_singleton cs c ih =>
    have hstep := parity_obey hw hh
      (ih fun c' hc' => hcs c' (List.mem_append_left _ hc')) env (hcs c (by simp))
    rw [obeyAll_append, replies_append, togglesSinceClear, reportsSinceClear,
      filterMap_rtakeWhile_concat]
    simp only [replies]
    rw [filterMap_rtakeWhile_concat]
    simpa [togglesSinceClear, reportsSinceClear, obeyAll] using hstep

include hw hh in
/-- On a screen that has just been made, of any positive size, the record of the toggles since the
last clearing decides everything that can be read, whatever else was done as long as the machine was
not operated. A pixel reads as one exactly if an odd number of them were of it, up to multiples of
the width and the height. A toggle reports that its pixel is dark now, which it is exactly if their
number has become even. The count of the lit pixels is that of the cells that are lit, and it is the
number of the reports of a pixel that is lit now less that of the others. The same toggles in
another order lead to the same pixels. -/
theorem screen_is_parity_torus (env : Environment) {m : Machine w h τ}
    (hm : Screen.ofSize w h = .ok m.screen) {cs : List Command}
    (hcs : ∀ c ∈ cs, c.isOperation = false) :
    let m' := m.obeyAll env cs
    let toggles := togglesSinceClear cs
    let reports := reportsSinceClear (m.replies env cs)
    (∀ x y, let read := m'.obey env (.readPixel x y)
      read.error = none ∧
      read.answer = .number (if Odd (hits w h toggles x y) then 1 else 0)) ∧
    (∀ x y, let toggled := m'.obey env (.togglePixel x y)
      toggled.error = none ∧
      toggled.answer = .flag (decide (Even (hits w h (toggles ++ [(x, y)]) x y))) ∧
      toggled.answer = .flag (!toggled.machine.screen.lit x y)) ∧
    ((m'.obey env .countLit).error = none ∧
      (m'.obey env .countLit).answer = .number m'.screen.litCells.card ∧
      (m'.obey env .countLit).answer = .number (reports.count false - reports.count true)) ∧
    ∀ cs' : List Command, (∀ c ∈ cs', c.isOperation = false) →
      (togglesSinceClear cs').Perm toggles →
      (m.obeyAll env cs').screen.rows = m'.screen.rows := by
  intro m' toggles reports
  have hdark : m.screen = .dark w h := by
    rw [Screen.ofSize_natCast] at hm
    exact (Except.ok.inj hm).symm
  have hparity := parity_obeyAll hw hh hdark env hcs
  refine ⟨fun x y => ?_, fun x y => ?_, ?_, fun cs' hcs' hperm => ?_⟩
  · rw [obey_readPixel hw hh, hparity.lit_eq]
    refine ⟨rfl, ?_⟩
    by_cases hodd : Odd (hits w h toggles x y) <;> simp [answering, hodd, toggles]
  · have hafter := hparity.toggle (x, y)
    rw [obey_togglePixel hw hh]
    have hoff : (m'.screen.toggle x y).2 = !(m'.screen.toggle x y).1.lit x y := by
      rw [Screen.lit_toggle_self hw hh, Bool.not_not]
    have heven : (m'.screen.toggle x y).2 =
        decide (Even (hits w h (toggles ++ [(x, y)]) x y)) := by
      rw [hoff, hafter.lit_eq, ← decide_not]
      simp only [Nat.not_odd_iff_even, toggles]
    exact ⟨rfl, congrArg Answer.flag heven, congrArg Answer.flag hoff⟩
  · refine ⟨rfl, ?_, ?_⟩
    · exact congrArg (fun n : Nat => Answer.number n) (Screen.litCount_eq_card m'.screen)
    · exact congrArg Answer.number hparity.litCount_eq
  · refine Screen.rows_eq_of_get_eq fun a b => ?_
    rw [hparity.get_eq, (parity_obeyAll hw hh hdark env hcs').get_eq,
      (hperm.map (Screen.place hw hh)).count_eq]

/-- Three toggles of one pixel of a small screen, twice from over its edges, and one of another after
the clearing: the pixel is lit, toggling it once more makes it dark, and two pixels are lit. -/
theorem screen_is_parity_torus_over_edges :
    let env : Environment := ⟨fun _ => 0, fun _ => .error .notFound⟩
    let m : Machine 3 2 Tone := .powerOn (.dark 3 2) 10
    let cs : List Command := [.togglePixel 0 0, .clearScreen, .togglePixel (-1) 3, .present,
      .togglePixel 5 (-1), .readPixel 2 1, .togglePixel 2 1, .countLit, .togglePixel 1 0]
    let m' := m.obeyAll env cs
    Screen.ofSize 3 2 = .ok m.screen ∧ (∀ c ∈ cs, c.isOperation = false) ∧
      (m'.obey env (.readPixel (-4) 7)).answer = .number 1 ∧
      (m'.obey env (.readPixel 0 0)).answer = .number 0 ∧
      (m'.obey env (.togglePixel 2 (-5))).answer = .flag true ∧
      (m'.obey env .countLit).answer = .number 2 := by
  intro env m cs m'
  have hm : Screen.ofSize 3 2 = .ok m.screen := rfl
  have hcs : ∀ c ∈ cs, c.isOperation = false := by decide
  obtain ⟨hread, htoggle, hcount, -⟩ :=
    screen_is_parity_torus (by decide) (by decide) env hm hcs
  exact ⟨hm, hcs, (hread (-4) 7).2.trans (by decide), (hread 0 0).2.trans (by decide),
    (htoggle 2 (-5)).2.1.trans (by decide), hcount.2.2.trans (by decide)⟩

end Machine

end Chip8
