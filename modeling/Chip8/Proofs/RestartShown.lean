import Chip8.Proofs.Restart
import Chip8.Proofs.Shown

/-!
# What a window shows after a restart

A restart clears the pixels but does not mark the screen as changed. If the mark happens to be up,
the restarted window shows at every draw what a window shows that has just been opened. If it is
down, which is so between a draw and the next completed frame, the restarted window goes on showing
the picture of the run before, until the restarted program completes its first frame
(`Window.shown_after_restart`). A program that waits for a key in its first frame leaves that
picture for as long as no key comes (`Window.picture_survives_restart`).
-/

namespace Chip8.Window

variable {w₁ w₂ : Window} {draws frames : Nat} {random : Nat → Int}

/-- The windows are marked alike, and with the marks down they hold the same image. -/
structure SameView (w₁ w₂ : Window) : Prop where
  mark : w₁.machine.screen.shouldDraw = w₂.machine.screen.shouldDraw
  image : w₁.machine.screen.shouldDraw = false → w₁.image = w₂.image

/-- Windows with the same view of the same pixels show the same. -/
theorem SameView.shown_eq (hview : SameView w₁ w₂)
    (hrows : w₁.machine.screen.rows = w₂.machine.screen.rows) : w₁.shown = w₂.shown := by
  cases hmark : w₁.machine.screen.shouldDraw with
  | true =>
    rw [shown_of_shouldDraw hmark, shown_of_shouldDraw (hview.mark.symm.trans hmark),
      Picture.ofScreen_eq_iff]
    exact hrows
  | false =>
    rw [shown_of_not_shouldDraw hmark, shown_of_not_shouldDraw (hview.mark.symm.trans hmark)]
    exact hview.image hmark

namespace Parallel

/-- Windows that run in parallel after a restart come to the same view when a frame is presented,
and keep it. -/
theorem sameView_handle (hw : Parallel (.restarted draws frames) w₁ w₂) {e : WindowEvent}
    (he : e ≠ .keyDown .backspace)
    (hview : SameView w₁ w₂ ∨ w₁.presentations < (w₁.handle random e).window.presentations) :
    SameView (w₁.handle random e).window
      (w₂.handle (fun k => random (draws + k)) e).window := by
  by_cases hdraw : e = .draw
  · subst hdraw
    obtain hview | hlt := hview
    · exact ⟨(shouldDraw_draw w₁).trans (shouldDraw_draw w₂).symm,
        fun _ => hview.shown_eq hw.machine.rows⟩
    · exact absurd (presentations_draw w₁) (Nat.ne_of_gt hlt)
  · have hbefore : w₁.presentations = frames + w₂.presentations := hw.machine.framesPresented
    have hnext := hw.handle (Tolerance.faithful_restarted random draws frames) e
    have hafter : (w₁.handle random e).window.presentations = frames +
        (w₂.handle (fun k => random (draws + k)) e).window.presentations :=
      hnext.machine.framesPresented
    have heffect₁ := shownEffect random w₁ he
    have heffect₂ := shownEffect (fun k => random (draws + k)) w₂ he
    generalize (w₁.handle random e).window = next₁ at hview hafter heffect₁ ⊢
    generalize (w₂.handle (fun k => random (draws + k)) e).window = next₂ at hafter heffect₂ ⊢
    cases heffect₁ with
    | presented hmark₁ hframes₁ =>
      cases heffect₂ with
      | presented hmark₂ => exact ⟨hmark₁.trans hmark₂.symm, fun h => by cases h.symm.trans hmark₁⟩
      | kept _ _ hframes₂ => omega
    | drawn => exact absurd rfl hdraw
    | kept himage₁ hmark₁ hframes₁ =>
      cases heffect₂ with
      | presented _ hframes₂ => omega
      | drawn => exact absurd rfl hdraw
      | kept himage₂ hmark₂ =>
        obtain hview | hlt := hview
        · refine ⟨hmark₁.trans (hview.mark.trans hmark₂.symm), fun h => ?_⟩
          rw [himage₁, himage₂]
          exact hview.image (hmark₁.symm.trans h)
        · omega

/-- From the first frame that is presented the windows have the same view. -/
theorem sameView_handleAll (hw : Parallel (.restarted draws frames) w₁ w₂)
    {events : List WindowEvent} (hevents : .keyDown .backspace ∉ events)
    (hview : SameView w₁ w₂ ∨ w₁.presentations < (w₁.handleAll random events).presentations) :
    SameView (w₁.handleAll random events)
      (w₂.handleAll (fun k => random (draws + k)) events) := by
  induction events using List.reverseRecOn with
  | nil => exact hview.resolve_right (Nat.lt_irrefl _)
  | append_singleton events e ih =>
    have hpast : .keyDown .backspace ∉ events := fun h => hevents (List.mem_append_left _ h)
    have hlast : e ≠ .keyDown .backspace := by
      rintro rfl
      exact hevents (List.mem_append_right _ (List.mem_singleton_self _))
    have hbefore := hw.handleAll (Tolerance.faithful_restarted random draws frames) events
    rw [handleAll_concat, handleAll_concat]
    rw [handleAll_concat] at hview
    apply hbefore.sameView_handle hlast
    by_cases hearlier : SameView w₁ w₂ ∨
        w₁.presentations < (w₁.handleAll random events).presentations
    · exact .inl (ih hpast hearlier)
    · rw [not_or, Nat.not_lt] at hearlier
      exact .inr (Nat.lt_of_le_of_lt hearlier.2 (hview.resolve_left hearlier.1))

end Parallel

/-- The window that opens on the program of a window, with the same keys held. -/
def anew (w : Window) : Window :=
  { fresh w.program w.machine.speed w.logging with machine.keypad.held := w.machine.keypad.held }

/-- A restarted window has the pixels of a new one. It also shows what that shows, unless the screen
was not marked as changed at the restart and no frame has been presented since: then it shows what
the window showed before. -/
theorem shown_restarted {w : Window} (hw : Reachable w) (hexit : w.exiting = false)
    (random : Nat → Int) {events : List WindowEvent} (hevents : .keyDown .backspace ∉ events) :
    let after := (w.handle random (.keyDown .backspace)).window.handleAll random events
    let anew := w.anew.handleAll (fun k => random (w.machine.draws + k)) events
    after.machine.screen.rows = anew.machine.screen.rows ∧
      after.shown = if w.machine.screen.shouldDraw = false ∧
        after.presentations = w.presentations then w.shown else anew.shown := by
  intro after anew
  have hparallel := parallel_restart hw.keyWait hexit
  have hrows : after.machine.screen.rows = anew.machine.screen.rows :=
    (hparallel.handleAll (Tolerance.faithful_restarted random _ _) events).machine.rows
  refine ⟨hrows, ?_⟩
  let restarted := (w.handle random (.keyDown .backspace)).window
  cases hmark : w.machine.screen.shouldDraw with
  | true =>
    -- the mark of a window that has just been opened is up as well
    have hview : SameView restarted w.anew := ⟨hmark, fun h => by cases h.symm.trans hmark⟩
    rw [if_neg (by rintro ⟨⟨⟩, -⟩)]
    exact (hparallel.sameView_handleAll hevents (.inl hview)).shown_eq hrows
  | false =>
    by_cases hsame : after.presentations = w.presentations
    · rw [if_pos ⟨rfl, hsame⟩, shown_of_not_shouldDraw hmark]
      have hkept := shown_handleAll_of_drawn (w := restarted) hmark hevents hsame
      exact hkept.trans (shown_of_not_shouldDraw hmark)
    · have hlt : w.presentations < after.presentations :=
        Nat.lt_of_le_of_ne (presentations_le_handleAll random restarted hevents) (Ne.symm hsame)
      rw [if_neg fun h => hsame h.2]
      exact (hparallel.sameView_handleAll hevents (.inr hlt)).shown_eq hrows

/-- A restart of a window whose session has not ended, compared with opening a window on the program
with the same keys held and the rest of the random numbers. As long as the screen was not marked as
changed at the restart and no frame has been completed since, the restarted window shows at every
draw what it would have shown before the restart; in all other cases it shows what the new window
shows. So before the first draw, while no frame has been completed and no pixel is lit, the new
window shows a dark picture, but the restarted one shows it just if the mark was up at the restart
or the picture before it was dark. -/
theorem shown_after_restart {w : Window} (hw : Reachable w) (hexit : w.exiting = false)
    (random : Nat → Int) :
    let restarted := (w.handle random (.keyDown .backspace)).window
    let dark : Screen screenWidth screenHeight := .dark screenWidth screenHeight
    ∃ opened, (start (w.program.bytes.map fun b => (b.toNat : Int)) w.machine.speed
        w.logging).window = .ok opened ∧
      ∀ events, .keyDown .backspace ∉ events →
        let after := restarted.handleAll random events
        let anew := { opened with machine.keypad.held := w.machine.keypad.held }.handleAll
          (fun k => random (w.machine.draws + k)) events
        (after.shown = if w.machine.screen.shouldDraw = false ∧
          after.presentations = w.presentations then w.shown else anew.shown) ∧
        (.draw ∉ events → after.presentations = w.presentations →
          after.machine.screen.rows = dark.rows → anew.shown = .ofScreen dark ∧
            (after.shown = .ofScreen dark ↔
              w.machine.screen.shouldDraw = true ∨ w.shown = .ofScreen dark)) := by
  intro restarted dark
  refine ⟨_, start_bytes w.program w.machine.speed w.logging, fun events hevents => ?_⟩
  intro after anew
  obtain ⟨hrows, hshown⟩ : after.machine.screen.rows = anew.machine.screen.rows ∧
      after.shown = if w.machine.screen.shouldDraw = false ∧
        after.presentations = w.presentations then w.shown else anew.shown :=
    shown_restarted hw hexit random hevents
  refine ⟨hshown, fun hdraw hsame hdark => ?_⟩
  have hanew : anew.shown = .ofScreen dark := by
    have hmark : anew.machine.screen.shouldDraw = true := shouldDraw_handleAll rfl hevents hdraw
    rw [shown_of_shouldDraw hmark, Picture.ofScreen_eq_iff, ← hrows, hdark]
  refine ⟨hanew, ?_⟩
  rw [hshown, hanew]
  cases w.machine.screen.shouldDraw with
  | true => simp
  | false => simp [hsame]

/-- While the mark is up at the restart, the draw after it shows a dark picture: the frame that has
drawn was not shown yet. -/
theorem shown_after_restart_before_draw :
    let random : Nat → Int := fun _ => 0
    let p : Program := ⟨[0xD0, 0x05, 0x12, 0x02], by decide, by decide⟩
    let w := (fresh p 1 false).handleAll random [.tick]
    let restarted := (w.handle random (.keyDown .backspace)).window
    Reachable w ∧ w.exiting = false ∧ w.machine.screen.lit 0 0 = true ∧
      restarted.shown = .ofScreen (.dark screenWidth screenHeight) := by
  intro random p w restarted
  have hw : Reachable w := (reachable_fresh p 1 false).handleAll ..
  have hexit : w.exiting = false := by decide +kernel
  have hmark : w.machine.screen.shouldDraw = true := by decide +kernel
  obtain ⟨opened, -, hshown⟩ := shown_after_restart hw hexit random
  obtain ⟨-, hdark⟩ := hshown [] List.not_mem_nil
  exact ⟨hw, hexit, by decide +kernel,
    (hdark List.not_mem_nil rfl rfl).2.mpr (.inl hmark)⟩

/-- A program that waits for a key before it draws is restarted after its picture was shown. It
waits again, with all pixels dark and no frame completed, but the picture of the run before is still
shown, where a new window shows a dark one. -/
theorem picture_survives_restart :
    let random : Nat → Int := fun _ => 0
    let p : Program := ⟨[0xF0, 0x0A, 0xD0, 0x05, 0x12, 0x04], by decide, by decide⟩
    let opened := fresh p 2 false
    let w := opened.handleAll random [.tick, .keyDown .q, .tick, .draw]
    let after := (w.handle random (.keyDown .backspace)).window.handleAll random [.tick]
    let dark : Screen screenWidth screenHeight := .dark screenWidth screenHeight
    Reachable w ∧ w.exiting = false ∧ after.presentations = w.presentations ∧
      after.machine.screen.rows = dark.rows ∧ after.shown ≠ .ofScreen dark ∧
      (opened.handleAll random [.tick]).shown = .ofScreen dark := by
  intro random p opened w after dark
  let played := opened.handleAll random [.tick, .keyDown .q, .tick]
  obtain ⟨hmark, hlit⟩ : played.machine.screen.shouldDraw = true ∧
      played.machine.screen.lit 4 4 = true := by decide +kernel
  obtain ⟨hexit, hsame, hrows⟩ : w.exiting = false ∧ after.presentations = w.presentations ∧
      after.machine.screen.rows = dark.rows := by decide +kernel
  have hkept : after.shown = .ofScreen played.machine.screen := by
    have hdown : w.machine.screen.shouldDraw = false := shouldDraw_draw played
    let restarted := (w.handle random (.keyDown .backspace)).window
    calc
      after.shown = restarted.shown :=
        shown_handleAll_of_drawn (w := restarted) hdown (by decide) hsame
      _ = w.image := shown_of_not_shouldDraw hdown
      _ = .ofScreen played.machine.screen := shown_of_shouldDraw hmark
  obtain ⟨hfresh, hblank⟩ : (opened.handleAll random [.tick]).machine.screen.shouldDraw = true ∧
      (opened.handleAll random [.tick]).machine.screen.rows = dark.rows := by decide +kernel
  refine ⟨(reachable_fresh p 2 false).handleAll .., hexit, hsame, hrows, fun hdark => ?_, ?_⟩
  · rw [hkept, Picture.ofScreen_eq_iff] at hdark
    simp only [Screen.lit, Screen.get, hdark] at hlit
    exact absurd hlit (by decide +kernel)
  · rw [shown_of_shouldDraw hfresh, Picture.ofScreen_eq_iff]
    exact hblank

end Chip8.Window
