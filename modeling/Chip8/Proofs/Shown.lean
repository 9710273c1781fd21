import Chip8.Proofs.Session
import Mathlib.Data.List.Induction

/-!
# What a window shows

A draw shows the pixels as they are if the screen is marked as changed, and else the image of an
earlier draw. The mark is up at the start, a frame that is completed puts it up, a draw takes it
down, and nothing but a restart touches it otherwise (`Window.shownEffect`). So every draw shows the
pixels that were presented last just if no tick changes pixels without presenting them while the
mark is up (`Window.shown_eq_presented_iff`). Such a tick there is: a frame that draws and then waits
for a key, before the window was drawn for the first time
(`Window.unpresented_pixels_shown_by_first_draw`).
-/

namespace Chip8

/-- Repeating each element the same number of times, at least once, loses nothing. -/
theorem flatMap_replicate_injective {α β : Type} {f : α → β} (hf : Function.Injective f) (n : Nat) :
    Function.Injective fun l : List α => l.flatMap fun a => List.replicate (n + 1) (f a) := by
  intro l
  induction l with
  | nil =>
    intro l' h
    cases l' with
    | nil => rfl
    | cons b l' => exact absurd h.symm (List.cons_ne_nil _ _)
  | cons a l ih =>
    intro l' h
    cases l' with
    | nil => exact absurd h (List.cons_ne_nil _ _)
    | cons b l' =>
      have hlength : (List.replicate (n + 1) (f a)).length =
          (List.replicate (n + 1) (f b)).length :=
        List.length_replicate.trans List.length_replicate.symm
      obtain ⟨hfirst, hrest⟩ := List.append_inj h hlength
      rw [hf (List.cons.inj hfirst).1, ih hrest]

/-- Lit and dark have different colours. -/
theorem Colour.ofPixel_injective : Function.Injective Colour.ofPixel := by
  intro a b
  revert a b
  decide

namespace Picture

/-- The picture of a row tells its pixels. -/
theorem ofRow_injective : Function.Injective ofRow :=
  flatMap_replicate_injective Colour.ofPixel_injective 9

/-- Screens have the same picture just if they have the same pixels. -/
theorem ofScreen_eq_iff {w h : Nat} {s t : Screen w h} :
    ofScreen s = ofScreen t ↔ s.rows = t.rows := by
  constructor
  · intro heq
    have hreversed : s.toLists.reverse = t.toLists.reverse :=
      flatMap_replicate_injective ofRow_injective 9 (Picture.mk.inj heq)
    have hlists : s.rows.toList.map Vector.toList = t.rows.toList.map Vector.toList :=
      List.reverse_injective hreversed
    have hinjective : Function.Injective (Vector.toList : Vector Bool w → List Bool) :=
      fun _ _ => Vector.toList_inj.mp
    exact Vector.toList_inj.mp (List.map_injective_iff.mpr hinjective hlists)
  · intro hrows
    rw [ofScreen, ofScreen, Screen.toLists, Screen.toLists, hrows]

end Picture

namespace Machine

variable {w h : Nat} {τ : Type}

/-- A press does not touch the screen. -/
theorem screen_press (m : Machine w h τ) (key : Int) :
    (m.press key).machine.screen = m.screen := by
  obtain ⟨cpu, hpress⟩ := press_machine m key
  rw [hpress]

variable [ToneGenerator τ]

/-- A frame presents the screen once, or leaves its marks alone. -/
theorem frame_marks (random : Nat → Int) (m : Machine w h τ) :
    let after := (m.frame random).machine.screen
    (after.shouldDraw = true ∧ after.framesPresented = m.screen.framesPresented + 1) ∨
      (after.shouldDraw = m.screen.shouldDraw ∧
        after.framesPresented = m.screen.framesPresented) := by
  have hsteps := steps_surroundings random m
  have hending := frame_ending random m
  generalize m.frame random = o at hending ⊢
  cases hending with
  | skipped => exact .inr ⟨rfl, rfl⟩
  | completed hm hk => exact .inl ⟨rfl, congrArg (· + 1) (hsteps _).framesPresented⟩
  | blocked | faulted | failed => exact .inr ⟨(hsteps _).shouldDraw, (hsteps _).framesPresented⟩

end Machine

namespace Window

/-- The picture that a draw shows: the data of the image once the draw has brought it up to date. -/
def shown (w : Window) : Picture := w.draw.window.image

/-- How often the screen of a window was presented. -/
def presentations (w : Window) : Nat := w.machine.screen.framesPresented

/-- The picture of the pixels as they were when events presented them last; the given picture if
they have not presented any. -/
def presented (random : Nat → Int) (w : Window) (latest : Picture) : List WindowEvent → Picture
  | [] => latest
  | e :: events =>
    let next := (w.handle random e).window
    let latest :=
      if w.presentations < next.presentations then .ofScreen next.machine.screen else latest
    next.presented random latest events

/-- A draw shows the pixels if they are marked as changed, and else the image there is. -/
theorem shown_eq (w : Window) :
    w.shown = if w.machine.screen.shouldDraw then .ofScreen w.machine.screen else w.image := by
  rw [shown, draw]
  split
  · exact w.canvas.picture_paint _
  · rfl

/-- The pixels are shown while they are marked as changed. -/
theorem shown_of_shouldDraw {w : Window} (hw : w.machine.screen.shouldDraw = true) :
    w.shown = .ofScreen w.machine.screen := by
  rw [shown_eq, if_pos hw]

/-- With the mark down, the image there is is shown. -/
theorem shown_of_not_shouldDraw {w : Window} (hw : w.machine.screen.shouldDraw = false) :
    w.shown = w.image := by
  rw [shown_eq, hw]
  rfl

/-- A draw takes the mark down. -/
theorem shouldDraw_draw (w : Window) : w.draw.window.machine.screen.shouldDraw = false := by
  unfold draw
  split
  · rfl
  · rename_i hdraw
    exact Bool.eq_false_iff.mpr hdraw

/-- A draw presents nothing. -/
theorem presentations_draw (w : Window) : w.draw.window.presentations = w.presentations := by
  unfold draw
  split <;> rfl

/-- Drawing twice shows the same twice. -/
theorem shown_draw (w : Window) : w.draw.window.shown = w.shown :=
  shown_of_not_shouldDraw (shouldDraw_draw w)

/-- What an event other than a restart does to what a window shows. -/
inductive ShownEffect (w : Window) : WindowEvent → Window → Prop where
  /-- A frame was completed. -/
  | presented {next : Window} (hdraw : next.machine.screen.shouldDraw = true)
      (hframes : next.presentations = w.presentations + 1) : ShownEffect w .tick next
  /-- The image was shown, brought up to date if need be. -/
  | drawn {next : Window} (himage : next.image = w.shown)
      (hdraw : next.machine.screen.shouldDraw = false)
      (hframes : next.presentations = w.presentations) : ShownEffect w .draw next
  /-- At most the pixels have changed, and these only in a tick. -/
  | kept {e : WindowEvent} {next : Window} (himage : next.image = w.image)
      (hdraw : next.machine.screen.shouldDraw = w.machine.screen.shouldDraw)
      (hframes : next.presentations = w.presentations)
      (hrows : e = .tick ∨ next.machine.screen.rows = w.machine.screen.rows) :
      ShownEffect w e next

/-- An event that leaves screen and image alone leaves alone what is shown. -/
theorem ShownEffect.same {w next : Window} (e : WindowEvent) (himage : next.image = w.image)
    (hscreen : next.machine.screen = w.machine.screen) : ShownEffect w e next :=
  .kept himage (by rw [hscreen]) (by rw [presentations, hscreen]; rfl) (.inr (by rw [hscreen]))

/-- A tick does not touch the image. -/
theorem image_tick (random : Nat → Int) (w : Window) : (w.tick random).window.image = w.image := by
  unfold tick
  split
  · rfl
  · dsimp only
    split <;> rfl

/-- Every event but a restart does one of these. -/
theorem shownEffect (random : Nat → Int) (w : Window) {e : WindowEvent}
    (he : e ≠ .keyDown .backspace) : ShownEffect w e (w.handle random e).window := by
  cases e with
  | tick =>
    have himage : (w.handle random .tick).window.image = w.image := image_tick random w
    have hmachine := (handle_eq random w .tick).1
    simp only [act] at hmachine
    split at hmachine
    · exact .same .tick himage (by rw [hmachine]; rfl)
    · obtain ⟨hdraw, hframes⟩ | ⟨hdraw, hframes⟩ := Machine.frame_marks random w.machine
      · exact .presented (by rw [hmachine, hdraw]) (by rw [presentations, hmachine, hframes]; rfl)
      · exact .kept himage (by rw [hmachine, hdraw]) (by rw [presentations, hmachine, hframes]; rfl)
          (.inl rfl)
  | draw => exact .drawn rfl (shouldDraw_draw w) (presentations_draw w)
  | keyDown k =>
    cases k with
    | backspace => exact absurd rfl he
    | escape | f1 | other => exact .same _ rfl rfl
    | _ => exact .same _ rfl (Machine.screen_press ..)
  | keyUp k =>
    simp only [handle, keyUp]
    split <;> exact .same _ rfl rfl
  | close | startTone | stopTone => exact .same _ rfl rfl

/-- The event presents the screen or leaves its pixels as they were. -/
def PresentsChanges (random : Nat → Int) (w : Window) (e : WindowEvent) : Prop :=
  let next := (w.handle random e).window
  w.presentations < next.presentations ∨ next.machine.screen.rows = w.machine.screen.rows

/-- One more event: its pixels if it presents them, and else what was presented before. -/
theorem presented_concat (random : Nat → Int) (w : Window) (latest : Picture)
    (events : List WindowEvent) (e : WindowEvent) :
    w.presented random latest (events ++ [e]) =
      (w.handleAll random events).presented random (w.presented random latest events) [e] := by
  induction events generalizing w latest with
  | nil => rfl
  | cons e' events ih => exact ih ..

/-- If the window shows what was presented last, it does so after one more event just if this is no
tick that, with the mark up, changes pixels without presenting them. -/
theorem shown_handle_iff {random : Nat → Int} {w : Window} {e : WindowEvent}
    (he : e ≠ .keyDown .backspace) :
    (w.handle random e).window.shown = w.presented random w.shown [e] ↔
      (e = .tick → w.machine.screen.shouldDraw = true → w.PresentsChanges random e) := by
  have heffect := shownEffect random w he
  simp only [presented, PresentsChanges]
  generalize (w.handle random e).window = next at heffect ⊢
  cases heffect with
  | presented hdraw hframes =>
    have hlt : w.presentations < next.presentations := by omega
    simp only [shown_of_shouldDraw hdraw, hlt, if_true, true_or, implies_true]
  | drawn himage hdraw hframes =>
    simp [shown_of_not_shouldDraw hdraw, himage, hframes]
  | kept himage hdraw hframes hrows =>
    simp only [hframes, Nat.lt_irrefl, if_false, false_or]
    cases hmark : w.machine.screen.shouldDraw with
    | false =>
      rw [shown_of_not_shouldDraw (hdraw.trans hmark), shown_of_not_shouldDraw hmark, himage]
      simp
    | true =>
      rw [shown_of_shouldDraw (hdraw.trans hmark), shown_of_shouldDraw hmark,
        Picture.ofScreen_eq_iff]
      constructor
      · exact fun h _ _ => h
      · intro h
        obtain rfl | hsame := hrows
        · exact h rfl rfl
        · exact hsame

/-- As long as no tick changes pixels without presenting them while the mark is up, what a window
shows is what was presented last. -/
theorem shown_handleAll {random : Nat → Int} {w : Window} {events : List WindowEvent}
    (hevents : .keyDown .backspace ∉ events)
    (hticks : ∀ past, past ++ [.tick] <+: events →
      (w.handleAll random past).machine.screen.shouldDraw = true →
      (w.handleAll random past).PresentsChanges random .tick) :
    (w.handleAll random events).shown = w.presented random w.shown events := by
  induction events using List.reverseRecOn with
  | nil => rfl
  | append_singleton events e ih =>
    have hbefore := ih (fun h => hevents (List.mem_append_left _ h))
      fun past hpast => hticks past (hpast.trans (List.prefix_append ..))
    have hlast : e ≠ .keyDown .backspace := by
      rintro rfl
      exact hevents (List.mem_append_right _ (List.mem_singleton_self _))
    rw [handleAll_concat, presented_concat, ← hbefore, shown_handle_iff hlast]
    rintro rfl
    exact hticks events List.prefix_rfl

/-- While the mark is up and nothing is drawn, it stays up. -/
theorem shouldDraw_handleAll {random : Nat → Int} {w : Window} {events : List WindowEvent}
    (hw : w.machine.screen.shouldDraw = true) (hevents : .keyDown .backspace ∉ events)
    (hdraw : .draw ∉ events) : (w.handleAll random events).machine.screen.shouldDraw = true := by
  induction events generalizing w with
  | nil => exact hw
  | cons e events ih =>
    obtain ⟨hother, hevents⟩ := List.ne_and_not_mem_of_not_mem_cons hevents
    obtain ⟨hnoDraw, hdraw⟩ := List.ne_and_not_mem_of_not_mem_cons hdraw
    have hmark : (w.handle random e).window.machine.screen.shouldDraw = true := by
      have heffect := shownEffect random w hother.symm
      generalize (w.handle random e).window = next at heffect ⊢
      cases heffect with
      | presented hpresented => exact hpresented
      | drawn => exact absurd rfl hnoDraw
      | kept _ hkept => exact hkept.trans hw
    exact ih hmark hevents hdraw

/-- An event that presents the screen puts the mark up. -/
theorem shouldDraw_of_presentations_lt {random : Nat → Int} {w : Window} {e : WindowEvent}
    (he : e ≠ .keyDown .backspace)
    (hlt : w.presentations < (w.handle random e).window.presentations) :
    (w.handle random e).window.machine.screen.shouldDraw = true := by
  have heffect := shownEffect random w he
  generalize (w.handle random e).window = next at heffect hlt ⊢
  cases heffect with
  | presented hdraw => exact hdraw
  | drawn | kept => omega

/-- What was presented stays counted. -/
theorem presentations_le_handle (random : Nat → Int) (w : Window) {e : WindowEvent}
    (he : e ≠ .keyDown .backspace) :
    w.presentations ≤ (w.handle random e).window.presentations := by
  have heffect := shownEffect random w he
  generalize (w.handle random e).window = next at heffect ⊢
  cases heffect <;> omega

/-- What was presented stays counted over a run. -/
theorem presentations_le_handleAll (random : Nat → Int) (w : Window) {events : List WindowEvent}
    (hevents : .keyDown .backspace ∉ events) :
    w.presentations ≤ (w.handleAll random events).presentations := by
  induction events generalizing w with
  | nil => exact Nat.le_refl _
  | cons e events ih =>
    obtain ⟨hother, hevents⟩ := List.ne_and_not_mem_of_not_mem_cons hevents
    exact Nat.le_trans (presentations_le_handle random w hother.symm) (ih _ hevents)

/-- With the mark down, an event that presents nothing leaves it down, and what is shown as it
was. -/
theorem shown_handle_of_drawn {random : Nat → Int} {w : Window} {e : WindowEvent}
    (hw : w.machine.screen.shouldDraw = false) (he : e ≠ .keyDown .backspace)
    (hsame : (w.handle random e).window.presentations = w.presentations) :
    (w.handle random e).window.machine.screen.shouldDraw = false ∧
      (w.handle random e).window.shown = w.shown := by
  have heffect := shownEffect random w he
  generalize (w.handle random e).window = next at heffect hsame ⊢
  cases heffect with
  | presented _ hframes => omega
  | drawn himage hdraw => exact ⟨hdraw, (shown_of_not_shouldDraw hdraw).trans himage⟩
  | kept himage hdraw =>
    have hdown := hdraw.trans hw
    refine ⟨hdown, ?_⟩
    rw [shown_of_not_shouldDraw hdown, shown_of_not_shouldDraw hw, himage]

/-- With the mark down, what is shown stays until a frame is presented. -/
theorem shown_handleAll_of_drawn {random : Nat → Int} {w : Window} {events : List WindowEvent}
    (hw : w.machine.screen.shouldDraw = false) (hevents : .keyDown .backspace ∉ events)
    (hsame : (w.handleAll random events).presentations = w.presentations) :
    (w.handleAll random events).shown = w.shown := by
  induction events generalizing w with
  | nil => rfl
  | cons e events ih =>
    obtain ⟨hother, hevents⟩ := List.ne_and_not_mem_of_not_mem_cons hevents
    have hfirst := presentations_le_handle random w hother.symm
    have hrest := presentations_le_handleAll random (w.handle random e).window hevents
    have hstep : (w.handle random e).window.presentations = w.presentations :=
      Nat.le_antisymm (Nat.le_trans hrest (Nat.le_of_eq hsame)) hfirst
    obtain ⟨hdown, hshown⟩ := shown_handle_of_drawn hw hother.symm hstep
    exact (ih hdown hevents (hsame.trans hstep.symm)).trans hshown

/-- A window that has just been opened shows a dark screen, which no frame has presented. -/
theorem shown_fresh (p : Program) (speed : Int) (logging : Bool) :
    (fresh p speed logging).shown = .ofScreen (.dark screenWidth screenHeight) :=
  shown_of_shouldDraw rfl

/-- What the draws of an open window show, unless the program is restarted. They show the pixels as
they were presented last, or a dark screen before that, just if no tick changes pixels without
presenting them while the screen is marked as changed. Since the last presentation, or since the
start, the mark is up until the first draw: a draw then shows the pixels as they are, presented or
not. After that draw nothing else is shown until a frame presents the screen, whatever frames that
wait for a key or fault have drawn. -/
theorem shown_eq_presented_iff {numbers : List Int} {speed : Int} {logging : Bool} {opened : Window}
    (hopen : (start numbers speed logging).window = .ok opened) (random : Nat → Int)
    {events : List WindowEvent} (hevents : .keyDown .backspace ∉ events) :
    let after := opened.handleAll random
    let dark : Picture := .ofScreen (.dark screenWidth screenHeight)
    ((∀ past, past <+: events → (after past).shown = opened.presented random dark past) ↔
      ∀ past, past ++ [.tick] <+: events → (after past).machine.screen.shouldDraw = true →
        (after past).PresentsChanges random .tick) ∧
    (∀ past more, past ++ more <+: events → .draw ∉ more →
      (past = [] ∨ ∃ before, past = before ++ [.tick] ∧
        (after before).presentations < (after past).presentations) →
      (after (past ++ more)).shown = .ofScreen (after (past ++ more)).machine.screen) ∧
    (∀ past more, past ++ .draw :: more <+: events →
      (after (past ++ .draw :: more)).presentations = (after past).presentations →
      (after (past ++ .draw :: more)).shown = (after past).shown) := by
  intro after dark
  obtain ⟨p, -, rfl⟩ := start_eq_ok_iff.mp hopen
  have hnone : ∀ {past}, past <+: events → .keyDown .backspace ∉ past :=
    fun hpast h => hevents (hpast.subset h)
  have hdark : dark = (fresh p speed logging).shown := (shown_fresh p speed logging).symm
  rw [hdark]
  refine ⟨⟨fun hshown past hpast => ?_, fun hticks past hpast => ?_⟩,
    fun past more hpast hdraw hpresented => ?_, fun past more hpast hsame => ?_⟩
  · -- right before the tick and after it, so the tick has not changed pixels it did not present
    have hbefore := hshown past ((List.prefix_append ..).trans hpast)
    have hafter := hshown (past ++ [.tick]) hpast
    rw [presented_concat, ← hbefore] at hafter
    have hstep : ((after past).handle random .tick).window.shown = _ :=
      (congrArg shown (handleAll_concat ..)).symm.trans hafter
    exact (shown_handle_iff (by rintro ⟨⟩)).mp hstep rfl
  · exact shown_handleAll (hnone hpast) fun before hbefore => hticks before (hbefore.trans hpast)
  · have hmark : (after past).machine.screen.shouldDraw = true := by
      obtain rfl | ⟨before, rfl, hlt⟩ := hpresented
      · rfl
      · simp only [after, handleAll_concat] at hlt ⊢
        exact shouldDraw_of_presentations_lt (by rintro ⟨⟩) hlt
    have hmore : .keyDown .backspace ∉ more := fun h => hnone hpast (List.mem_append_right _ h)
    apply shown_of_shouldDraw
    simp only [after, handleAll_append]
    exact shouldDraw_handleAll hmark hmore hdraw
  · have hmore : .keyDown .backspace ∉ more := fun h =>
      hnone hpast (List.mem_append_right _ (List.mem_cons_of_mem _ h))
    have hdrawn : after (past ++ .draw :: more) = (after past).draw.window.handleAll random more :=
      handleAll_append ..
    rw [hdrawn] at hsame ⊢
    rw [shown_handleAll_of_drawn (shouldDraw_draw _) hmore
      (hsame.trans (presentations_draw _).symm), shown_draw]

/-- Once the window has been drawn, what a frame draws before it waits for a key is not shown. -/
theorem unpresented_pixels_hidden_after_draw :
    let random : Nat → Int := fun _ => 0
    let p : Program := ⟨[0xD0, 0x05, 0xF0, 0x0A], by decide, by decide⟩
    let opened := fresh p 10 false
    let events : List WindowEvent := [.draw, .tick]
    let w := opened.handleAll random events
    (start [0xD0, 0x05, 0xF0, 0x0A] 10 false).window = .ok opened ∧
      .keyDown .backspace ∉ events ∧ w.presentations = 0 ∧ w.machine.screen.lit 0 0 = true ∧
      w.shown = .ofScreen (.dark screenWidth screenHeight) := by
  intro random p opened events w
  have hopen : (start [0xD0, 0x05, 0xF0, 0x0A] 10 false).window = .ok opened :=
    start_eq_ok_iff.mpr ⟨p, Program.ofNumbers_eq_ok_iff.mpr rfl, rfl⟩
  have hevents : .keyDown .backspace ∉ events := by decide
  have hnone : w.presentations = 0 := by decide +kernel
  have hlit : w.machine.screen.lit 0 0 = true := by decide +kernel
  have hshown := (shown_eq_presented_iff hopen random hevents).2.2 [] [.tick] List.prefix_rfl hnone
  exact ⟨hopen, hevents, hnone, hlit, hshown.trans (shown_fresh p 10 false)⟩

/-- Before the first draw, what a frame draws before it waits for a key is shown, although no frame
has presented it. -/
theorem unpresented_pixels_shown_by_first_draw :
    let random : Nat → Int := fun _ => 0
    let p : Program := ⟨[0xD0, 0x05, 0xF0, 0x0A], by decide, by decide⟩
    let opened := fresh p 10 false
    let w := opened.handleAll random [.tick]
    let dark : Picture := .ofScreen (.dark screenWidth screenHeight)
    (start [0xD0, 0x05, 0xF0, 0x0A] 10 false).window = .ok opened ∧
      w.machine.cpu.mode = .waiting ∧ w.presentations = 0 ∧
      opened.presented random dark [.tick] = dark ∧ w.shown ≠ dark := by
  intro random p opened w dark
  have hmark : w.machine.screen.shouldDraw = true := by decide +kernel
  have hnone : w.presentations = 0 := by decide +kernel
  have hlit : w.machine.screen.lit 0 0 = true := by decide +kernel
  have hpresented : opened.presented random dark [.tick] = dark := by
    have hlt : ¬ opened.presentations < w.presentations := by omega
    exact if_neg hlt
  refine ⟨start_eq_ok_iff.mpr ⟨p, Program.ofNumbers_eq_ok_iff.mpr rfl, rfl⟩, by decide +kernel,
    hnone, hpresented, fun hdark => ?_⟩
  rw [shown_of_shouldDraw hmark] at hdark
  have hrows := Picture.ofScreen_eq_iff.mp hdark
  simp only [Screen.lit, Screen.get, hrows] at hlit
  exact absurd hlit (by decide +kernel)

end Window

end Chip8
