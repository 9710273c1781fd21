import Chip8.Proofs.Fault
import Chip8.Proofs.Session

/-!
# How a session ends

A screen with pixels lets a frame fail with a fault only (`Machine.exists_fault_of_frame_error`), and
the window catches it: no reaction lets an error escape (`Window.error_handle`). The tick that
catches a fault ends the session, and no other event does. Over a whole run the ticks are
unscheduled and the error is reported as often as the session has ended, that is at most once, and
the window is closed once more for each Escape (`Window.session_ends_once`).
-/

namespace Chip8

/-- How the line begins that reports the fault which has ended a session. -/
def reportHead : String := "Emulation error: "

/-- The line reports the fault that has ended a session. -/
def isReport (line : String) : Bool := reportHead.toList.isPrefixOf line.toList

/-- The text and the beginning of a report differ at some place. -/
def Diverges (text : String) : Prop :=
  ¬ reportHead.toList <+: text.toList ∧ ¬ text.toList <+: reportHead.toList

instance (text : String) : Decidable (Diverges text) := inferInstanceAs (Decidable (_ ∧ _))

namespace Diverges

/-- What follows the place where they differ does not matter. -/
theorem append {text : String} (htext : Diverges text) (tail : String) :
    Diverges (text ++ tail) := by
  rw [Diverges, String.toList_append]
  constructor
  · intro hreport
    obtain h | h := List.prefix_or_prefix_of_prefix hreport (List.prefix_append text.toList _)
    · exact htext.1 h
    · exact htext.2 h
  · intro hshort
    exact htext.2 ((List.prefix_append ..).trans hshort)

/-- A line that differs from the beginning of a report is none. -/
theorem isReport_eq {line : String} (hline : Diverges line) : isReport line = false := by
  rw [isReport, Bool.eq_false_iff, ne_eq, List.isPrefixOf_iff_prefix]
  exact hline.1

/-- A remark for the activity log begins otherwise than a report. -/
theorem note (n : Note) : Diverges n.text := by
  cases n with
  | returned | jumped | called | indexSet | spriteDrawn | awaitingKey | readingFile | halted =>
    exact append (by decide +kernel) _
  | sysIgnored | programLoaded => exact append (append (by decide +kernel) _) _
  | registerSet | jumpedFrom | keyStored =>
    exact append (append (append (by decide +kernel) _) _) _

end Diverges

/-- Nothing that is written to the activity log is a report. -/
theorem countP_isReport_logLines (logging : Bool) (events : List Event) :
    (logLines logging events).countP isReport = 0 := by
  rw [List.countP_eq_zero]
  intro line hline
  unfold logLines at hline
  split at hline
  · obtain ⟨e, -, he⟩ := List.mem_filterMap.mp hline
    have hdiverges : Diverges line := by
      unfold Event.line? at he
      split at he
      · cases he
        decide +kernel
      · cases he
        decide +kernel
      · cases he
        exact .note _
      · cases he
    rw [hdiverges.isReport_eq]
    rintro ⟨⟩
  · exact absurd hline List.not_mem_nil

namespace Machine

variable {w h : Nat} {τ : Type} {m : Machine w h τ}

/-- On a screen with pixels a step fails with a fault only. -/
theorem isFault_of_step_error (hw : 0 < w) (hh : 0 < h) {random : Nat → Int} {e : Error}
    (he : (m.step random).error = some e) : e.isFault = true := by
  obtain ⟨_, hs⟩ | ⟨i, e', _, hr, hs⟩ | ⟨i, _, _, hs⟩ := step_cases random m
  · rw [hs] at he
    cases he
    rfl
  · rw [hs] at he
    cases he
    obtain ⟨-, -, rfl⟩ | ⟨nnn, -, -, rfl⟩ := (refusal?_eq_some_iff hw hh).mp hr <;> rfl
  · rw [hs] at he
    cases he

/-- A press never fails: a machine that is told of it and waits has a register for the key. -/
theorem KeyWait.press_error (hm : m.KeyWait) (key : Int) : (m.press key).error = none := by
  by_cases hmode : m.cpu.mode = .waiting
  · obtain ⟨x, -, hpress⟩ := hm.press_of_waiting hmode key
    rw [hpress]
  · rw [hm.press_of_not_waiting hmode]
    rfl

/-- A press does not halt the machine. -/
theorem KeyWait.halted_press (hm : m.KeyWait) {key : Int}
    (hhalted : (m.press key).machine.cpu.mode = .halted) : m.cpu.mode = .halted := by
  by_cases hmode : m.cpu.mode = .waiting
  · obtain ⟨x, -, hpress⟩ := hm.press_of_waiting hmode key
    rw [hpress] at hhalted
    cases hhalted
  · rw [hm.press_of_not_waiting hmode] at hhalted
    exact hhalted

variable [ToneGenerator τ]

/-- On a screen with pixels a frame fails with a fault only. -/
theorem exists_fault_of_frame_error (hw : 0 < w) (hh : 0 < h) {random : Nat → Int} {e : Error}
    (he : (m.frame random).error = some e) : ∃ f, e = .fault f := by
  have hending := frame_ending random m
  generalize m.frame random = o at hending he
  cases hending with
  | skipped => cases he
  | completed => cases he
  | blocked _ _ hnone => cases hnone.symm.trans he
  | faulted => exact ⟨_, (Option.some.inj he).symm⟩
  | failed _ _ hfailed hf =>
    cases (isFault_of_step_error hw hh hfailed).symm.trans hf

/-- A frame halts the machine only if it faults. -/
theorem halted_frame {random : Nat → Int} (hhalted : (m.frame random).machine.cpu.mode = .halted) :
    m.cpu.mode = .halted ∨ ∃ f, (m.frame random).error = some (.fault f) := by
  have hending := frame_ending random m
  generalize m.frame random = o at hending hhalted ⊢
  cases hending with
  | skipped => exact .inl hhalted
  | completed hm hk => cases hhalted.symm.trans (hk.mode_eq hm)
  | blocked _ _ _ hwaiting => cases hhalted.symm.trans hwaiting
  | faulted => exact .inr ⟨_, rfl⟩
  | failed hm hj hfailed => cases hhalted.symm.trans (hj.mode_eq_of_error hm hfailed)

/-- A frame that faults gives no sign of the tone. -/
theorem signal?_of_frame_fault {random : Nat → Int} {f : Fault}
    (he : (m.frame random).error = some (.fault f)) {e : Event}
    (hmem : e ∈ (m.frame random).events) : e.signal? = none := by
  have hplain : e.endsFrame = false := by
    have hending := frame_ending random m
    generalize m.frame random = o at hending he hmem
    cases hending with
    | skipped => cases he
    | completed => cases he
    | blocked _ _ hnone => cases hnone.symm.trans he
    | faulted =>
      obtain hmem | rfl := Array.mem_push.mp hmem
      · exact endsFrame_of_mem_steps hmem
      · rfl
    | failed => exact endsFrame_of_mem_steps hmem
  cases e with
  | signal s => cases hplain
  | _ => rfl

end Machine

namespace Window

/-- No reaction lets an error escape. -/
theorem error_handle {w : Window} (hw : w.machine.KeyWait) (random : Nat → Int)
    (e : WindowEvent) : (w.handle random e).error = none := by
  cases e with
  | tick =>
    simp only [handle, tick]
    split
    · rfl
    · split
      · rfl
      · rename_i hnotFault
        cases herror : (w.machine.frame random).error with
        | none => exact herror
        | some e =>
          obtain ⟨f, rfl⟩ :=
            Machine.exists_fault_of_frame_error (by decide) (by decide) herror
          exact absurd herror (hnotFault f)
  | draw =>
    simp only [handle, draw]
    split <;> rfl
  | keyDown k =>
    cases k with
    | escape | f1 | backspace | other => rfl
    | _ => exact hw.press_error _
  | keyUp k =>
    simp only [handle, keyUp]
    split <;> rfl
  | close | startTone | stopTone => rfl

/-- The tick that ends the session stops the ticks, closes the window and reports the fault. -/
theorem tick_of_fault {w : Window} (hexit : w.exiting = false) {random : Nat → Int} {f : Fault}
    (herror : (w.machine.frame random).error = some (.fault f)) :
    let o := w.machine.frame random
    w.tick random =
      { window := { w with machine := o.machine, exiting := true }
        calls := [.unscheduleTicks, .close]
        lines := logLines w.logging o.events.toList ++ [reportHead ++ f.message] } := by
  intro o
  have hsilent : hostCalls o.events.toList = [] := by
    rw [hostCalls, List.filterMap_eq_nil_iff]
    intro e he
    rw [Machine.signal?_of_frame_fault herror (Array.mem_toList_iff.mp he)]
    rfl
  simp only [tick, hexit, Bool.false_eq_true, ite_false, herror, afterOutcome, afterChange]
  rw [hsilent]
  rfl

/-- Only the tick of a session that goes on can fault. -/
theorem fault_of_act {w : Window} {random : Nat → Int} {e : WindowEvent}
    (hfault : (w.act random e).error.any Error.isFault = true) :
    e = .tick ∧ ∃ f, (w.machine.frame random).error = some (.fault f) := by
  cases e with
  | tick =>
    refine ⟨rfl, ?_⟩
    simp only [act] at hfault
    split at hfault
    · cases hfault
    · obtain ⟨e, he, hf⟩ := (Option.any_eq_true ..).mp hfault
      cases e with
      | fault f => exact ⟨f, he⟩
      | load | badValue | noPixels | noKeyRegister => cases hf
  | keyDown k =>
    cases k with
    | escape | f1 | backspace | other => cases hfault
    | _ => cases hfault.symm.trans (press_isFault ..)
  | keyUp k =>
    simp only [act] at hfault
    split at hfault <;> cases hfault
  | draw | close | startTone | stopTone => cases hfault

/-- What an event does to the machine halts it only by a fault. -/
theorem halted_act {w : Window} (hw : w.machine.KeyWait) {random : Nat → Int} {e : WindowEvent}
    (hhalted : (w.act random e).machine.cpu.mode = .halted) :
    w.machine.cpu.mode = .halted ∨ (w.act random e).error.any Error.isFault = true := by
  cases e with
  | tick =>
    simp only [act] at hhalted ⊢
    split at hhalted
    · exact .inl hhalted
    · rename_i hexit
      obtain h | ⟨f, hf⟩ := Machine.halted_frame hhalted
      · exact .inl h
      · rw [if_neg hexit, hf]
        exact .inr rfl
  | keyDown k =>
    cases k with
    | escape | f1 | other => exact .inl hhalted
    | backspace => cases hhalted
    | _ => exact .inl (hw.halted_press hhalted)
  | keyUp k =>
    simp only [act] at hhalted
    split at hhalted <;> exact .inl hhalted
  | draw | close | startTone | stopTone => exact .inl hhalted

/-- In a reachable window a halted machine has ended the session. -/
theorem Reachable.exiting_of_halted {w : Window} (hw : Reachable w)
    (hhalted : w.machine.cpu.mode = .halted) : w.exiting = true := by
  induction hw with
  | start hopen =>
    obtain ⟨p, -, rfl⟩ := start_eq_ok_iff.mp hopen
    cases hhalted
  | @handle w hw random e ih =>
    obtain ⟨hmachine, -, hexiting⟩ := handle_eq random w e
    rw [hmachine] at hhalted
    rw [hexiting, Bool.or_eq_true]
    obtain h | hfault := halted_act hw.keyWait hhalted
    · exact .inl (ih h)
    · exact .inr hfault

/-- The requests that a machine makes of the host are about the tone. -/
theorem sound_of_mem_hostCalls {c : HostCall} {events : List Event} (hc : c ∈ hostCalls events) :
    ∃ s, c = .sound s := by
  obtain ⟨e, -, he⟩ := List.mem_filterMap.mp hc
  obtain ⟨s, -, hs⟩ := Option.map_eq_some_iff.mp he
  exact ⟨s, hs.symm⟩

/-- A machine makes no other request. -/
theorem count_hostCalls {c : HostCall} (hc : ∀ s, c ≠ .sound s) (events : List Event) :
    (hostCalls events).count c = 0 := by
  rw [List.count_eq_zero]
  intro hmem
  obtain ⟨s, hs⟩ := sound_of_mem_hostCalls hmem
  exact hc s hs

/-- What an event other than a draw asks of the host. -/
theorem cases_of_mem_calls {random : Nat → Int} {w : Window} {e : WindowEvent} (he : e ≠ .draw)
    {c : HostCall} (hc : c ∈ (w.handle random e).calls) :
    (∃ s, c = .sound s) ∨ c = .unscheduleTicks ∨ c = .close ∨ c = .finishClosing ∧ e = .close := by
  cases e with
  | tick =>
    simp only [handle, tick] at hc
    split at hc
    · cases hc
    · split at hc
      · obtain hc | hc := List.mem_append.mp hc
        · exact .inl (sound_of_mem_hostCalls hc)
        · right
          simpa using hc
      · exact .inl (sound_of_mem_hostCalls hc)
  | draw => exact absurd rfl he
  | keyDown k =>
    cases k with
    | escape => exact .inr (.inr (.inl (List.mem_singleton.mp hc)))
    | f1 | other => cases hc
    | _ => exact .inl (sound_of_mem_hostCalls hc)
  | keyUp k =>
    simp only [handle, keyUp] at hc
    split at hc <;> cases hc
  | close =>
    obtain hc | hc := List.mem_append.mp hc
    · exact .inl (sound_of_mem_hostCalls hc)
    · exact .inr (.inr (.inr ⟨List.mem_singleton.mp hc, rfl⟩))
  | startTone | stopTone => exact .inl (sound_of_mem_hostCalls hc)

/-- The reaction to an event does not speak of the end of the session, and closes the window only for
Escape. -/
structure Quiet (e : WindowEvent) (r : Reaction) : Prop where
  unscheduled : r.calls.count .unscheduleTicks = 0
  closed : r.calls.count .close = if e = .keyDown .escape then 1 else 0
  reported : r.lines.countP isReport = 0

/-- The reaction to a change of the machine is quiet. -/
theorem quiet_afterChange {e : WindowEvent} (he : e ≠ .keyDown .escape) (w : Window)
    (r : WindowMachine × List Event) : Quiet e (w.afterChange r) where
  unscheduled := count_hostCalls (by rintro s ⟨⟩) r.2
  closed := by
    rw [if_neg he]
    exact count_hostCalls (by rintro s ⟨⟩) r.2
  reported := countP_isReport_logLines w.logging r.2

/-- No reaction is quiet as well. -/
theorem quiet_still {e : WindowEvent} (he : e ≠ .keyDown .escape) (w : Window) :
    Quiet e w.still where
  unscheduled := rfl
  closed := by
    rw [if_neg he]
    rfl
  reported := rfl

/-- A reaction is quiet unless it ends the session. -/
theorem quiet_handle {w : Window} {random : Nat → Int} {e : WindowEvent}
    (hsame : (w.handle random e).window.exiting = w.exiting) : Quiet e (w.handle random e) := by
  cases e with
  | tick =>
    by_cases hexit : w.exiting = true
    · simp only [handle, tick, if_pos hexit]
      exact quiet_still (by rintro ⟨⟩) w
    · simp only [handle, tick, if_neg hexit] at hsame ⊢
      split at hsame
      · exact absurd hsame.symm hexit
      · have hquiet := quiet_afterChange (e := .tick) (by rintro ⟨⟩) w
          ((w.machine.frame random).machine, (w.machine.frame random).events.toList)
        exact ⟨hquiet.unscheduled, hquiet.closed, hquiet.reported⟩
  | draw =>
    simp only [handle, draw]
    split <;> exact ⟨by simp, by simp, rfl⟩
  | keyDown k =>
    cases k with
    | escape => exact ⟨rfl, rfl, rfl⟩
    | f1 =>
      refine ⟨rfl, rfl, ?_⟩
      have hline : ∀ state, isReport ("logs_on: " ++ state) = false := fun state =>
        (Diverges.append (by decide +kernel) state).isReport_eq
      simp [handle, keyDown, toggleLogging, hline]
    | backspace => exact quiet_afterChange (by rintro ⟨⟩) w _
    | other => exact quiet_still (by rintro ⟨⟩) w
    | _ =>
      have hquiet := quiet_afterChange (e := .tick) (by rintro ⟨⟩) w
      exact ⟨(hquiet _).unscheduled, (hquiet _).closed, (hquiet _).reported⟩
  | keyUp k =>
    simp only [handle, keyUp]
    split <;> exact quiet_still (by rintro ⟨⟩) _
  | close =>
    have hquiet := quiet_afterChange (e := .close) (by rintro ⟨⟩) w w.machine.stopTone
    refine ⟨?_, ?_, hquiet.reported⟩
    · simp only [handle, close, List.count_append, hquiet.unscheduled]
      rfl
    · simp only [handle, close, List.count_append, hquiet.closed]
      rfl
  | startTone | stopTone => exact quiet_afterChange (by rintro ⟨⟩) w _

/-- An event ends the session by a fault, or leaves its end as it was. -/
theorem ends_or_same (w : Window) (random : Nat → Int) (e : WindowEvent) :
    (w.exiting = false ∧ e = .tick ∧ ∃ f, (w.machine.frame random).error = some (.fault f)) ∨
      (w.handle random e).window.exiting = w.exiting := by
  obtain ⟨-, -, hexiting⟩ := handle_eq random w e
  by_cases hexit : w.exiting = true
  · right
    rw [hexiting, hexit, Bool.true_or]
  · have hopen : w.exiting = false := Bool.eq_false_iff.mpr hexit
    by_cases hfault : (w.act random e).error.any Error.isFault = true
    · exact .inl ⟨hopen, fault_of_act hfault⟩
    · right
      rw [hexiting, Bool.eq_false_iff.mpr hfault, Bool.or_false]

/-- What the reactions to events have done, as far as the end of the session is concerned. -/
structure Tally (before after : Window) (events : List WindowEvent) (calls : List HostCall)
    (lines : List String) : Prop where
  unscheduled : before.exiting.toNat + calls.count .unscheduleTicks = after.exiting.toNat
  closed : before.exiting.toNat + calls.count .close =
    after.exiting.toNat + events.count (.keyDown .escape)
  reported : before.exiting.toNat + lines.countP isReport = after.exiting.toNat

/-- The end of the session is told once, when it comes. -/
theorem tally_handle (w : Window) (random : Nat → Int) (e : WindowEvent) :
    Tally w (w.handle random e).window [e] (w.handle random e).calls
      (w.handle random e).lines := by
  obtain ⟨hexit, rfl, f, herror⟩ | hsame := ends_or_same w random e
  · have htick : w.handle random .tick = _ := tick_of_fault hexit herror
    have hreport : isReport (reportHead ++ f.message) = true := by
      rw [isReport, String.toList_append, List.isPrefixOf_iff_prefix]
      exact List.prefix_append ..
    rw [htick]
    refine ⟨by rw [hexit]; rfl, by rw [hexit]; rfl, ?_⟩
    rw [hexit, List.countP_append, countP_isReport_logLines, List.countP_singleton, hreport]
    rfl
  · have hquiet := quiet_handle hsame
    refine ⟨?_, ?_, ?_⟩
    · rw [hsame, hquiet.unscheduled, Nat.add_zero]
    · rw [hsame, hquiet.closed, List.count_singleton]
      simp only [beq_iff_eq]
    · rw [hsame, hquiet.reported, Nat.add_zero]

/-- The reactions to a list of events, in order. -/
def reactions (random : Nat → Int) (w : Window) : List WindowEvent → List Reaction
  | [] => []
  | e :: events => w.handle random e :: (w.handle random e).window.reactions random events

/-- Over a run the end of the session is told as often as it comes. -/
theorem tally_reactions (w : Window) (random : Nat → Int) (events : List WindowEvent) :
    Tally w (w.handleAll random events) events
      ((w.reactions random events).flatMap Reaction.calls)
      ((w.reactions random events).flatMap Reaction.lines) := by
  induction events generalizing w with
  | nil => exact ⟨rfl, rfl, rfl⟩
  | cons e events ih =>
    have hfirst := tally_handle w random e
    have hrest := ih (w.handle random e).window
    refine ⟨?_, ?_, ?_⟩
    · have hafter := hrest.unscheduled
      rw [← hfirst.unscheduled] at hafter
      rw [reactions, List.flatMap_cons, List.count_append, ← Nat.add_assoc]
      exact hafter
    · have hafter := hrest.closed
      have hbefore := hfirst.closed
      rw [List.count_singleton] at hbefore
      rw [reactions, List.flatMap_cons, List.count_append, List.count_cons]
      change _ = ((w.handle random e).window.handleAll random events).exiting.toNat + _
      omega
    · have hafter := hrest.reported
      rw [← hfirst.reported] at hafter
      rw [reactions, List.flatMap_cons, List.countP_append, ← Nat.add_assoc]
      exact hafter

/-- No reaction of a reachable window lets an error escape, in a whole run. -/
theorem Reachable.error_reactions {w : Window} (hw : Reachable w) {random : Nat → Int}
    {events : List WindowEvent} {r : Reaction} (hr : r ∈ w.reactions random events) :
    r.error = none := by
  induction events generalizing w with
  | nil => exact absurd hr List.not_mem_nil
  | cons e events ih =>
    obtain rfl | hr := List.mem_cons.mp hr
    · exact error_handle hw.keyWait random e
    · exact ih (hw.handle random e) hr

/-- A session that has ended stays so. -/
theorem exiting_handleAll {w : Window} (hexit : w.exiting = true) (random : Nat → Int)
    (events : List WindowEvent) : (w.handleAll random events).exiting = true := by
  induction events generalizing w with
  | nil => exact hexit
  | cons e events ih =>
    apply ih
    rw [(handle_eq random w e).2.2, hexit, Bool.true_or]

/-- A window keeps its program. -/
theorem program_handleAll (w : Window) (random : Nat → Int) (events : List WindowEvent) :
    (w.handleAll random events).program = w.program := by
  induction events generalizing w with
  | nil => rfl
  | cons e events ih => exact (ih _).trans (handle_eq random w e).2.1

/-- Over every run of a window that has opened: no error escapes, and the program it was opened on
can be loaded again at any time, as a restart does. A halted machine has ended the session. The
session ends only in a tick whose frame faults; that tick stops the ticks, closes the window and
reports the fault. Ticks are stopped and a fault is reported as often as the session has ended, so at
most once; the window is closed as often, and once for each Escape. When the session has ended no
tick does anything any more, whatever else happens. -/
theorem session_ends_once {numbers : List Int} {speed : Int} {logging : Bool} {opened : Window}
    (hopen : (start numbers speed logging).window = .ok opened) (random : Nat → Int)
    (events : List WindowEvent) :
    let w := opened.handleAll random events
    let reactions := opened.reactions random events
    let calls := reactions.flatMap Reaction.calls
    let lines := reactions.flatMap Reaction.lines
    let reloaded := w.machine.reset.1.loadNumbers numbers
    (∀ r ∈ reactions, r.error = none) ∧
    (reloaded.error = none ∧
      reloaded.machine = (w.handle random (.keyDown .backspace)).window.machine) ∧
    (w.machine.cpu.mode = .halted → w.exiting = true) ∧
    (∀ e, w.exiting = false → (w.handle random e).window.exiting = true →
      e = .tick ∧ ∃ f, (w.machine.frame random).error = some (.fault f) ∧
        (w.handle random e).calls = [.unscheduleTicks, .close] ∧
        (w.handle random e).lines =
          logLines w.logging (w.machine.frame random).events.toList ++
            ["Emulation error: " ++ f.message]) ∧
    calls.count .unscheduleTicks = w.exiting.toNat ∧
    lines.countP isReport = w.exiting.toNat ∧
    calls.count .close = w.exiting.toNat + events.count (.keyDown .escape) ∧
    (w.exiting = true → ∀ later : List WindowEvent,
      (w.handleAll random later).handle random .tick = (w.handleAll random later).still) := by
  intro w reactions calls lines reloaded
  have hopened : Reachable opened := .start hopen
  have hw : Reachable w := hopened.handleAll random events
  obtain ⟨hunscheduled, hclosed, hreported⟩ := tally_reactions opened random events
  obtain ⟨p, hp, rfl⟩ := start_eq_ok_iff.mp hopen
  have hbegin : (fresh p speed logging).exiting.toNat = 0 := rfl
  rw [hbegin, Nat.zero_add] at hunscheduled hclosed hreported
  have hprogram : w.program = p := program_handleAll ..
  have hreloaded : reloaded =
      { Machine.done (w.machine.reset.1.load w.program) with answer := .number p.size } := by
    simp only [reloaded, Machine.loadNumbers, hp, hprogram]
  refine ⟨fun r hr => hopened.error_reactions hr,
    ⟨by rw [hreloaded]; rfl, by rw [hreloaded]; rfl⟩, hw.exiting_of_halted,
    fun e hexit hends => ?_, hunscheduled, hreported, hclosed, fun hexit later => ?_⟩
  · obtain ⟨-, rfl, f, herror⟩ | hsame := ends_or_same w random e
    · have htick : w.handle random .tick = _ := tick_of_fault hexit herror
      exact ⟨rfl, f, herror, by rw [htick], by rw [htick]; rfl⟩
    · cases (hsame.symm.trans hends).symm.trans hexit
  · have hlater := exiting_handleAll hexit random later
    simp only [handle, tick, if_pos hlater]

/-- A fault in the first tick ends the session. A restart then sets the machine running again, but
the next tick leaves it alone, and Escape closes the window a second time. -/
theorem session_ends_once_despite_restart :
    let random : Nat → Int := fun _ => 0
    let p : Program := ⟨[0xFF, 0xFF], by decide, by decide⟩
    let opened := fresh p 10 true
    let events : List WindowEvent := [.tick, .keyDown .backspace, .tick, .keyDown .escape]
    let w := opened.handleAll random events
    let calls := (opened.reactions random events).flatMap Reaction.calls
    let lines := (opened.reactions random events).flatMap Reaction.lines
    (start [0xFF, 0xFF] 10 true).window = .ok opened ∧ w.exiting = true ∧
      w.machine.cpu.mode = .running ∧ calls.count .unscheduleTicks = 1 ∧
      lines.countP isReport = 1 ∧ calls.count .close = 2 ∧ w.handle random .tick = w.still := by
  intro random p opened events w calls lines
  have hopen : (start [0xFF, 0xFF] 10 true).window = .ok opened :=
    start_eq_ok_iff.mpr ⟨p, Program.ofNumbers_eq_ok_iff.mpr rfl, rfl⟩
  have hexit : w.exiting = true := by decide +kernel
  obtain ⟨-, -, -, -, hunscheduled, hreported, hclosed, hstill⟩ :=
    session_ends_once hopen random events
  have hlast : (opened.handleAll random events).exiting.toNat = 1 := congrArg Bool.toNat hexit
  rw [hlast] at hunscheduled hreported hclosed
  exact ⟨hopen, hexit, by decide +kernel, hunscheduled, hreported, hclosed, hstill hexit []⟩

end Window

end Chip8
