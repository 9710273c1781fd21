import Chip8.Proofs.Shutdown
import Chip8.Proofs.Timers
import Mathlib.Data.List.Induction

/-!
# Closing the window

A window is closed by Escape, by the host, or by the tick whose frame faults, and by nothing else
(`Window.closing_iff`). The host's close gives up the player of the tone. The other two leave the
tone as it is, so it goes on sounding if the last of the events that ask something of it asked for
it (`Window.sounding_after_closing_iff`): a beep outlives Escape and the end of the session by a
fault (`Window.tone_outlives_escape_and_fault`).
-/

namespace Chip8

namespace Player

/-- A player that is started sounds. -/
theorem isSounding_start (f : Int) (t : Player) :
    (ToneGenerator.start f t).1.isSounding = true := by
  obtain ⟨wave⟩ := t
  cases wave <;> rfl

/-- A player that is stopped does not sound. -/
theorem isSounding_stop (t : Player) : (ToneGenerator.stop t).1.isSounding = false := by
  obtain ⟨wave⟩ := t
  cases wave <;> rfl

/-- Stopping pauses and gives up the player, if there is one. -/
theorem signals_stop (t : Player) :
    (ToneGenerator.stop t).2 = if t.isSounding then [.paused, .deleted] else [] := by
  obtain ⟨wave⟩ := t
  cases wave <;> rfl

end Player

/-- A frame that fails leaves the tone as it is. -/
theorem Machine.tone_of_frame_error {w h : Nat} {τ : Type} [ToneGenerator τ] {m : Machine w h τ}
    {random : Nat → Int} {e : Error} (he : (m.frame random).error = some e) :
    (m.frame random).machine.tone = m.tone := by
  obtain hcompletes | hidle := completes_or_idle_frame random m
  · have hnone : (m.frame random).error = none :=
      (of_decide_eq_true hcompletes.isCompleted_eq).2.2.1
    cases hnone.symm.trans he
  · exact hidle.tone

namespace Window

/-- The tone is being heard. -/
def isSounding (w : Window) : Bool := w.machine.tone.isSounding

/-- What an event asks of the tone, if anything: to be heard, or to be silent. A completed frame
asks for the tone while the sound timer has not run out. -/
def toneAsked? (random : Nat → Int) (w : Window) : WindowEvent → Option Bool
  | .tick =>
    let next := (w.tick random).window.machine
    if w.machine.screen.framesPresented < next.screen.framesPresented then
      some (decide (next.cpu.sound ≠ 0))
    else none
  | .startTone _ => some true
  | .keyDown .backspace | .close | .stopTone => some false
  | .draw | .keyDown _ | .keyUp _ => none

/-- What the last of the events that ask something of the tone asks. -/
def lastToneAsked? (random : Nat → Int) (w : Window) : List WindowEvent → Option Bool
  | [] => none
  | e :: events =>
    ((w.handle random e).window.lastToneAsked? random events).or (w.toneAsked? random e)

/-- A tick asks for the tone, asks for silence or leaves the tone alone. -/
theorem isSounding_tick (random : Nat → Int) (w : Window) :
    (w.tick random).window.isSounding = (w.toneAsked? random .tick).getD w.isSounding := by
  have hmachine : (w.tick random).window.machine = (w.act random .tick).machine :=
    (handle_eq random w .tick).1
  simp only [toneAsked?, isSounding, hmachine, act]
  split
  · simp [Machine.idle]
  · obtain hcompletes | hidle := Machine.completes_or_idle_frame random w.machine
    · have hlt : w.machine.screen.framesPresented <
          (w.machine.frame random).machine.screen.framesPresented := by
        have hframes := hcompletes.framesPresented
        dsimp only at hframes
        omega
      have htone := hcompletes.tone
      dsimp only at htone
      rw [htone, if_pos hlt, Option.getD_some]
      split
      · rename_i hzero
        rw [Player.isSounding_stop, decide_eq_false (not_not_intro hzero)]
      · rename_i hsound
        rw [Player.isSounding_start, decide_eq_true hsound]
    · have hframes := hidle.framesPresented
      dsimp only at hframes
      rw [hframes, if_neg (Nat.lt_irrefl _), Option.getD_none]
      exact congrArg Player.isSounding hidle.tone

/-- After an event the tone is as the event asks, or as before. -/
theorem isSounding_handle (random : Nat → Int) (w : Window) (e : WindowEvent) :
    (w.handle random e).window.isSounding = (w.toneAsked? random e).getD w.isSounding := by
  cases e with
  | tick => exact isSounding_tick random w
  | draw =>
    simp only [handle, draw]
    split <;> rfl
  | keyDown k =>
    have hpress : ∀ key : Int, (w.machine.press key).machine.tone = w.machine.tone := by
      intro key
      obtain ⟨cpu, hpress⟩ := Machine.press_machine w.machine key
      rw [hpress]
    cases k with
    | backspace => exact Player.isSounding_stop w.machine.tone
    | escape | f1 | other => rfl
    | _ => exact congrArg Player.isSounding (hpress _)
  | keyUp k =>
    simp only [handle, keyUp]
    split <;> rfl
  | close | stopTone => exact Player.isSounding_stop w.machine.tone
  | startTone f => exact Player.isSounding_start f w.machine.tone

/-- After any events the tone is as the last of those that ask something of it asks, or as before.
-/
theorem isSounding_handleAll (random : Nat → Int) (w : Window) (events : List WindowEvent) :
    (w.handleAll random events).isSounding =
      (w.lastToneAsked? random events).getD w.isSounding := by
  induction events generalizing w with
  | nil => rfl
  | cons e events ih =>
    rw [lastToneAsked?, Option.getD_or, ← isSounding_handle]
    exact ih (w.handle random e).window

/-- The ways in which an event closes a window. -/
inductive Closing (random : Nat → Int) (w : Window) : WindowEvent → Prop where
  | escape : Closing random w (.keyDown .escape)
  /-- The host closes the window. -/
  | asked : Closing random w .close
  /-- A fault ends the session. -/
  | faulted {f : Fault} (hexit : w.exiting = false)
      (herror : (w.machine.frame random).error = some (.fault f)) : Closing random w .tick

/-- Only the host's own closing is gone on with. -/
theorem finishClosing_not_mem (random : Nat → Int) (w : Window) {e : WindowEvent}
    (he : e ≠ .close) : .finishClosing ∉ (w.handle random e).calls := by
  by_cases hdraw : e = .draw
  · subst hdraw
    simp only [handle, draw]
    split <;> simp
  · intro hmem
    obtain ⟨s, hs⟩ | hs | hs | ⟨-, hclose⟩ := cases_of_mem_calls hdraw hmem
    · cases hs
    · cases hs
    · cases hs
    · exact he hclose

/-- An event closes the window in one of these ways exactly if it makes one of the two requests that
close it. -/
theorem closing_iff (random : Nat → Int) (w : Window) (e : WindowEvent) :
    Closing random w e ↔
      .close ∈ (w.handle random e).calls ∨ .finishClosing ∈ (w.handle random e).calls := by
  constructor
  · intro hclosing
    cases hclosing with
    | escape => exact .inl (List.mem_singleton_self _)
    | asked => exact .inr (List.mem_append_right _ (List.mem_singleton_self _))
    | faulted hexit herror =>
      have htick : w.handle random .tick = _ := tick_of_fault hexit herror
      rw [htick]
      exact .inl (List.mem_cons_of_mem _ (List.mem_singleton_self _))
  · rintro (hclose | hfinish)
    · obtain ⟨hexit, rfl, f, herror⟩ | hsame := ends_or_same w random e
      · exact .faulted hexit herror
      · have hclosed := (quiet_handle hsame).closed
        by_cases he : e = .keyDown .escape
        · rw [he]
          exact .escape
        · rw [if_neg he, List.count_eq_zero] at hclosed
          exact absurd hclose hclosed
    · by_cases he : e = .close
      · rw [he]
        exact .asked
      · exact absurd hfinish (finishClosing_not_mem random w he)

/-- Stopping the tone has the host pause and give up its player, if there is one. -/
theorem hostCalls_stopTone (m : WindowMachine) :
    hostCalls m.stopTone.2 =
      if m.tone.isSounding then [.sound .paused, .sound .deleted] else [] := by
  have hsignals := Player.signals_stop m.tone
  cases hsounding : m.tone.isSounding <;>
  · rw [hsounding] at hsignals
    simp only [Machine.stopTone, hsignals]
    rfl

/-- An event other than the host's close that closes the window leaves the tone as it is. -/
theorem Closing.tone_eq {random : Nat → Int} {w : Window} {e : WindowEvent}
    (hclosing : Closing random w e) (he : e ≠ .close) :
    (w.handle random e).window.machine.tone = w.machine.tone ∧
      ∀ s, .sound s ∉ (w.handle random e).calls := by
  cases hclosing with
  | escape => exact ⟨rfl, by simp [handle, keyDown]⟩
  | asked => exact absurd rfl he
  | faulted hexit herror =>
    have htick : w.handle random .tick = _ := tick_of_fault hexit herror
    rw [htick]
    exact ⟨Machine.tone_of_frame_error herror, by simp⟩

/-- In every run of a window that has opened the tone sounds exactly if the last event that asked
something of it asked for it. An event that closes the window does so in one of three ways. The
host's close silences the tone, and gives up its player if there is one. Escape and the tick that
faults ask nothing of the tone, so it sounds on exactly if it sounded before. -/
theorem sounding_after_closing_iff {numbers : List Int} {speed : Int} {logging : Bool}
    {opened : Window} (hopen : (start numbers speed logging).window = .ok opened)
    (random : Nat → Int) (events : List WindowEvent) :
    let w := opened.handleAll random events
    (w.isSounding = true ↔ opened.lastToneAsked? random events = some true) ∧
    (∀ e, Closing random w e ↔
      .close ∈ (w.handle random e).calls ∨ .finishClosing ∈ (w.handle random e).calls) ∧
    (∀ e, Closing random w e → ((w.handle random e).window.isSounding = true ↔
      e ≠ .close ∧ opened.lastToneAsked? random events = some true)) ∧
    (∀ e, Closing random w e → e ≠ .close → ∀ s, .sound s ∉ (w.handle random e).calls) ∧
    (w.handle random .close).calls =
      (if w.isSounding then [.sound .paused, .sound .deleted] else []) ++ [.finishClosing] := by
  intro w
  have hsounding : w.isSounding = true ↔ opened.lastToneAsked? random events = some true := by
    have hrun := isSounding_handleAll random opened events
    obtain ⟨p, -, rfl⟩ := start_eq_ok_iff.mp hopen
    have hbegin : (fresh p speed logging).isSounding = false := rfl
    rw [hrun, hbegin]
    cases (fresh p speed logging).lastToneAsked? random events with
    | none => exact ⟨by rintro ⟨⟩, by rintro ⟨⟩⟩
    | some asked => exact Option.some_inj.symm
  refine ⟨hsounding, closing_iff random w, fun e hclosing => ?_,
    fun e hclosing he => (hclosing.tone_eq he).2, ?_⟩
  · by_cases he : e = .close
    · subst he
      have hsilent : (w.handle random .close).window.isSounding = false :=
        Player.isSounding_stop w.machine.tone
      rw [hsilent]
      exact ⟨by rintro ⟨⟩, fun h => absurd rfl h.1⟩
    · have hsame : (w.handle random e).window.isSounding = w.isSounding :=
        congrArg Player.isSounding (hclosing.tone_eq he).1
      rw [hsame, hsounding]
      exact ⟨fun h => ⟨he, h⟩, fun h => h.2⟩
  · exact congrArg (· ++ [HostCall.finishClosing]) (hostCalls_stopTone w.machine)

/-- The host's close silences the tone that a frame has started. -/
theorem sounding_after_closing_iff_at_beep :
    let random : Nat → Int := fun _ => 0
    let p : Program := ⟨[0x61, 0x05, 0xF1, 0x18, 0x12, 0x04], by decide, by decide⟩
    let opened := fresh p 10 false
    let w := opened.handleAll random [.tick]
    (start [0x61, 0x05, 0xF1, 0x18, 0x12, 0x04] 10 false).window = .ok opened ∧
      w.isSounding = true ∧ (w.handle random .close).window.isSounding = false ∧
      (w.handle random .close).calls = [.sound .paused, .sound .deleted, .finishClosing] := by
  intro random p opened w
  have hopen : (start [0x61, 0x05, 0xF1, 0x18, 0x12, 0x04] 10 false).window = .ok opened :=
    start_bytes p 10 false
  have hbeep : w.isSounding = true := by decide +kernel
  obtain ⟨-, -, hafter, -, hcalls⟩ := sounding_after_closing_iff hopen random [.tick]
  have hsilent : (w.handle random .close).window.isSounding = false :=
    Bool.eq_false_iff.mpr fun h => ((hafter .close .asked).mp h).1 rfl
  exact ⟨hopen, hbeep, hsilent, hcalls.trans (by rw [if_pos hbeep]; rfl)⟩

/-- A tone that a frame has started outlives Escape, and it outlives the tick that faults while the
sound timer still runs. -/
theorem tone_outlives_escape_and_fault :
    let random : Nat → Int := fun _ => 0
    let p : Program := ⟨[0x61, 0x05, 0xF1, 0x18, 0xFF, 0xFF], by decide, by decide⟩
    let opened := fresh p 2 false
    let w := opened.handleAll random [.tick]
    (start [0x61, 0x05, 0xF1, 0x18, 0xFF, 0xFF] 2 false).window = .ok opened ∧
      Closing random w (.keyDown .escape) ∧ Closing random w .tick ∧
      (w.handle random (.keyDown .escape)).window.isSounding = true ∧
      (w.handle random .tick).window.isSounding = true := by
  intro random p opened w
  have herror : (w.machine.frame random).error =
      some (.fault ⟨.unknownOpcode, 0xFFFF, 0x204⟩) := by decide +kernel
  have hexit : w.exiting = false := by decide +kernel
  exact ⟨start_bytes p 2 false, .escape, .faulted hexit herror, by decide +kernel,
    by decide +kernel⟩

end Window

end Chip8
