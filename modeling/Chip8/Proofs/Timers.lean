import Chip8.Proofs.Driver

/-!
# Timers and tone over a run

The record of a driver tells what its timers and its tone are doing. Each timer shows what was last
stored in it less the frames that were completed since, the tone follows the last completed frame,
and every completed frame was presented (`Driven.timers_and_tone`). A frame that waits, fails or is
skipped is no completed frame: it leaves the tone and the screen's marks alone, and what it has
stored in a timer stays there (`Entry.Idle`).
-/

namespace Chip8

/-- The two timers of a machine. -/
inductive Timer where
  | delay
  | sound
  deriving DecidableEq

/-- The value that a timer shows. -/
def Cpu.timer (c : Cpu) : Timer → Byte
  | .delay => c.delay
  | .sound => c.sound

/-- The register that an instruction stores in a timer. -/
def Instruction.storesIn? : Timer → Instruction → Option Nibble
  | .delay, setDelay x => some x
  | .sound, setSound x => some x
  | _, _ => none

/-- The value that an event says was stored in a timer. -/
def Event.stored? : Timer → Event → Option Byte
  | .delay, delaySet b => some b
  | .sound, soundSet b => some b
  | _, _ => none

/-- The value that an operation has last stored in a timer. -/
def Outcome.stored? {w h : Nat} {τ : Type} (o : Outcome w h τ) (t : Timer) : Option Byte :=
  o.events.toList.reverse.findSome? (Event.stored? t)

namespace Outcome

variable {w h : Nat} {τ : Type}

/-- Events that follow store later. -/
theorem stored?_append (m : Machine w h τ) (before after : Array Event) (e : Option Error)
    (a : Answer) (t : Timer) :
    (⟨m, before ++ after, e, a⟩ : Outcome w h τ).stored? t =
      ((⟨m, after, e, a⟩ : Outcome w h τ).stored? t).or
        ((⟨m, before, e, a⟩ : Outcome w h τ).stored? t) := by
  simp only [stored?, Array.toList_append, List.reverse_append, List.findSome?_append]

/-- One more step stores later. -/
theorem stored?_next (random : Nat → Int) (o : Outcome w h τ) (t : Timer) :
    (o.next random).stored? t = ((o.machine.step random).stored? t).or (o.stored? t) :=
  stored?_append ..

/-- A halt stores nothing. -/
theorem stored?_haltedBy (o : Outcome w h τ) (f : Fault) (t : Timer) :
    (o.haltedBy f).stored? t = o.stored? t := by
  cases t <;> simp [stored?, haltedBy, List.findSome?_cons, Event.stored?]

/-- The end of a frame stores nothing. -/
theorem stored?_completed [ToneGenerator τ] (o : Outcome w h τ) (t : Timer) :
    o.completed.stored? t = o.stored? t := by
  have hsignals : ∀ signals : List Signal,
      (signals.map Event.signal).reverse.findSome? (Event.stored? t) = none := by
    intro signals
    rw [List.findSome?_eq_none_iff]
    intro e he
    obtain ⟨s, -, rfl⟩ := List.mem_map.mp (List.mem_reverse.mp he)
    cases t <;> rfl
  simp only [stored?, completed, Array.toList_appendList, List.reverse_append,
    List.findSome?_append, List.reverse_cons, hsignals]
  cases t <;> split <;> rfl

/-- The end of a frame takes one from each timer that is not zero. -/
theorem timer_completed [ToneGenerator τ] (o : Outcome w h τ) (t : Timer) :
    (o.completed.machine.cpu.timer t).toNat = (o.machine.cpu.timer t).toNat - 1 := by
  cases t with
  | delay => exact Byte.toNat_ofNat_sub_one o.machine.cpu.delay
  | sound => exact Byte.toNat_ofNat_sub_one o.machine.cpu.sound

/-- The end of a frame starts the tone unless the sound timer has run out, and stops it then. -/
theorem tone_completed [ToneGenerator τ] (o : Outcome w h τ) :
    o.completed.machine.tone =
      if o.completed.machine.cpu.sound = 0 then (ToneGenerator.stop o.machine.tone).1
      else (ToneGenerator.start toneFrequency o.machine.tone).1 := by
  have hzero := Byte.ofNat_sub_one_eq_zero_iff o.machine.cpu.sound
  by_cases hs : 0 < o.machine.cpu.sound.toNat - 1
  · have hsound : ¬ BitVec.ofNat 8 (o.machine.cpu.sound.toNat - 1) = 0 := fun e => hzero.mp e hs
    simp only [completed, if_pos hs, if_neg hsound]
  · have hsound : BitVec.ofNat 8 (o.machine.cpu.sound.toNat - 1) = 0 := hzero.mpr hs
    simp only [completed, if_neg hs, if_pos hsound]

end Outcome

namespace Machine

variable {w h : Nat} {τ : Type}

/-- An instruction stores the register that it names, if it is one that stores in the timer. -/
theorem stored?_execute (random : Nat → Int) (m : Machine w h τ) (i : Instruction) (t : Timer) :
    (m.execute random i).2.reverse.findSome? (Event.stored? t) = (i.storesIn? t).map m.reg := by
  cases i with
  | ret => cases hs : m.cpu.stack <;> cases t <;> simp only [execute, hs] <;> rfl
  | draw x y n =>
    have hnone : (Instruction.draw x y n).storesIn? t = none := by cases t <;> rfl
    rw [hnone, Option.map_none, List.findSome?_eq_none_iff]
    intro e he
    simp only [execute, List.mem_reverse, List.mem_append, List.mem_singleton] at he
    obtain he | rfl := he
    · obtain ⟨k, hk, rfl⟩ := List.getElem_of_mem he
      rw [List.getElem_zipWith]
      cases t <;> rfl
    · cases t <;> rfl
  | _ => cases t <;> rfl

/-- After an instruction a timer shows what the instruction has stored, or what it showed before. -/
theorem timer_execute (random : Nat → Int) (m : Machine w h τ) (i : Instruction) (t : Timer) :
    (m.execute random i).1.cpu.timer t =
      ((i.storesIn? t).map m.reg).getD (m.cpu.timer t) := by
  cases i with
  | ret => cases hs : m.cpu.stack <;> cases t <;> simp only [execute, hs] <;> rfl
  | skipEqByte | skipNeByte | skipEq | skipNe | skipKey | skipNoKey =>
    simp only [execute, skipIf_eq_goto]
    cases t <;> rfl
  | _ => cases t <;> rfl

/-- After a step a timer shows what the step has stored, or what it showed before. -/
theorem timer_step (random : Nat → Int) (m : Machine w h τ) (t : Timer) :
    (m.step random).machine.cpu.timer t = ((m.step random).stored? t).getD (m.cpu.timer t) := by
  obtain ⟨_, hs⟩ | ⟨_, _, _, _, hs⟩ | ⟨i, _, _, hs⟩ := step_cases random m
  · rw [hs]
    cases t <;> rfl
  · rw [hs]
    cases t <;> rfl
  · have htimer : m.advance.cpu.timer t = m.cpu.timer t := by cases t <;> rfl
    have hexecuted : Event.stored? t (.executed m.cpu.pc i) = none := by cases t <;> rfl
    rw [hs, done, timer_execute, htimer, ← stored?_execute random]
    simp [Outcome.stored?, hexecuted, List.findSome?_append]

/-- After any number of steps a timer shows what they have last stored, or what it showed before. -/
theorem timer_steps (random : Nat → Int) (m : Machine w h τ) (k : Nat) (t : Timer) :
    (m.steps random k).machine.cpu.timer t =
      ((m.steps random k).stored? t).getD (m.cpu.timer t) := by
  induction k with
  | zero => cases t <;> rfl
  | succ k ih =>
    rw [steps, Outcome.stored?_next, Option.getD_or, ← ih]
    exact timer_step random _ t

end Machine

namespace Entry

variable {w h : Nat} {τ : Type}

/-- The operation was a frame that was neither skipped nor failed nor started to wait for a key. -/
def isCompleted (e : Entry w h τ) : Bool :=
  decide (e.op = .frame ∧ e.before.cpu.mode = .running ∧ e.outcome.error = none ∧
    e.outcome.machine.cpu.mode ≠ .waiting)

/-- What an operation does that completes a frame. -/
structure Completes [ToneGenerator τ] (e : Entry w h τ) : Prop where
  isCompleted_eq : e.isCompleted = true
  op_ne : e.op ≠ .reset
  timer (t : Timer) : (e.outcome.machine.cpu.timer t).toNat =
    ((e.outcome.stored? t).getD (e.before.cpu.timer t)).toNat - 1
  tone : e.outcome.machine.tone =
    if e.outcome.machine.cpu.sound = 0 then (ToneGenerator.stop e.before.tone).1
    else (ToneGenerator.start toneFrequency e.before.tone).1
  framesPresented :
    e.outcome.machine.screen.framesPresented = e.before.screen.framesPresented + 1

/-- What an operation does that neither completes a frame nor restarts the machine. -/
structure Idle (e : Entry w h τ) : Prop where
  isCompleted_eq : e.isCompleted = false
  op_ne : e.op ≠ .reset
  timer (t : Timer) : e.outcome.machine.cpu.timer t =
    (e.outcome.stored? t).getD (e.before.cpu.timer t)
  tone : e.outcome.machine.tone = e.before.tone
  framesPresented : e.outcome.machine.screen.framesPresented = e.before.screen.framesPresented

end Entry

namespace Machine

variable {w h : Nat} {τ : Type} [ToneGenerator τ]

/-- A frame is completed, or it leaves the tone and the marks of the screen alone. -/
theorem completes_or_idle_frame (random : Nat → Int) (m : Machine w h τ) :
    Entry.Completes ⟨m, .frame, m.frame random⟩ ∨ Entry.Idle ⟨m, .frame, m.frame random⟩ := by
  have hending := frame_ending random m
  generalize m.frame random = o at hending ⊢
  cases hending with
  | skipped hm =>
    exact .inr
      { isCompleted_eq := by simp [Entry.isCompleted, hm]
        op_ne := by rintro ⟨⟩
        timer := fun t => by cases t <;> rfl
        tone := rfl
        framesPresented := rfl }
  | @completed hm k hk =>
    have hmode : (m.steps random k).completed.machine.cpu.mode = .running := hk.mode_eq hm
    have hsteps := steps_surroundings random m k
    exact .inl
      { isCompleted_eq := decide_eq_true ⟨rfl, hm, rfl, by rw [hmode]; rintro ⟨⟩⟩
        op_ne := by rintro ⟨⟩
        timer := fun t => by
          rw [Outcome.stored?_completed, ← timer_steps]
          exact Outcome.timer_completed _ t
        tone := by
          rw [← hsteps.tone]
          exact Outcome.tone_completed _
        framesPresented := congrArg (· + 1) hsteps.framesPresented }
  | @blocked hm j hj he hw =>
    have hsteps := steps_surroundings random m (j + 1)
    exact .inr
      { isCompleted_eq := by simp [Entry.isCompleted, hw]
        op_ne := by rintro ⟨⟩
        timer := timer_steps random m (j + 1)
        tone := hsteps.tone
        framesPresented := hsteps.framesPresented }
  | @faulted hm j hj f he =>
    have hsteps := steps_surroundings random m j
    exact .inr
      { isCompleted_eq := by simp [Entry.isCompleted, Outcome.haltedBy]
        op_ne := by rintro ⟨⟩
        timer := fun t => by
          rw [Outcome.stored?_haltedBy, ← timer_steps]
          cases t <;> rfl
        tone := hsteps.tone
        framesPresented := hsteps.framesPresented }
  | @failed hm j hj e he hf =>
    have hsteps := steps_surroundings random m (j + 1)
    exact .inr
      { isCompleted_eq := by simp [Entry.isCompleted, he]
        op_ne := by rintro ⟨⟩
        timer := timer_steps random m (j + 1)
        tone := hsteps.tone
        framesPresented := hsteps.framesPresented }

/-- Only instructions store in a timer. -/
theorem stored?_perform {m : Machine w h τ} {env : Environment} {op : Operation}
    (hop : op.isDriver = true) (hframe : op ≠ .frame) (hreset : op ≠ .reset) (t : Timer) :
    (m.perform env op).stored? t = none := by
  have hidle : ∀ m : Machine w h τ, m.idle.stored? t = none := fun _ => rfl
  have hkey : ∀ (m : Machine w h τ) key, (m.keyPressed key).stored? t = none := by
    intro m key
    unfold keyPressed
    split
    · split
      · rfl
      · cases t <;> rfl
    · exact hidle m
  cases op with
  | step | updateTimers | playSound => cases hop
  | frame => exact absurd rfl hframe
  | reset => exact absurd rfl hreset
  | release key => exact hidle _
  | keyPressed key => exact hkey m key
  | press key =>
    simp only [perform, press]
    split
    · exact hidle _
    · exact hkey _ _
    · rename_i again _
      cases t <;> cases again <;> rfl
  | loadNumbers numbers =>
    simp only [perform, loadNumbers]
    split
    · rfl
    · cases t <;> rfl
  | loadFile path =>
    simp only [perform, loadFile]
    split <;> cases t <;> rfl

/-- An operation of a driver completes a frame, leaves the tone and the marks of the screen alone,
or restarts the machine. -/
theorem KeyWait.completes_or_idle {m : Machine w h τ} (hm : m.KeyWait) (env : Environment)
    {op : Operation} (hop : op.isDriver = true) (hreset : op ≠ .reset) :
    Entry.Completes ⟨m, op, m.perform env op⟩ ∨ Entry.Idle ⟨m, op, m.perform env op⟩ := by
  by_cases hframe : op = .frame
  · subst hframe
    exact completes_or_idle_frame env.random m
  · have hstored : ∀ t, (m.perform env op).stored? t = none := stored?_perform hop hframe hreset
    have heffect := hm.driverEffect env hop
    generalize m.perform env op = o at hstored heffect ⊢
    have hidle : (∀ t, o.machine.cpu.timer t = m.cpu.timer t) → o.machine.tone = m.tone →
        o.machine.screen = m.screen → Entry.Idle ⟨m, op, o⟩ := by
      intro htimer htone hscreen
      exact
        { isCompleted_eq := by simp [Entry.isCompleted, hframe]
          op_ne := hreset
          timer := fun t => by rw [hstored t]; exact htimer t
          tone := htone
          framesPresented := congrArg Screen.framesPresented hscreen }
    cases heffect with
    | frame => exact absurd rfl hframe
    | reset => exact absurd rfl hreset
    | answered _ _ v keypad ho =>
      rw [ho] at hidle
      exact .inr (hidle (fun t => by cases t <;> rfl) rfl rfl)
    | loaded _ _ p ho =>
      rw [ho] at hidle
      exact .inr (hidle (fun t => by cases t <;> rfl) rfl rfl)
    | aside _ _ keypad ho =>
      rw [ho] at hidle
      exact .inr (hidle (fun t => by cases t <;> rfl) rfl rfl)

end Machine

section Record

variable {w h : Nat} {τ : Type}

/-- The operations since the last restart, the latest first. -/
def sinceRestart (past : List (Entry w h τ)) : List (Entry w h τ) :=
  past.takeWhile fun e => e.op ≠ .reset

/-- The value last stored in a timer since power-on or the last restart, and zero if there was
none. -/
def lastStored (t : Timer) (past : List (Entry w h τ)) : Byte :=
  ((sinceRestart past).findSome? fun e => e.outcome.stored? t).getD 0

/-- The number of frames completed since a timer was last stored in, with the frame of the store if
it was completed. -/
def framesSince (t : Timer) (past : List (Entry w h τ)) : Nat :=
  let stores (e : Entry w h τ) : Bool := (e.outcome.stored? t).isSome
  ((sinceRestart past).take ((sinceRestart past).findIdx stores + 1)).countP Entry.isCompleted

/-- The frame completed last since power-on or the last restart. -/
def lastCompleted? (past : List (Entry w h τ)) : Option (Entry w h τ) :=
  (sinceRestart past).find? Entry.isCompleted

variable {e : Entry w h τ}

/-- A restart begins anew. -/
theorem sinceRestart_restart (he : e.op = .reset) (past : List (Entry w h τ)) :
    sinceRestart (e :: past) = [] := by
  simp [sinceRestart, he]

/-- Any other operation adds to what came since the last restart. -/
theorem sinceRestart_cons (he : e.op ≠ .reset) (past : List (Entry w h τ)) :
    sinceRestart (e :: past) = e :: sinceRestart past := by
  simp [sinceRestart, he]

/-- An operation that stores replaces what was last stored. -/
theorem lastStored_cons (he : e.op ≠ .reset) (t : Timer) (past : List (Entry w h τ)) :
    lastStored t (e :: past) = (e.outcome.stored? t).getD (lastStored t past) := by
  rw [lastStored, sinceRestart_cons he, List.findSome?_cons]
  cases e.outcome.stored? t <;> rfl

/-- An operation that stores has the count of frames begin with its own. -/
theorem framesSince_cons (he : e.op ≠ .reset) (t : Timer) (past : List (Entry w h τ)) :
    framesSince t (e :: past) = e.isCompleted.toNat +
      if (e.outcome.stored? t).isSome then 0 else framesSince t past := by
  have htoNat : (if e.isCompleted = true then 1 else 0) = e.isCompleted.toNat := by
    cases e.isCompleted <;> rfl
  simp only [framesSince, sinceRestart_cons he, List.findIdx_cons, List.take_succ_cons,
    List.countP_cons, htoNat, Nat.add_comm _ e.isCompleted.toNat]
  cases (e.outcome.stored? t).isSome <;> simp

end Record

/-- A tone that was asked for plays. -/
theorem playing_start (f : Int) (t : Tone) : (ToneGenerator.start f t).1.playing = true := by
  change (t.start f).1.playing = true
  unfold Tone.start
  split
  · assumption
  · rfl

/-- A tone that was asked for begins unless it plays already. -/
theorem starts_start (f : Int) (t : Tone) :
    (ToneGenerator.start f t).1.starts = t.starts + (!t.playing).toNat := by
  change (t.start f).1.starts = _
  unfold Tone.start
  split
  · rename_i hplaying
    rw [hplaying]
    rfl
  · rename_i hplaying
    rw [Bool.eq_false_iff.mpr hplaying]
    rfl

/-- The operation completed a frame that ended with a running sound timer, and no tone was playing
yet. -/
def Entry.beginsTone {w h : Nat} (e : Entry w h Tone) : Bool :=
  e.isCompleted && decide (e.outcome.machine.cpu.sound ≠ 0) && !e.before.tone.playing

/-- The timers, the tone and the presented frames are as the record says. -/
structure OnRecord {w h : Nat} (past : List (Entry w h Tone)) (m : Machine w h Tone) : Prop where
  timer (t : Timer) : (m.cpu.timer t).toNat = (lastStored t past).toNat - framesSince t past
  playing_iff : m.tone.playing = true ↔
    ∃ e, lastCompleted? past = some e ∧ e.outcome.machine.cpu.sound ≠ 0
  starts_eq : m.tone.starts = past.countP Entry.beginsTone
  framesPresented_eq : m.screen.framesPresented = past.countP Entry.isCompleted

namespace OnRecord

variable {w h : Nat} {past : List (Entry w h Tone)} {e : Entry w h Tone}

/-- They are after an operation that completes a frame. -/
theorem of_completes (hpast : OnRecord past e.before) (he : e.Completes) :
    OnRecord (e :: past) e.outcome.machine where
  timer t := by
    rw [he.timer, lastStored_cons he.op_ne, framesSince_cons he.op_ne, he.isCompleted_eq]
    cases e.outcome.stored? t with
    | some b => simp
    | none =>
      have hbefore := hpast.timer t
      simp only [Option.getD_none, Option.isSome_none, Bool.false_eq_true, ite_false,
        Bool.toNat_true]
      omega
  playing_iff := by
    have hlast : lastCompleted? (e :: past) = some e := by
      rw [lastCompleted?, sinceRestart_cons he.op_ne, List.find?_cons, he.isCompleted_eq]
    rw [he.tone, hlast]
    by_cases hsound : e.outcome.machine.cpu.sound = 0
    · rw [if_pos hsound]
      constructor
      · rintro ⟨⟩
      · rintro ⟨_, ⟨⟩, hne⟩
        exact absurd hsound hne
    · rw [if_neg hsound, playing_start]
      exact ⟨fun _ => ⟨e, rfl, hsound⟩, fun _ => rfl⟩
  starts_eq := by
    rw [he.tone, List.countP_cons, ← hpast.starts_eq, Entry.beginsTone, he.isCompleted_eq]
    by_cases hsound : e.outcome.machine.cpu.sound = 0
    · rw [if_pos hsound, decide_eq_false (not_not_intro hsound)]
      rfl
    · rw [if_neg hsound, starts_start, decide_eq_true hsound]
      cases e.before.tone.playing <;> rfl
  framesPresented_eq := by
    rw [he.framesPresented, hpast.framesPresented_eq, List.countP_cons, he.isCompleted_eq]
    rfl

/-- They are after an operation that neither completes a frame nor restarts the machine. -/
theorem of_idle (hpast : OnRecord past e.before) (he : e.Idle) :
    OnRecord (e :: past) e.outcome.machine where
  timer t := by
    rw [he.timer, lastStored_cons he.op_ne, framesSince_cons he.op_ne, he.isCompleted_eq]
    cases e.outcome.stored? t with
    | some b => simp
    | none => simpa using hpast.timer t
  playing_iff := by
    have hlast : lastCompleted? (e :: past) = lastCompleted? past := by
      rw [lastCompleted?, sinceRestart_cons he.op_ne, List.find?_cons, he.isCompleted_eq]
      rfl
    rw [he.tone, hlast]
    exact hpast.playing_iff
  starts_eq := by
    rw [he.tone, hpast.starts_eq, List.countP_cons, Entry.beginsTone, he.isCompleted_eq]
    rfl
  framesPresented_eq := by
    rw [he.framesPresented, hpast.framesPresented_eq, List.countP_cons, he.isCompleted_eq]
    rfl

/-- They are after a restart, which stops the tone and forgets what was stored. -/
theorem of_restart {m : Machine w h Tone} (hpast : OnRecord past m) :
    OnRecord (⟨m, .reset, Machine.done m.reset⟩ :: past) m.reset.1 where
  timer t := by
    rw [lastStored, sinceRestart_restart rfl]
    cases t <;> simp [Machine.reset, Cpu.powerOn, Cpu.timer]
  playing_iff := by
    rw [lastCompleted?, sinceRestart_restart rfl]
    simp [Machine.reset, Machine.stopTone, ToneGenerator.stop, Tone.stop]
  starts_eq := by
    have hbegins : Entry.beginsTone ⟨m, .reset, Machine.done m.reset⟩ = false := by
      simp [Entry.beginsTone, Entry.isCompleted]
    rw [List.countP_cons, hbegins]
    exact hpast.starts_eq
  framesPresented_eq := by
    have hcompleted : Entry.isCompleted ⟨m, .reset, Machine.done m.reset⟩ = false := by
      simp [Entry.isCompleted]
    rw [List.countP_cons, hcompleted]
    exact hpast.framesPresented_eq

/-- They are at power-on, when nothing was done. -/
theorem of_powerOn (speed : Int) :
    OnRecord [] (Machine.powerOn (.dark w h) speed : Machine w h Tone) where
  timer t := by cases t <;> rfl
  playing_iff := ⟨by rintro ⟨⟩, by rintro ⟨e, ⟨⟩, -⟩⟩
  starts_eq := rfl
  framesPresented_eq := rfl

end OnRecord

namespace Machine

variable {w h : Nat} {past : List (Entry w h Tone)} {m : Machine w h Tone}

/-- In every run of a driver the machine is as its record says. -/
theorem Driven.onRecord {speed : Int} (hrun : Driven (.powerOn (.dark w h) speed) past m) :
    OnRecord past m := by
  induction hrun with
  | start => exact .of_powerOn speed
  | @perform past m hrun env op hop ih =>
    by_cases hreset : op = .reset
    · subst hreset
      exact ih.of_restart
    · obtain he | he := (hrun.keyWait (.powerOn ..)).completes_or_idle env hop hreset
      · exact ih.of_completes (e := ⟨m, op, m.perform env op⟩) he
      · exact ih.of_idle (e := ⟨m, op, m.perform env op⟩) he

/-- In every run of a driver from power-on, at every point between two operations: each timer shows
the value last stored in it less the frames completed since, the frame of the store included, and
does not go below zero. The tone plays exactly if a frame was completed since power-on or the last
restart and the last of these ended with a running sound timer. It has begun as often as a completed
frame ended with a running sound timer and found it silent. As many frames were presented as were
completed. -/
theorem Driven.timers_and_tone {speed : Int}
    (hrun : Driven (.powerOn (.dark w h) speed) past m) :
    (∀ t, (m.cpu.timer t).toNat = (lastStored t past).toNat - framesSince t past) ∧
    (m.tone.playing = true ↔
      ∃ e, lastCompleted? past = some e ∧ e.outcome.machine.cpu.sound ≠ 0) ∧
    m.tone.starts = past.countP Entry.beginsTone ∧
    m.screen.framesPresented = past.countP Entry.isCompleted := by
  have hrecord := hrun.onRecord
  exact ⟨hrecord.timer, hrecord.playing_iff, hrecord.starts_eq, hrecord.framesPresented_eq⟩

/-- A frame that was completed has stored 5 in both timers and begun the tone. The next has stored 2
in the sound timer and then waits: neither timer goes down in it, and the tone plays on. -/
theorem timers_and_tone_in_blocked_frame :
    let env : Environment := ⟨fun _ => 0, fun _ => .error .notFound⟩
    let start : Machine 64 32 Tone := .powerOn (.dark 64 32) 3
    let ops : List Operation :=
      [.loadNumbers [0x60, 0x05, 0xF0, 0x18, 0xF0, 0x15, 0x60, 0x02, 0xF0, 0x18, 0xF1, 0x0A],
        .frame, .frame, .frame]
    let past := start.record env ops
    let m := start.performAll env ops
    Driven start past m ∧ m.cpu.mode = .waiting ∧
      (lastStored .delay past = 5 ∧ framesSince .delay past = 1 ∧ m.cpu.delay = 4) ∧
      (lastStored .sound past = 2 ∧ framesSince .sound past = 0 ∧ m.cpu.sound = 2) ∧
      m.tone.playing = true ∧ m.tone.starts = 1 ∧ m.screen.framesPresented = 1 := by
  intro env start ops past m
  have hrun : Driven start past m := .record (by decide)
  obtain ⟨htimer, hplaying, hstarts, hpresented⟩ := hrun.timers_and_tone
  have hrecord : m.cpu.mode = .waiting ∧
      (lastStored .delay past = 5 ∧ framesSince .delay past = 1) ∧
      (lastStored .sound past = 2 ∧ framesSince .sound past = 0) ∧
      ((lastCompleted? past).any fun e => e.outcome.machine.cpu.sound ≠ 0) ∧
      past.countP Entry.beginsTone = 1 ∧ past.countP Entry.isCompleted = 1 := by
    decide +kernel
  obtain ⟨hmode, ⟨hdelay, hdelayFrames⟩, ⟨hsound, hsoundFrames⟩, hlast, hbegun, hcompleted⟩ :=
    hrecord
  obtain ⟨e, he, hne⟩ := (Option.any_eq_true ..).mp hlast
  have hdelay' := htimer .delay
  have hsound' := htimer .sound
  rw [hdelay, hdelayFrames] at hdelay'
  rw [hsound, hsoundFrames] at hsound'
  exact ⟨hrun, hmode, ⟨hdelay, hdelayFrames, BitVec.eq_of_toNat_eq hdelay'⟩,
    ⟨hsound, hsoundFrames, BitVec.eq_of_toNat_eq hsound'⟩,
    hplaying.mpr ⟨e, he, of_decide_eq_true hne⟩, hstarts.trans hbegun,
    hpresented.trans hcompleted⟩

end Machine

end Chip8
