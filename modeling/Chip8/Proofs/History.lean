import Chip8.Proofs.Frame

/-!
# What a run has carried out

The history of an outcome lists the instructions that were carried out, each with the address it
came from, in the order of their events. A step that goes through adds the instruction at the
program counter, and a step that fails adds nothing (`step_history`). A frame has the history of its
loop (`history_frame`). A run of steps is the run of the first of them followed by that of the rest
(`steps_add`), and each step of a smooth run is in its history (`Smooth.length_history`).
-/

namespace Chip8

namespace Outcome

variable {w h : Nat} {τ : Type}

/-- The instructions that were carried out, in order, with the addresses they came from. -/
def history (o : Outcome w h τ) : List (Word × Instruction) :=
  o.events.toList.filterMap Event.carriedOut?

/-- Events that follow add what they say was carried out. -/
theorem history_append (m : Machine w h τ) (before after : Array Event) (e : Option Error)
    (a : Answer) :
    (⟨m, before ++ after, e, a⟩ : Outcome w h τ).history =
      (⟨m, before, e, a⟩ : Outcome w h τ).history ++
        (⟨m, after, e, a⟩ : Outcome w h τ).history := by
  simp only [history, Array.toList_append, List.filterMap_append]

/-- One more step adds the history of that step. -/
theorem history_next (random : Nat → Int) (o : Outcome w h τ) :
    (o.next random).history = o.history ++ (o.machine.step random).history :=
  history_append ..

/-- What is added without carrying out an instruction leaves the history as it was. -/
theorem history_followedBy (o : Outcome w h τ) {r : Machine w h τ × List Event}
    (hr : ∀ e ∈ r.2, e.carriedOut? = none) : (o.followedBy r).history = o.history := by
  have hnone : r.2.filterMap Event.carriedOut? = [] := List.filterMap_eq_nil_iff.mpr hr
  simp only [history, followedBy, Array.toList_appendList, List.filterMap_append, hnone,
    List.append_nil]

/-- The loop of a frame adds to the history. -/
theorem history_prefix_cycles (random : Nat → Int) (o : Outcome w h τ) (k : Nat) :
    o.history <+: (o.cycles random k).history := by
  induction k generalizing o with
  | zero => exact List.prefix_refl _
  | succ k ih =>
    rw [cycles]
    split
    · exact List.prefix_refl _
    · have hnext := ih (o.next random)
      rw [history_next] at hnext
      exact (List.prefix_append _ _).trans hnext

/-- The end of a frame carries out nothing. -/
theorem history_completed [ToneGenerator τ] (o : Outcome w h τ) :
    o.completed.history = o.history := by
  simp only [history, completed, Array.toList_appendList, List.filterMap_append]
  split <;> simp [Event.carriedOut?]

end Outcome

namespace Machine

variable {w h : Nat} {τ : Type}

/-- The events of an instruction that is carried out name it and no other. -/
theorem history_done (random : Nat → Int) (m : Machine w h τ) (a : Word) (i : Instruction) :
    (done ((m.execute random i).1, .executed a i :: (m.execute random i).2)).history =
      [(a, i)] := by
  have hrest : (m.execute random i).2.filterMap Event.carriedOut? = [] := by
    rw [List.filterMap_eq_nil_iff]
    intro e he
    exact (plain_of_mem_execute he).2
  simp only [Outcome.history, done, List.filterMap_cons, Event.carriedOut?, hrest]

/-- An instruction that is not refused is carried out. -/
theorem mem_history_step {m : Machine w h τ} {i : Instruction}
    (hi : Instruction.decode? m.fetch = some i) (hr : m.advance.refusal? i = none)
    (random : Nat → Int) : (m.cpu.pc, i) ∈ (m.step random).history := by
  simp only [step, hi, hr]
  rw [history_done]
  exact List.mem_singleton_self _

/-- A step fails and carries out nothing, or carries out the instruction at the program counter
and nothing else. -/
theorem step_history (random : Nat → Int) (m : Machine w h τ) :
    (∃ e, (m.step random).error = some e ∧ (m.step random).machine = m.advance ∧
      (m.step random).history = []) ∨
    ∃ i, Instruction.decode? m.fetch = some i ∧ m.advance.refusal? i = none ∧
      (m.step random).error = none ∧
      (m.step random).machine = (m.advance.execute random i).1 ∧
      (m.step random).history = [(m.cpu.pc, i)] := by
  obtain ⟨_, hs⟩ | ⟨_, e, _, _, hs⟩ | ⟨i, hi, hr, hs⟩ := step_cases random m
  · rw [hs]
    exact .inl ⟨_, rfl, rfl, rfl⟩
  · rw [hs]
    exact .inl ⟨e, rfl, rfl, rfl⟩
  · rw [hs]
    exact .inr ⟨i, hi, hr, rfl, rfl, history_done ..⟩

/-- What is done without carrying out an instruction has no history. -/
theorem history_done_eq_nil {r : Machine w h τ × List Event}
    (hr : ∀ e ∈ r.2, e.carriedOut? = none) : (done r).history = [] :=
  List.filterMap_eq_nil_iff.mpr hr

section Tone

variable [ToneGenerator τ] {m : Machine w h τ} {e : Event}

/-- What is asked of the tone generator shows no instruction, and neither do its signals. -/
theorem carriedOut?_of_mem_request {request : Event} {signals : List Signal}
    (hrequest : request.carriedOut? = none) (he : e ∈ request :: signals.map Event.signal) :
    e.carriedOut? = none := by
  obtain rfl | he := List.mem_cons.mp he
  · exact hrequest
  · obtain ⟨s, -, rfl⟩ := List.mem_map.mp he
    rfl

/-- Sounding the tone shows no instruction. -/
theorem carriedOut?_of_mem_playSound (he : e ∈ m.playSound.2) : e.carriedOut? = none := by
  unfold playSound at he
  split at he
  · exact carriedOut?_of_mem_request rfl he
  · exact carriedOut?_of_mem_request rfl he

/-- The end of a frame shows no instruction. -/
theorem carriedOut?_of_mem_completeFrame (he : e ∈ m.completeFrame.2) :
    e.carriedOut? = none := by
  obtain he | he := List.mem_append.mp he
  · exact carriedOut?_of_mem_playSound he
  · obtain rfl := List.mem_singleton.mp he
    rfl

end Tone

/-- The history of a frame is that of its loop. -/
theorem history_frame [ToneGenerator τ] {m : Machine w h τ} (hm : m.cpu.mode = .running)
    (random : Nat → Int) :
    (m.frame random).history = (m.idle.cycles random m.speed.toNat).history := by
  simp only [frame, if_pos hm]
  split
  · apply Outcome.history_followedBy
    intro e he
    obtain rfl := List.mem_singleton.mp he
    rfl
  · rfl
  · split
    · rfl
    · exact Outcome.history_followedBy _ fun e he => carriedOut?_of_mem_completeFrame he

/-- Steps after a run that did not end in an error go on from its machine. -/
theorem steps_add {random : Nat → Int} {m : Machine w h τ} {j : Nat}
    (he : (m.steps random j).error = none) (k : Nat) :
    m.steps random (j + k) =
      { (m.steps random j).machine.steps random k with
        events := (m.steps random j).events ++
          ((m.steps random j).machine.steps random k).events } := by
  induction k with
  | zero =>
    have ha := steps_answer random m j
    simp only [Nat.add_zero, steps, idle, Array.append_empty]
    rw [← he, ← ha]
  | succ k ih =>
    rw [← Nat.add_assoc, steps, ih, steps]
    simp only [Outcome.next, Array.append_assoc]

/-- The history of a run goes on with that of the steps after it. -/
theorem history_steps_add {random : Nat → Int} {m : Machine w h τ} {j : Nat}
    (he : (m.steps random j).error = none) (k : Nat) :
    (m.steps random (j + k)).history =
      (m.steps random j).history ++ ((m.steps random j).machine.steps random k).history := by
  rw [steps_add he]
  exact Outcome.history_append ..

/-- A part of a smooth run from its start is smooth. -/
theorem Smooth.mono {random : Nat → Int} {m : Machine w h τ} {j k : Nat}
    (hk : m.Smooth random k) (hle : j ≤ k) : m.Smooth random j :=
  fun i hi => hk i (Nat.lt_of_lt_of_le hi hle)

/-- The rest of a smooth run is smooth. -/
theorem Smooth.rest {random : Nat → Int} {m : Machine w h τ} {j k : Nat}
    (hjk : m.Smooth random (j + k)) : (m.steps random j).machine.Smooth random k := by
  intro i hi
  have he := (hjk.mono (Nat.le_add_right j k)).error_eq
  have hlast := hjk (j + i) (by omega)
  rw [Nat.add_assoc, steps_add he] at hlast
  exact hlast

/-- Every step of a smooth run is in its history. -/
theorem Smooth.length_history {random : Nat → Int} {m : Machine w h τ} {k : Nat}
    (hk : m.Smooth random k) : (m.steps random k).history.length = k := by
  induction k with
  | zero => rfl
  | succ k ih =>
    have hbefore := ih (hk.mono (Nat.le_succ k))
    have hlast := (hk k (Nat.lt_succ_self k)).1
    rw [steps, Outcome.history_next, List.length_append, hbefore]
    obtain ⟨e, he, _⟩ | ⟨i, _, _, _, _, hhistory⟩ := step_history random (m.steps random k).machine
    · cases he.symm.trans hlast
    · rw [hhistory, List.length_singleton]

end Machine

end Chip8
