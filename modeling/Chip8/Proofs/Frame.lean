import Chip8.Proofs.Step

/-!
# A frame is made of steps

`steps` carries out a number of instructions one after the other, whatever they end in. The budget
of a frame is spent on as many of them as go through (`Smooth.frame_eq`): the loop of a frame
stops at the first step that fails or waits for a key, and what completes a frame happens only if
no step did. A frame ends in one of five ways (`frame_ending`), so an invariant of steps is an
invariant of frames if halting and completing a frame keep it (`frame_preserves`). It leaves the
machine waiting or halted exactly if an instruction that is reached waits or faults
(`frame_waits_iff`, `frame_halts_iff`).
-/

namespace Chip8

/-- The number of a timer that has gone down by one. -/
theorem Byte.toNat_ofNat_sub_one (b : Byte) :
    (BitVec.ofNat 8 (b.toNat - 1)).toNat = b.toNat - 1 := by
  have hlt := b.isLt
  rw [BitVec.toNat_ofNat]
  omega

/-- A timer that has gone down by one is at zero unless it was above one. -/
theorem Byte.ofNat_sub_one_eq_zero_iff (b : Byte) :
    BitVec.ofNat 8 (b.toNat - 1) = 0 ↔ ¬ 0 < b.toNat - 1 := by
  rw [← BitVec.toNat_inj, toNat_ofNat_sub_one]
  change b.toNat - 1 = 0 ↔ _
  omega

namespace Outcome

variable {w h : Nat} {τ : Type}

/-- A blocked outcome takes no further instruction. -/
theorem cycles_of_isBlocked {o : Outcome w h τ} (ho : o.isBlocked = true) (random : Nat → Int)
    (k : Nat) : o.cycles random k = o := by
  cases k with
  | zero => rfl
  | succ k => simp only [cycles, ho, ite_true]

/-- An outcome that is not blocked takes one more instruction. -/
theorem cycles_succ {o : Outcome w h τ} (ho : o.isBlocked = false) (random : Nat → Int)
    (k : Nat) : o.cycles random (k + 1) = (o.next random).cycles random k := by
  simp only [cycles, ho, Bool.false_eq_true, ite_false]

/-- The outcome with a fault after it: past the faulting word, halted, and with the fault kept. -/
def haltedBy (o : Outcome w h τ) (f : Fault) : Outcome w h τ where
  machine := { o.machine with
    cpu.pc := BitVec.ofNat 16 ((o.machine.cpu.pc.toNat + 2) % 4096)
    cpu.mode := .halted
    cpu.fault := some f }
  events := o.events.push (.note (.halted f))
  error := some (.fault f)

/-- The outcome with the end of a frame after it: both timers go down by one unless they are zero,
the tone is started if the sound timer is still running and stopped if not, and the screen is
presented. -/
def completed [ToneGenerator τ] (o : Outcome w h τ) : Outcome w h τ :=
  let sound := o.machine.cpu.sound.toNat - 1
  let heard := if 0 < sound then ToneGenerator.start toneFrequency o.machine.tone
    else ToneGenerator.stop o.machine.tone
  let call : Event := if 0 < sound then .toneStarted toneFrequency else .toneStopped
  { machine := { o.machine with
      cpu.delay := BitVec.ofNat 8 (o.machine.cpu.delay.toNat - 1)
      cpu.sound := BitVec.ofNat 8 sound
      tone := heard.1
      screen.shouldDraw := true
      screen.framesPresented := o.machine.screen.framesPresented + 1 }
    events := o.events ++ (call :: heard.2.map Event.signal ++ [Event.presented])
    error := none }

/-- Halting past a word that was not carried out. -/
theorem followedBy_halt (o : Outcome w h τ) (f : Fault) :
    ({ machine := o.machine.advance, events := o.events, error := some (.fault f) } :
        Outcome w h τ).followedBy (o.machine.advance.halt f) = o.haltedBy f := by
  rw [Machine.advance_eq]
  rfl

/-- The end of a frame in numbers. -/
theorem followedBy_completeFrame [ToneGenerator τ] {o : Outcome w h τ} (he : o.error = none)
    (ha : o.answer = .nothing) : o.followedBy o.machine.completeFrame = o.completed := by
  obtain ⟨m, events, error, answer⟩ := o
  obtain rfl : error = none := he
  obtain rfl : answer = .nothing := ha
  have hzero := Byte.ofNat_sub_one_eq_zero_iff m.cpu.sound
  simp only [followedBy, completed, Machine.completeFrame, Machine.updateTimers,
    Byte.countDown_eq_ofNat, Machine.playSound]
  by_cases hs : 0 < m.cpu.sound.toNat - 1
  · have hsound : ¬ BitVec.ofNat 8 (m.cpu.sound.toNat - 1) = 0 := fun e => hzero.mp e hs
    simp only [if_neg hsound, if_pos hs]
    rfl
  · have hsound : BitVec.ofNat 8 (m.cpu.sound.toNat - 1) = 0 := hzero.mpr hs
    simp only [if_pos hsound, if_neg hs]
    rfl

end Outcome

namespace Machine

variable {w h : Nat} {τ : Type}

/-- What `k` steps come to when nobody looks at what they end in: the machine after the last, all
that was observed, and the error of the last. -/
def steps (random : Nat → Int) (m : Machine w h τ) : Nat → Outcome w h τ
  | 0 => m.idle
  | k + 1 => (m.steps random k).next random

/-- The first `k` steps all succeed, and none of them starts to wait for a key. -/
def Smooth (random : Nat → Int) (m : Machine w h τ) (k : Nat) : Prop :=
  ∀ j < k, (m.steps random (j + 1)).error = none ∧
    (m.steps random (j + 1)).machine.cpu.mode ≠ .waiting

/-- Steps give nothing back. -/
theorem steps_answer (random : Nat → Int) (m : Machine w h τ) (k : Nat) :
    (m.steps random k).answer = .nothing := by
  cases k with
  | zero => rfl
  | succ k =>
    obtain ⟨_, hs⟩ | ⟨_, _, _, _, hs⟩ | ⟨_, _, _, hs⟩ :=
      step_cases random (m.steps random k).machine <;>
    · rw [steps, Outcome.next, hs]
      rfl

/-- No event of any number of steps ends the frame. -/
theorem endsFrame_of_mem_steps {random : Nat → Int} {m : Machine w h τ} {k : Nat} {e : Event}
    (he : e ∈ (m.steps random k).events) : e.endsFrame = false := by
  induction k with
  | zero => simp [steps, idle] at he
  | succ k ih =>
    simp only [steps, Outcome.next, Array.mem_append] at he
    obtain he | he := he
    · exact ih he
    · exact endsFrame_of_mem_step he

/-- A failing last step only moves the program counter, unobserved. -/
theorem steps_succ_of_error {random : Nat → Int} {m : Machine w h τ} {k : Nat} {e : Error}
    (he : (m.steps random (k + 1)).error = some e) :
    m.steps random (k + 1) =
      { machine := (m.steps random k).machine.advance
        events := (m.steps random k).events
        error := some e } := by
  have hs : (m.steps random k).machine.step random = _ := step_of_error he
  simp only [steps, Outcome.next, hs, failed, Array.append_empty]

/-- A smooth run of a running machine is running all along. -/
theorem Smooth.mode_eq {random : Nat → Int} {m : Machine w h τ} {k : Nat}
    (hm : m.cpu.mode = .running) (hk : m.Smooth random k) :
    (m.steps random k).machine.cpu.mode = .running := by
  induction k with
  | zero => exact hm
  | succ k ih =>
    have hbefore := ih fun j hj => hk j (Nat.lt_succ_of_lt hj)
    obtain hwait | hsame := step_mode random (m.steps random k).machine
    · exact absurd hwait (hk k (Nat.lt_succ_self k)).2
    · exact hsame.trans hbefore

/-- A step that fails after such a run leaves the machine running. -/
theorem Smooth.mode_eq_of_error {random : Nat → Int} {m : Machine w h τ} {k : Nat}
    (hm : m.cpu.mode = .running) (hk : m.Smooth random k) {e : Error}
    (he : (m.steps random (k + 1)).error = some e) :
    (m.steps random (k + 1)).machine.cpu.mode = .running := by
  rw [steps_succ_of_error he]
  exact hk.mode_eq hm

/-- A smooth run ends in no error. -/
theorem Smooth.error_eq {random : Nat → Int} {m : Machine w h τ} {k : Nat}
    (hk : m.Smooth random k) : (m.steps random k).error = none := by
  cases k with
  | zero => rfl
  | succ k => exact (hk k (Nat.lt_succ_self k)).1

/-- A smooth run of a running machine is not blocked. -/
theorem Smooth.not_isBlocked {random : Nat → Int} {m : Machine w h τ} {k : Nat}
    (hm : m.cpu.mode = .running) (hk : m.Smooth random k) :
    (m.steps random k).isBlocked = false := by
  simp [Outcome.isBlocked, hk.error_eq, isWaiting, hk.mode_eq hm]

/-- The loop of a frame has nothing to stop for in a smooth run. -/
theorem Smooth.cycles_eq {random : Nat → Int} {m : Machine w h τ} {j : Nat}
    (hm : m.cpu.mode = .running) (hj : m.Smooth random j) (k : Nat) :
    m.idle.cycles random (j + k) = (m.steps random j).cycles random k := by
  induction j generalizing k with
  | zero => rw [Nat.zero_add]; rfl
  | succ j ih =>
    have hbefore : m.Smooth random j := fun i hi => hj i (Nat.lt_succ_of_lt hi)
    rw [Nat.succ_add_eq_add_succ, ih hbefore, Outcome.cycles_succ (hbefore.not_isBlocked hm)]
    rfl

/-- The loop of a frame stops after the first step that is blocked. -/
theorem Smooth.cycles_eq_of_isBlocked {random : Nat → Int} {m : Machine w h τ} {j k : Nat}
    (hm : m.cpu.mode = .running) (hj : m.Smooth random j) (hlt : j < k)
    (hb : (m.steps random (j + 1)).isBlocked = true) :
    m.idle.cycles random k = m.steps random (j + 1) := by
  obtain ⟨d, rfl⟩ := Nat.exists_eq_add_of_lt hlt
  rw [Nat.add_assoc, hj.cycles_eq hm, Outcome.cycles_succ (hj.not_isBlocked hm)]
  exact Outcome.cycles_of_isBlocked hb random d

/-- A run is smooth, or it has a first step that fails or starts to wait. -/
theorem smooth_or_exists_first (random : Nat → Int) (m : Machine w h τ) (k : Nat) :
    m.Smooth random k ∨ ∃ j < k, m.Smooth random j ∧
      ((∃ e, (m.steps random (j + 1)).error = some e) ∨
        (m.steps random (j + 1)).error = none ∧
          (m.steps random (j + 1)).machine.cpu.mode = .waiting) := by
  induction k with
  | zero => exact .inl nofun
  | succ k ih =>
    obtain hk | ⟨j, hj, hrest⟩ := ih
    · by_cases hlast : (m.steps random (k + 1)).error = none ∧
          (m.steps random (k + 1)).machine.cpu.mode ≠ .waiting
      · refine .inl fun j hj => ?_
        obtain hj | rfl := Nat.lt_succ_iff_lt_or_eq.mp hj
        · exact hk j hj
        · exact hlast
      · refine .inr ⟨k, Nat.lt_succ_self k, hk, ?_⟩
        cases he : (m.steps random (k + 1)).error with
        | some e => exact .inl ⟨e, rfl⟩
        | none => exact .inr ⟨rfl, Decidable.not_not.mp fun h => hlast ⟨he, h⟩⟩
    · exact .inr ⟨j, Nat.lt_succ_of_lt hj, hrest⟩

/-- An invariant of steps is kept by any number of them. -/
theorem steps_preserves {P : Machine w h τ → Prop} {random : Nat → Int}
    (hstep : ∀ m, P m → P (m.step random).machine) {m : Machine w h τ} (hm : P m) (k : Nat) :
    P (m.steps random k).machine := by
  induction k with
  | zero => exact hm
  | succ k ih => exact hstep _ ih

/-- What instructions cannot reach is out of the reach of any number of steps. -/
theorem steps_surroundings (random : Nat → Int) (m : Machine w h τ) (k : Nat) :
    SameSurroundings m (m.steps random k).machine := by
  refine steps_preserves (P := SameSurroundings m) (fun m' hm' => ?_) ⟨rfl, rfl, rfl, rfl, rfl⟩ k
  have hstep := step_surroundings random m'
  exact ⟨hstep.fault.trans hm'.fault, hstep.tone.trans hm'.tone, hstep.speed.trans hm'.speed,
    hstep.shouldDraw.trans hm'.shouldDraw, hstep.framesPresented.trans hm'.framesPresented⟩

variable [ToneGenerator τ]

/-- A machine that waits or has halted is left alone. -/
theorem frame_of_mode_ne {m : Machine w h τ} (hm : m.cpu.mode ≠ .running) (random : Nat → Int) :
    m.frame random = m.idle := by
  rw [frame, if_neg hm]

/-- A frame whose budget is spent smoothly is completed. -/
theorem Smooth.frame_eq {random : Nat → Int} {m : Machine w h τ} (hm : m.cpu.mode = .running)
    (hk : m.Smooth random m.speed.toNat) :
    m.frame random = (m.steps random m.speed.toNat).completed := by
  have hloop := hk.cycles_eq hm 0
  rw [Nat.add_zero, Outcome.cycles] at hloop
  have hwaiting : (m.steps random m.speed.toNat).machine.isWaiting = false := by
    simp [isWaiting, hk.mode_eq hm]
  simp only [frame, if_pos hm, hloop, hk.error_eq, hwaiting, Bool.false_eq_true, ite_false]
  exact Outcome.followedBy_completeFrame hk.error_eq (steps_answer ..)

/-- A frame ends with the first step that starts to wait for a key. -/
theorem Smooth.frame_eq_of_waiting {random : Nat → Int} {m : Machine w h τ} {j : Nat}
    (hm : m.cpu.mode = .running) (hj : m.Smooth random j) (hlt : j < m.speed.toNat)
    (he : (m.steps random (j + 1)).error = none)
    (hw : (m.steps random (j + 1)).machine.cpu.mode = .waiting) :
    m.frame random = m.steps random (j + 1) := by
  have hwaiting : (m.steps random (j + 1)).machine.isWaiting = true := by simp [isWaiting, hw]
  have hloop := hj.cycles_eq_of_isBlocked hm hlt (by simp [Outcome.isBlocked, hwaiting])
  simp only [frame, if_pos hm, hloop, he, hwaiting, ite_true]

/-- A frame ends with the first step that fails. If this is for a fault, the machine is halted. -/
theorem Smooth.frame_eq_of_fault {random : Nat → Int} {m : Machine w h τ} {j : Nat}
    (hm : m.cpu.mode = .running) (hj : m.Smooth random j) (hlt : j < m.speed.toNat) {f : Fault}
    (he : (m.steps random (j + 1)).error = some (.fault f)) :
    m.frame random = (m.steps random j).haltedBy f := by
  have hloop := hj.cycles_eq_of_isBlocked hm hlt (by simp [Outcome.isBlocked, he])
  have hlast := steps_succ_of_error he
  simp only [frame, if_pos hm, hloop, he]
  rw [hlast]
  exact Outcome.followedBy_halt _ f

/-- A frame ends with the first step that fails. If this is for no fault, the error passes. -/
theorem Smooth.frame_eq_of_error {random : Nat → Int} {m : Machine w h τ} {j : Nat}
    (hm : m.cpu.mode = .running) (hj : m.Smooth random j) (hlt : j < m.speed.toNat) {e : Error}
    (he : (m.steps random (j + 1)).error = some e) (hf : e.isFault = false) :
    m.frame random = m.steps random (j + 1) := by
  have hloop := hj.cycles_eq_of_isBlocked hm hlt (by simp [Outcome.isBlocked, he])
  simp only [frame, if_pos hm, hloop, he]
  cases e with
  | fault f => exact absurd hf nofun
  | load | badValue | noPixels | noKeyRegister => rfl

/-- The ways in which a frame can end; the step that cuts it short is one of its budget. -/
inductive FrameEnding (random : Nat → Int) (m : Machine w h τ) : Outcome w h τ → Prop where
  /-- The machine was not running and is left alone. -/
  | skipped (hm : m.cpu.mode ≠ .running) : FrameEnding random m m.idle
  /-- Every step went through, and the frame was completed. -/
  | completed (hm : m.cpu.mode = .running) {k : Nat} (hk : m.Smooth random k) :
      FrameEnding random m (m.steps random k).completed
  /-- A step started to wait for a key. -/
  | blocked (hm : m.cpu.mode = .running) {j : Nat} (hj : m.Smooth random j)
      (he : (m.steps random (j + 1)).error = none)
      (hw : (m.steps random (j + 1)).machine.cpu.mode = .waiting) (hlt : j < m.speed.toNat) :
      FrameEnding random m (m.steps random (j + 1))
  /-- A step faulted, and the machine was halted. -/
  | faulted (hm : m.cpu.mode = .running) {j : Nat} (hj : m.Smooth random j) {f : Fault}
      (he : (m.steps random (j + 1)).error = some (.fault f)) (hlt : j < m.speed.toNat) :
      FrameEnding random m ((m.steps random j).haltedBy f)
  /-- A step failed in another way. -/
  | failed (hm : m.cpu.mode = .running) {j : Nat} (hj : m.Smooth random j) {e : Error}
      (he : (m.steps random (j + 1)).error = some e) (hf : e.isFault = false)
      (hlt : j < m.speed.toNat) : FrameEnding random m (m.steps random (j + 1))

/-- A frame ends in one of these ways. -/
theorem frame_ending (random : Nat → Int) (m : Machine w h τ) :
    FrameEnding random m (m.frame random) := by
  by_cases hrun : m.cpu.mode = .running
  · obtain hk | ⟨j, hlt, hj, ⟨e, he⟩ | ⟨he, hw⟩⟩ :=
      smooth_or_exists_first random m m.speed.toNat
    · rw [hk.frame_eq hrun]
      exact .completed hrun hk
    · cases hf : e.isFault with
      | false =>
        rw [hj.frame_eq_of_error hrun hlt he hf]
        exact .failed hrun hj he hf hlt
      | true =>
        cases e with
        | fault f =>
          rw [hj.frame_eq_of_fault hrun hlt he]
          exact .faulted hrun hj he hlt
        | load | badValue | noPixels | noKeyRegister => exact absurd hf nofun
    · rw [hj.frame_eq_of_waiting hrun hlt he hw]
      exact .blocked hrun hj he hw hlt
  · rw [frame_of_mode_ne hrun]
    exact .skipped hrun

/-- A frame of a running machine ends in a wait exactly if an instruction of its budget that is
reached waits for a key, and then for the register of that instruction. -/
theorem frame_waits_iff {m : Machine w h τ} (hm : m.cpu.mode = .running) (random : Nat → Int)
    (x : Nibble) :
    (m.frame random).machine.cpu.mode = .waiting ∧
        (m.frame random).machine.cpu.keyRegister = some x ↔
      ∃ j < m.speed.toNat, m.Smooth random j ∧
        Instruction.decode? (m.steps random j).machine.fetch = some (.waitKey x) := by
  constructor
  · rintro ⟨hwaiting, hregister⟩
    have hending := frame_ending random m
    generalize m.frame random = o at hending hwaiting hregister
    cases hending with
    | skipped hskip => exact absurd hm hskip
    | completed _ hk => cases (hk.mode_eq hm).symm.trans hwaiting
    | @blocked _ j hj _ _ hlt =>
      have hstep := step_waits_iff random (hj.mode_eq hm) x
      exact ⟨j, hlt, hj, hstep.mp ⟨hwaiting, hregister⟩⟩
    | faulted => cases hwaiting
    | failed _ hj he => cases (hj.mode_eq_of_error hm he).symm.trans hwaiting
  · rintro ⟨j, hlt, hj, hi⟩
    obtain ⟨hwaiting, hregister⟩ := (step_waits_iff random (hj.mode_eq hm) x).mpr hi
    have he : (m.steps random (j + 1)).error = none := by
      cases he : (m.steps random (j + 1)).error with
      | none => rfl
      | some e => cases (hj.mode_eq_of_error hm he).symm.trans hwaiting
    rw [hj.frame_eq_of_waiting hm hlt he hwaiting]
    exact ⟨hwaiting, hregister⟩

/-- A frame of a running machine halts it exactly if an instruction of its budget that is reached
faults, and then for that fault. -/
theorem frame_halts_iff {m : Machine w h τ} (hm : m.cpu.mode = .running) (random : Nat → Int)
    (f : Fault) :
    (m.frame random).machine.cpu.mode = .halted ∧ (m.frame random).machine.cpu.fault = some f ↔
      ∃ j < m.speed.toNat, m.Smooth random j ∧
        ((m.steps random j).machine.step random).error = some (.fault f) := by
  constructor
  · rintro ⟨hhalted, hfault⟩
    have hending := frame_ending random m
    generalize m.frame random = o at hending hhalted hfault
    cases hending with
    | skipped hskip => exact absurd hm hskip
    | completed _ hk => cases (hk.mode_eq hm).symm.trans hhalted
    | blocked _ _ _ hw => cases hw.symm.trans hhalted
    | @faulted _ j hj f' he hlt =>
      obtain rfl : f' = f := Option.some.inj hfault
      exact ⟨j, hlt, hj, he⟩
    | failed _ hj he => cases (hj.mode_eq_of_error hm he).symm.trans hhalted
  · rintro ⟨j, hlt, hj, he⟩
    rw [hj.frame_eq_of_fault hm hlt he]
    exact ⟨rfl, rfl⟩

/-- An invariant of steps is one of frames if it survives a halt and the end of a frame. -/
theorem frame_preserves {P : Machine w h τ → Prop} {random : Nat → Int}
    (hstep : ∀ m, P m → P (m.step random).machine)
    (hhalt : ∀ m f, m.cpu.mode = .running → P m → P (m.halt f).1)
    (hcomplete : ∀ m, P m → P m.completeFrame.1) {m : Machine w h τ} (hm : P m) :
    P (m.frame random).machine := by
  have hsteps := steps_preserves hstep hm
  have hending := frame_ending random m
  generalize m.frame random = o at hending ⊢
  cases hending with
  | skipped => exact hm
  | completed hrun hk =>
    rw [← Outcome.followedBy_completeFrame hk.error_eq (steps_answer ..)]
    exact hcomplete _ (hsteps _)
  | blocked | failed => exact hsteps _
  | @faulted hrun j hj f he =>
    -- the faulting step has moved past its word, and the halt comes after that
    have hlast := steps_succ_of_error he
    have hhalted := hhalt _ f (hj.mode_eq_of_error hrun he) (hsteps (j + 1))
    rw [hlast] at hhalted
    rw [← Outcome.followedBy_halt]
    exact hhalted

/-- A frame of a running machine is the steps of its budget up to the first that fails or waits.
If all go through, the frame is completed; if one waits, the frame is the steps up to it; if one
faults, the frame is the steps before it, halted by the fault. In the last two cases nothing that
ends a frame happens. A machine that is not running is left alone. -/
theorem frame_refines_steps (random : Nat → Int) (m : Machine w h τ) :
    (m.cpu.mode = .running →
      (m.Smooth random m.speed.toNat →
        m.frame random = (m.steps random m.speed.toNat).completed) ∧
      (∀ j < m.speed.toNat, m.Smooth random j →
        (m.steps random (j + 1)).error = none →
        (m.steps random (j + 1)).machine.cpu.mode = .waiting →
        m.frame random = m.steps random (j + 1) ∧
          ∀ e ∈ (m.frame random).events, e.endsFrame = false) ∧
      (∀ j < m.speed.toNat, m.Smooth random j →
        ∀ f, (m.steps random (j + 1)).error = some (.fault f) →
        m.frame random = (m.steps random j).haltedBy f ∧
          ∀ e ∈ (m.frame random).events, e.endsFrame = false) ∧
      (∀ j < m.speed.toNat, m.Smooth random j →
        ∀ e, (m.steps random (j + 1)).error = some e → e.isFault = false →
        m.frame random = m.steps random (j + 1)) ∧
      (m.Smooth random m.speed.toNat ∨ ∃ j < m.speed.toNat, m.Smooth random j ∧
        ((∃ e, (m.steps random (j + 1)).error = some e) ∨
          (m.steps random (j + 1)).error = none ∧
            (m.steps random (j + 1)).machine.cpu.mode = .waiting))) ∧
    (m.cpu.mode ≠ .running → m.frame random = m.idle) := by
  refine ⟨fun hm => ⟨fun hk => hk.frame_eq hm, fun j hlt hj he hw => ?_, fun j hlt hj f he => ?_,
    fun j hlt hj e he hf => hj.frame_eq_of_error hm hlt he hf, smooth_or_exists_first random m _⟩,
    fun hm => frame_of_mode_ne hm random⟩
  · have hframe := hj.frame_eq_of_waiting hm hlt he hw
    refine ⟨hframe, fun e hmem => ?_⟩
    rw [hframe] at hmem
    exact endsFrame_of_mem_steps hmem
  · have hframe := hj.frame_eq_of_fault hm hlt he
    refine ⟨hframe, fun e hmem => ?_⟩
    rw [hframe] at hmem
    obtain hmem | rfl := Array.mem_push.mp hmem
    · exact endsFrame_of_mem_steps hmem
    · rfl

/-- The wait for a key ends a frame also as the last instruction of its budget: the sound timer that
the same frame has set does not go down, and nothing is heard or presented. -/
theorem frame_ends_in_wait_on_last_instruction :
    let m : Machine 64 32 Tone := (Machine.powerOn (.dark 64 32) 3).performAll
      ⟨fun _ => 0, fun _ => .error .notFound⟩ [.loadNumbers [0x60, 0x05, 0xF0, 0x18, 0xF1, 0x0A]]
    m.cpu.mode = .running ∧ 2 < m.speed.toNat ∧ m.Smooth (fun _ => 0) 2 ∧
      (m.steps (fun _ => 0) 3).error = none ∧
      (m.steps (fun _ => 0) 3).machine.cpu.mode = .waiting ∧
      m.frame (fun _ => 0) = m.steps (fun _ => 0) 3 ∧
      (m.frame fun _ => 0).machine.cpu.sound = 5 := by
  intro m
  have hm : m.cpu.mode = .running := by decide +kernel
  have hlt : 2 < m.speed.toNat := by decide +kernel
  have hsmooth : m.Smooth (fun _ => 0) 2 := by
    unfold Smooth
    decide +kernel
  have herror : (m.steps (fun _ => 0) 3).error = none := by decide +kernel
  have hwaiting : (m.steps (fun _ => 0) 3).machine.cpu.mode = .waiting := by decide +kernel
  have hframe := ((frame_refines_steps (fun _ => 0) m).1 hm).2.1 2 hlt hsmooth herror hwaiting
  refine ⟨hm, hlt, hsmooth, herror, hwaiting, hframe.1, ?_⟩
  rw [hframe.1]
  decide +kernel

end Machine

end Chip8
