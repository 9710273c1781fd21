import Chip8.Proofs.Arithmetic
import Chip8.Proofs.History
import Chip8.Proofs.Reachable

/-!
# The random source

The only instruction that takes a number from the random source masks it at once. So a machine has
drawn as many numbers as such instructions were carried out since power-on (`Machine.draws_after`),
and of each number it learns the bits under the mask and no others: if two sources agree in these,
number by number as the masks of a run ask for them, then the run is the same from both
(`Machine.outcomes_congr`).
-/

namespace Chip8

/-- The mask of an instruction that takes a random number. -/
def Instruction.mask? : Instruction → Option Byte
  | random _ kk => some kk
  | _ => none

/-- From their `d`-th number on, the sources agree in the bits that the masks let through, the first
mask for that number and each of the others for the next. -/
def AgreeUnder (r₁ r₂ : Nat → Int) (d : Nat) (masks : List Byte) : Prop :=
  ∀ j kk, masks[j]? = some kk → (r₁ (d + j)).land kk.toNat = (r₂ (d + j)).land kk.toNat

instance (r₁ r₂ : Nat → Int) (d : Nat) (masks : List Byte) :
    Decidable (AgreeUnder r₁ r₂ d masks) :=
  decidable_of_iff
    (∀ j : Fin masks.length,
      (r₁ (d + j)).land (masks.get j).toNat = (r₂ (d + j)).land (masks.get j).toNat)
    ⟨fun h j kk hj => by
        obtain ⟨hlt, rfl⟩ := List.getElem?_eq_some_iff.mp hj
        exact h ⟨j, hlt⟩,
      fun h j => h j (masks.get j) (List.getElem?_eq_getElem j.isLt)⟩

/-- Sources that agree under a list of masks do so under its two parts, one after the other. -/
theorem AgreeUnder.append {r₁ r₂ : Nat → Int} {d : Nat} {masks more : List Byte}
    (h : AgreeUnder r₁ r₂ d (masks ++ more)) :
    AgreeUnder r₁ r₂ d masks ∧ AgreeUnder r₁ r₂ (d + masks.length) more := by
  constructor
  · intro j kk hj
    obtain ⟨hlt, -⟩ := List.getElem?_eq_some_iff.mp hj
    exact h j kk ((List.getElem?_append_left hlt).trans hj)
  · intro j kk hj
    rw [Nat.add_assoc]
    refine h (masks.length + j) kk ?_
    rw [List.getElem?_append_right (Nat.le_add_right ..), Nat.add_sub_cancel_left, hj]

namespace Outcome

variable {w h : Nat} {τ : Type}

/-- The masks of the random numbers that were taken, in order. -/
def masks (o : Outcome w h τ) : List Byte := o.history.filterMap fun s => s.2.mask?

/-- One more step adds its masks. -/
theorem masks_next (random : Nat → Int) (o : Outcome w h τ) :
    (o.next random).masks = o.masks ++ (o.machine.step random).masks := by
  rw [masks, history_next, List.filterMap_append]
  rfl

end Outcome

namespace Machine

variable {w h : Nat} {τ : Type} {r₁ r₂ : Nat → Int}

/-- An instruction draws a number if it has a mask for it. -/
theorem draws_execute (random : Nat → Int) (m : Machine w h τ) (i : Instruction) :
    (m.execute random i).1.draws = m.draws + i.mask?.toList.length := by
  cases i with
  | ret => cases hs : m.cpu.stack <;> simp only [execute, hs] <;> rfl
  | skipEqByte | skipNeByte | skipEq | skipNe | skipKey | skipNoKey =>
    simp only [execute, skipIf_eq_goto]
    rfl
  | _ => rfl

/-- A step draws as many numbers as it has masks. -/
theorem draws_step (random : Nat → Int) (m : Machine w h τ) :
    (m.step random).machine.draws = m.draws + (m.step random).masks.length := by
  obtain ⟨_, _, hmachine, hhistory⟩ | ⟨i, _, _, _, hmachine, hhistory⟩ := step_history random m
  · rw [Outcome.masks, hmachine, hhistory]
    rfl
  · rw [Outcome.masks, hmachine, hhistory, draws_execute]
    cases hmask : i.mask? <;> simp [hmask] <;> rfl

/-- An instruction comes to the same from sources that agree under its mask. -/
theorem execute_congr {m : Machine w h τ} {i : Instruction}
    (hagree : AgreeUnder r₁ r₂ m.draws i.mask?.toList) : m.execute r₂ i = m.execute r₁ i := by
  cases i with
  | random x kk =>
    have hmasked : BitVec.ofInt 8 (r₁ m.draws) &&& kk = BitVec.ofInt 8 (r₂ m.draws) &&& kk := by
      have hland : (r₁ m.draws).land kk.toNat = (r₂ m.draws).land kk.toNat := hagree 0 kk rfl
      apply BitVec.eq_of_toNat_eq
      rw [← Int.ofNat_inj, Byte.toNat_ofInt_and, Byte.toNat_ofInt_and, hland]
    simp only [execute, hmasked]
  | _ => rfl

/-- A step comes to the same from sources that agree under its masks. -/
theorem step_congr {m : Machine w h τ} (hagree : AgreeUnder r₁ r₂ m.draws (m.step r₁).masks) :
    m.step r₂ = m.step r₁ := by
  cases hi : Instruction.decode? m.fetch with
  | none => simp only [step, hi]
  | some i =>
    cases hr : m.advance.refusal? i with
    | some e => simp only [step, hi, hr]
    | none =>
      have hmasks : (m.step r₁).masks = i.mask?.toList := by
        simp only [step, hi, hr]
        rw [Outcome.masks, history_done]
        cases hmask : i.mask? <;> simp [hmask]
      rw [hmasks] at hagree
      have hexecute : m.advance.execute r₂ i = m.advance.execute r₁ i := execute_congr hagree
      simp only [step, hi, hr, hexecute]

end Machine

namespace Outcome

variable {w h : Nat} {τ : Type} {r₁ r₂ : Nat → Int} {d : Nat}

/-- The loop of a frame draws as many numbers as it adds masks. -/
theorem draws_cycles (random : Nat → Int) {o : Outcome w h τ}
    (ho : o.machine.draws = d + o.masks.length) (k : Nat) :
    (o.cycles random k).machine.draws = d + (o.cycles random k).masks.length := by
  induction k generalizing o with
  | zero => exact ho
  | succ k ih =>
    rw [cycles]
    split
    · exact ho
    · apply ih
      rw [masks_next, List.length_append, ← Nat.add_assoc, ← ho]
      exact Machine.draws_step random o.machine

/-- The loop of a frame comes to the same from sources that agree under its masks. -/
theorem cycles_congr {o : Outcome w h τ} (ho : o.machine.draws = d + o.masks.length) {k : Nat}
    (hagree : AgreeUnder r₁ r₂ d (o.cycles r₁ k).masks) : o.cycles r₂ k = o.cycles r₁ k := by
  induction k generalizing o with
  | zero => rfl
  | succ k ih =>
    rw [cycles] at hagree
    rw [cycles, cycles]
    split
    · rfl
    · rename_i hblocked
      rw [if_neg hblocked] at hagree
      -- the masks of the next step are the first that the rest of the loop adds
      have hstep : AgreeUnder r₁ r₂ o.machine.draws (o.machine.step r₁).masks := by
        have hprefix := history_prefix_cycles r₁ (o.next r₁) k
        obtain ⟨rest, hrest⟩ := hprefix.filterMap fun s => s.2.mask?
        change (o.next r₁).masks ++ rest = ((o.next r₁).cycles r₁ k).masks at hrest
        rw [← hrest, masks_next] at hagree
        rw [ho]
        exact hagree.append.1.append.2
      have hnext : o.next r₂ = o.next r₁ := by simp only [next, Machine.step_congr hstep]
      have hdraws : (o.next r₁).machine.draws = d + (o.next r₁).masks.length := by
        have hone := draws_cycles r₁ ho 1
        rw [cycles, if_neg hblocked] at hone
        exact hone
      rw [hnext]
      exact ih hdraws hagree

end Outcome

namespace Machine

variable {w h : Nat} {τ : Type} [ToneGenerator τ] {r₁ r₂ : Nat → Int}

/-- A frame has the masks of its loop. -/
theorem masks_frame {m : Machine w h τ} (hm : m.cpu.mode = .running) (random : Nat → Int) :
    (m.frame random).masks = (m.idle.cycles random m.speed.toNat).masks := by
  rw [Outcome.masks, history_frame hm]
  rfl

/-- A frame draws as many numbers as it has masks. -/
theorem draws_frame (random : Nat → Int) (m : Machine w h τ) :
    (m.frame random).machine.draws = m.draws + (m.frame random).masks.length := by
  by_cases hm : m.cpu.mode = .running
  · have hloop : (m.idle.cycles random m.speed.toNat).machine.draws = _ :=
      Outcome.draws_cycles random (d := m.draws) rfl m.speed.toNat
    rw [masks_frame hm, ← hloop]
    simp only [frame, if_pos hm]
    split
    · rfl
    · rfl
    · split
      · rfl
      · obtain ⟨tone, hcomplete⟩ :=
          completeFrame_machine (m.idle.cycles random m.speed.toNat).machine
        simp only [Outcome.followedBy, hcomplete]
        rfl
  · rw [frame_of_mode_ne hm]
    rfl

/-- A frame comes to the same from sources that agree under its masks. -/
theorem frame_congr {m : Machine w h τ} (hagree : AgreeUnder r₁ r₂ m.draws (m.frame r₁).masks) :
    m.frame r₂ = m.frame r₁ := by
  by_cases hm : m.cpu.mode = .running
  · rw [masks_frame hm] at hagree
    have hloop : m.idle.cycles r₂ m.speed.toNat = m.idle.cycles r₁ m.speed.toNat :=
      Outcome.cycles_congr rfl hagree
    simp only [frame, hloop]
  · rw [frame_of_mode_ne hm, frame_of_mode_ne hm]

/-- An operation that runs no instruction carries none out and draws no number. -/
theorem perform_of_not_run (m : Machine w h τ) (env : Environment) {op : Operation}
    (hstep : op ≠ .step) (hframe : op ≠ .frame) :
    (m.perform env op).history = [] ∧ (m.perform env op).machine.draws = m.draws := by
  have hkey : ∀ (m : Machine w h τ) key,
      (m.keyPressed key).history = [] ∧ (m.keyPressed key).machine.draws = m.draws := by
    intro m key
    unfold keyPressed
    split
    · split <;> exact ⟨rfl, rfl⟩
    · exact ⟨rfl, rfl⟩
  cases op with
  | step => exact absurd rfl hstep
  | frame => exact absurd rfl hframe
  | keyPressed key => exact hkey m key
  | press key =>
    simp only [perform, press]
    split
    · exact ⟨rfl, rfl⟩
    · exact hkey _ _
    · rename_i again _
      cases again <;> exact ⟨rfl, rfl⟩
  | playSound =>
    obtain ⟨tone, hplay⟩ := playSound_machine m
    refine ⟨history_done_eq_nil fun e he => carriedOut?_of_mem_playSound he, ?_⟩
    rw [perform, done, hplay]
  | reset =>
    refine ⟨history_done_eq_nil fun e he => ?_, rfl⟩
    obtain rfl | he := List.mem_cons.mp he
    · rfl
    · exact carriedOut?_of_mem_request rfl he
  | loadNumbers numbers =>
    simp only [perform, loadNumbers]
    split <;> exact ⟨rfl, rfl⟩
  | loadFile path =>
    simp only [perform, loadFile]
    split <;> exact ⟨rfl, rfl⟩
  | release | updateTimers => exact ⟨rfl, rfl⟩

/-- An operation draws as many numbers as it has masks. -/
theorem draws_perform (m : Machine w h τ) (env : Environment) (op : Operation) :
    (m.perform env op).machine.draws = m.draws + (m.perform env op).masks.length := by
  by_cases hstep : op = .step
  · subst hstep
    exact draws_step env.random m
  · by_cases hframe : op = .frame
    · subst hframe
      exact draws_frame env.random m
    · obtain ⟨hhistory, hdraws⟩ := m.perform_of_not_run env hstep hframe
      rw [Outcome.masks, hhistory, hdraws]
      rfl

/-- The call made with the numbers of a random source. -/
abbrev drawingFrom (r : Nat → Int) (call : FileSystem × Operation) : Environment × Operation :=
  (⟨r, call.1⟩, call.2)

/-- An operation comes to the same from sources that agree under its masks. -/
theorem perform_congr {m : Machine w h τ} {files : FileSystem} {op : Operation}
    (hagree : AgreeUnder r₁ r₂ m.draws (m.perform ⟨r₁, files⟩ op).masks) :
    m.perform ⟨r₂, files⟩ op = m.perform ⟨r₁, files⟩ op := by
  cases op with
  | step => exact step_congr hagree
  | frame => exact frame_congr hagree
  | _ => rfl

/-- A machine has drawn as many numbers as its calls have masks. -/
theorem draws_after (m : Machine w h τ) (calls : List (Environment × Operation)) :
    (m.after calls).draws =
      m.draws + ((m.outcomes calls).flatMap Outcome.masks).length := by
  induction calls generalizing m with
  | nil => rfl
  | cons call calls ih =>
    obtain ⟨env, op⟩ := call
    rw [after, outcomes, ih, draws_perform, List.flatMap_cons, List.length_append, Nat.add_assoc]

/-- Calls come to the same from sources that agree under their masks. -/
theorem outcomes_congr {m : Machine w h τ} {script : List (FileSystem × Operation)}
    (hagree : AgreeUnder r₁ r₂ m.draws
      ((m.outcomes (script.map (drawingFrom r₁))).flatMap Outcome.masks)) :
    m.outcomes (script.map (drawingFrom r₂)) = m.outcomes (script.map (drawingFrom r₁)) := by
  induction script generalizing m with
  | nil => rfl
  | cons call script ih =>
    obtain ⟨files, op⟩ := call
    simp only [List.map_cons, outcomes, List.flatMap_cons] at hagree ⊢
    obtain ⟨hfirst, hrest⟩ := hagree.append
    rw [← draws_perform] at hrest
    rw [perform_congr hfirst, ih hrest]

/-- A machine has drawn one number for each random instruction that was carried out since power-on,
through restarts and whatever else it was told to do. And two runs of the same calls from one
machine come to the same, call by call, in the machine, in the error and in all that was observed,
if their sources agree number by number in the bits under the masks that the first run asks for. -/
theorem random_reaches_through_masks :
    (∀ (screen : Screen w h) (speed : Int) (calls : List (Environment × Operation)),
      let m : Machine w h τ := .powerOn screen speed
      (m.after calls).draws = ((m.outcomes calls).flatMap Outcome.masks).length) ∧
    ∀ (m : Machine w h τ) (r₁ r₂ : Nat → Int) (script : List (FileSystem × Operation)),
      AgreeUnder r₁ r₂ m.draws
        ((m.outcomes (script.map (drawingFrom r₁))).flatMap Outcome.masks) →
      m.outcomes (script.map (drawingFrom r₂)) = m.outcomes (script.map (drawingFrom r₁)) := by
  constructor
  · intro screen speed calls m
    exact (m.draws_after calls).trans (Nat.zero_add _)
  · intro m r₁ r₂ script hagree
    exact outcomes_congr hagree

/-- The program asks for the high bits of a number only if the low bits of the one before it are not
3. In the first frame they are, so that the masks of the second frame and of the one after the
restart, which goes on with the fourth number, depend on numbers that were drawn before them. -/
theorem random_reaches_through_masks_after_restart :
    let files : FileSystem := fun _ => .error .notFound
    let r₁ : Nat → Int := fun k => [0x03, 0x05, 0x70, 0x13].getD k 0
    let r₂ : Nat → Int := fun k => [0xF3, 0xA5, 0x7C, -13].getD k 0
    let program : List Int := [0xC1, 0x0F, 0x31, 0x03, 0xC2, 0xF0, 0x12, 0x00]
    let m : Machine 64 32 Tone := .powerOn (.dark 64 32) 3
    let script : List (FileSystem × Operation) :=
      [.loadNumbers program, .frame, .frame, .reset, .loadNumbers program, .frame].map
        (Prod.mk files)
    let masks := (m.outcomes (script.map (drawingFrom r₁))).flatMap Outcome.masks
    masks = [0x0F, 0x0F, 0xF0, 0x0F] ∧ AgreeUnder r₁ r₂ m.draws masks ∧
      m.outcomes (script.map (drawingFrom r₂)) = m.outcomes (script.map (drawingFrom r₁)) ∧
      (m.after (script.map (drawingFrom r₁))).draws = 4 := by
  intro files r₁ r₂ program m script masks
  obtain ⟨hdraws, hcongr⟩ := random_reaches_through_masks (w := 64) (h := 32) (τ := Tone)
  have hmasks : masks = [0x0F, 0x0F, 0xF0, 0x0F] := by decide +kernel
  have hagree : AgreeUnder r₁ r₂ m.draws masks := by
    rw [hmasks]
    decide +kernel
  refine ⟨hmasks, hagree, hcongr m r₁ r₂ script hagree, ?_⟩
  rw [hdraws]
  exact congrArg List.length hmasks

end Machine

end Chip8
