import Chip8.Proofs.History
import Chip8.Proofs.KeyWait

/-!
# Programs that do not look at keys

Three instructions look at keys: two ask whether a key is held, and one waits for a key. A frame in
which none of them is carried out does the same whatever the keypad holds and whoever listens there
(`Machine.frame_withKeypad`), and it does not begin to wait. A machine that does not wait lets keys
change nothing but its keypad, even if it still listens. So keys that come before, between and after
such frames make no difference to them (`Machine.Reachable.keys_do_not_disturb`).
-/

namespace Chip8

/-- The instruction asks the keypad for a key or waits for one. -/
def Instruction.looksAtKeys : Instruction → Bool
  | skipKey _ | skipNoKey _ | waitKey _ => true
  | _ => false

variable {w h : Nat} {τ : Type}

/-- The machine with another keypad. -/
def Machine.withKeypad (m : Machine w h τ) (p : Keypad) : Machine w h τ := { m with keypad := p }

namespace Outcome

/-- No instruction that looks at keys was carried out. -/
def Keyless (o : Outcome w h τ) : Prop := ∀ s ∈ o.history, s.2.looksAtKeys = false

instance (o : Outcome w h τ) : Decidable o.Keyless :=
  inferInstanceAs (Decidable (∀ s ∈ o.history, s.2.looksAtKeys = false))

/-- The outcome with another keypad in its machine. -/
def withKeypad (o : Outcome w h τ) (p : Keypad) : Outcome w h τ :=
  { o with machine := o.machine.withKeypad p }

end Outcome

namespace Machine

/-- An instruction that does not look at keys does the same with another keypad. -/
theorem execute_withKeypad {i : Instruction} (hi : i.looksAtKeys = false) (random : Nat → Int)
    (m : Machine w h τ) (p : Keypad) :
    (m.withKeypad p).execute random i =
      ((m.execute random i).1.withKeypad p, (m.execute random i).2) := by
  have hskip : ∀ c, (m.withKeypad p).skipIf c = (m.skipIf c).withKeypad p := by
    intro c
    cases c <;> rfl
  cases i with
  | skipKey | skipNoKey | waitKey => cases hi
  | ret =>
    have hstack : (m.withKeypad p).cpu.stack = m.cpu.stack := rfl
    cases hs : m.cpu.stack with
    | nil => simp only [execute, hstack, hs]
    | cons top stack =>
      simp only [execute, hstack, hs]
      rfl
  | skipEqByte | skipNeByte | skipEq | skipNe =>
    simp only [execute, hskip]
    rfl
  | _ => rfl

/-- An instruction that does not look at keys does not begin to wait for one. -/
theorem awaits?_of_not_looksAtKeys {i : Instruction} (hi : i.looksAtKeys = false) :
    i.awaits? = none := by
  cases i with
  | waitKey => cases hi
  | _ => rfl

/-- A step that does not look at keys does the same with another keypad. -/
theorem step_withKeypad {random : Nat → Int} {m : Machine w h τ}
    (hm : (m.step random).Keyless) (p : Keypad) :
    (m.withKeypad p).step random = (m.step random).withKeypad p := by
  have hfetch : (m.withKeypad p).fetch = m.fetch := rfl
  have hadvance : (m.withKeypad p).advance = m.advance.withKeypad p := rfl
  cases hi : Instruction.decode? m.fetch with
  | none =>
    simp only [step, hfetch, hadvance, hi]
    rfl
  | some i =>
    have hrefusal : (m.advance.withKeypad p).refusal? i = m.advance.refusal? i := rfl
    cases hr : m.advance.refusal? i with
    | some e =>
      simp only [step, hfetch, hadvance, hrefusal, hi, hr]
      rfl
    | none =>
      have hlooks : i.looksAtKeys = false := hm _ (mem_history_step hi hr random)
      simp only [step, hfetch, hadvance, hrefusal, hi, hr, execute_withKeypad hlooks]
      rfl

/-- A step that does not look at keys leaves the mode alone. -/
theorem mode_step_of_keyless {random : Nat → Int} {m : Machine w h τ}
    (hm : (m.step random).Keyless) : (m.step random).machine.cpu.mode = m.cpu.mode := by
  obtain ⟨_, _, hmachine, -⟩ | ⟨i, hi, hr, -, hmachine, -⟩ := step_history random m
  · rw [hmachine]
    rfl
  · have hlooks : i.looksAtKeys = false := hm _ (mem_history_step hi hr random)
    rw [hmachine]
    exact (execute_of_not_awaits (awaits?_of_not_looksAtKeys hlooks) random m.advance).1

end Machine

namespace Outcome

/-- If nothing in the loop of a frame looks at keys, then neither does its first step. -/
theorem Keyless.first {random : Nat → Int} {o : Outcome w h τ} {k : Nat}
    (ho : ((o.next random).cycles random k).Keyless) : (o.machine.step random).Keyless := by
  intro s hs
  have hnext : s ∈ (o.next random).history := by
    rw [history_next]
    exact List.mem_append_right _ hs
  exact ho s ((history_prefix_cycles random (o.next random) k).subset hnext)

/-- The loop of a frame that does not look at keys does the same with another keypad. -/
theorem cycles_withKeypad {random : Nat → Int} {o : Outcome w h τ} {k : Nat}
    (ho : (o.cycles random k).Keyless) (p : Keypad) :
    (o.withKeypad p).cycles random k = (o.cycles random k).withKeypad p := by
  induction k generalizing o with
  | zero => rfl
  | succ k ih =>
    have hblocked : (o.withKeypad p).isBlocked = o.isBlocked := rfl
    rw [cycles] at ho
    rw [cycles, cycles, hblocked]
    split
    · rfl
    · rename_i hb
      rw [if_neg hb] at ho
      have hnext : (o.withKeypad p).next random = (o.next random).withKeypad p := by
        have hstep := Machine.step_withKeypad ho.first p
        change (o.withKeypad p).machine.step random = _ at hstep
        simp only [next, hstep]
        rfl
      rw [hnext]
      exact ih ho

/-- The loop of a frame that does not look at keys leaves the mode alone. -/
theorem mode_cycles_of_keyless {random : Nat → Int} {o : Outcome w h τ} {k : Nat}
    (ho : (o.cycles random k).Keyless) :
    (o.cycles random k).machine.cpu.mode = o.machine.cpu.mode := by
  induction k generalizing o with
  | zero => rfl
  | succ k ih =>
    rw [cycles] at ho ⊢
    split
    · rfl
    · rename_i hb
      rw [if_neg hb] at ho
      exact (ih ho).trans (Machine.mode_step_of_keyless ho.first)

end Outcome

namespace Machine

variable [ToneGenerator τ]

/-- The end of a frame does the same with another keypad. -/
theorem completeFrame_withKeypad (m : Machine w h τ) (p : Keypad) :
    (m.withKeypad p).completeFrame = (m.completeFrame.1.withKeypad p, m.completeFrame.2) := by
  have hplay : (m.withKeypad p).updateTimers.playSound =
      (m.updateTimers.playSound.1.withKeypad p, m.updateTimers.playSound.2) := by
    have hsound : (m.withKeypad p).updateTimers.cpu.sound = m.updateTimers.cpu.sound := rfl
    simp only [playSound, hsound]
    split <;> rfl
  simp only [completeFrame, hplay]
  rfl

/-- A frame that does not look at keys does the same with another keypad. -/
theorem frame_withKeypad {random : Nat → Int} {m : Machine w h τ}
    (hm : (m.frame random).Keyless) (p : Keypad) :
    (m.withKeypad p).frame random = (m.frame random).withKeypad p := by
  by_cases hrun : m.cpu.mode = .running
  · have hrun' : (m.withKeypad p).cpu.mode = .running := hrun
    rw [Outcome.Keyless, history_frame hrun] at hm
    have hloop : (m.withKeypad p).idle.cycles random (m.withKeypad p).speed.toNat = _ :=
      Outcome.cycles_withKeypad hm p
    simp only [frame, if_pos hrun, if_pos hrun', hloop]
    generalize m.idle.cycles random m.speed.toNat = o
    have herror : (o.withKeypad p).error = o.error := rfl
    have hwaiting : (o.withKeypad p).machine.isWaiting = o.machine.isWaiting := rfl
    rw [herror]
    cases o.error with
    | some e => cases e <;> rfl
    | none =>
      simp only [hwaiting]
      split
      · rfl
      · have hcomplete : (o.withKeypad p).machine.completeFrame = _ :=
          completeFrame_withKeypad o.machine p
        rw [hcomplete]
        rfl
  · have hrun' : (m.withKeypad p).cpu.mode ≠ .running := hrun
    rw [frame_of_mode_ne hrun, frame_of_mode_ne hrun']
    rfl

/-- A frame that does not look at keys does not begin to wait for one. -/
theorem mode_frame_of_keyless {random : Nat → Int} {m : Machine w h τ}
    (hm : (m.frame random).Keyless) (hmode : m.cpu.mode ≠ .waiting) :
    (m.frame random).machine.cpu.mode ≠ .waiting := by
  by_cases hrun : m.cpu.mode = .running
  · rw [Outcome.Keyless, history_frame hrun] at hm
    have hloop : (m.idle.cycles random m.speed.toNat).machine.cpu.mode = .running :=
      (Outcome.mode_cycles_of_keyless hm).trans hrun
    simp only [frame, if_pos hrun]
    generalize m.idle.cycles random m.speed.toNat = o at hloop
    have hwaiting : o.machine.cpu.mode ≠ .waiting := by
      rw [hloop]
      rintro ⟨⟩
    split
    · rintro ⟨⟩
    · exact hwaiting
    · split
      · exact hwaiting
      · obtain ⟨tone, hcomplete⟩ := completeFrame_machine o.machine
        simp only [Outcome.followedBy, hcomplete]
        exact hwaiting
  · rw [frame_of_mode_ne hrun]
    exact hmode

/-- What the frames in a list of calls come to. -/
def frameOutcomes (m : Machine w h τ) : List (Environment × Operation) → List (Outcome w h τ)
  | [] => []
  | (env, op) :: calls =>
    let o := m.perform env op
    if op = .frame then o :: o.machine.frameOutcomes calls else o.machine.frameOutcomes calls

/-- Frames that do not look at keys come to the same, up to the keypad, from a machine with another
keypad that keys are pressed on in between. -/
theorem run_withKeypad {m : Machine w h τ} {p : Keypad} (hkey : (m.withKeypad p).KeyWait)
    (hmode : m.cpu.mode ≠ .waiting) {calls : List (Environment × Operation)}
    (hcalls : ∀ c ∈ calls, c.2 = .frame ∨ c.2.isKey = true)
    (hkeyless : ∀ o ∈ m.outcomes (calls.filter fun c => c.2 = .frame), o.Keyless) :
    ((m.withKeypad p).frameOutcomes calls).map (Outcome.withKeypad · .idle) =
        (m.outcomes (calls.filter fun c => c.2 = .frame)).map (Outcome.withKeypad · .idle) ∧
      ∃ q, (m.withKeypad p).after calls =
        (m.after (calls.filter fun c => c.2 = .frame)).withKeypad q := by
  induction calls generalizing m p with
  | nil => exact ⟨rfl, p, rfl⟩
  | cons c calls ih =>
    obtain ⟨env, op⟩ := c
    have hrest : ∀ c ∈ calls, c.2 = .frame ∨ c.2.isKey = true :=
      fun c hc => hcalls c (List.mem_cons_of_mem _ hc)
    rcases hcalls _ (List.mem_cons_self ..) with hop | hop
    · obtain rfl : op = .frame := hop
      rw [List.filter_cons_of_pos (by simp)] at hkeyless ⊢
      have hfirst : (m.frame env.random).Keyless := hkeyless _ (List.mem_cons_self ..)
      have hframe : (m.withKeypad p).perform env .frame = (m.frame env.random).withKeypad p :=
        frame_withKeypad hfirst p
      have hkey' := hkey.perform env .frame
      rw [hframe] at hkey'
      obtain ⟨houtcomes, q, hafter⟩ := ih hkey' (mode_frame_of_keyless hfirst hmode) hrest
        fun o ho => hkeyless o (List.mem_cons_of_mem _ ho)
      refine ⟨?_, q, ?_⟩
      · simp only [frameOutcomes, hframe, if_true, outcomes, List.map_cons]
        exact congrArg (List.cons _) houtcomes
      · simp only [after, hframe]
        exact hafter
    · have hop' : op ≠ .frame := by
        rintro rfl
        cases hop
      obtain ⟨-, q, hkeys⟩ := hkey.perform_key hmode env hop
      have hsame : ((m.withKeypad p).perform env op).machine = m.withKeypad q := hkeys
      have hkey' := hkey.perform env op
      rw [hsame] at hkey'
      rw [List.filter_cons_of_neg (by simpa using hop')] at hkeyless ⊢
      simp only [frameOutcomes, if_neg hop', after, hsame]
      exact ih hkey' hmode hrest hkeyless

/-- Keys do not disturb a running machine while it looks at none. If no instruction that looks at
keys is carried out in a number of frames, then keys that are pressed, let go, or told to the
machine directly, before the frames, between them and after them, make no difference: each frame
ends in the same error or none, shows the same events and leaves the same machine but for the
keypad, and so do all the calls together. It does not matter whether the machine is still listening
from before. -/
theorem Reachable.keys_do_not_disturb {m : Machine w h τ} (hm : Reachable m)
    (hmode : m.cpu.mode = .running) {calls : List (Environment × Operation)}
    (hcalls : ∀ c ∈ calls, c.2 = .frame ∨ c.2.isKey = true)
    (hkeyless : ∀ o ∈ m.outcomes (calls.filter fun c => c.2 = .frame), o.Keyless) :
    let frames := calls.filter fun c => c.2 = .frame
    (m.frameOutcomes calls).map (Outcome.withKeypad · .idle) =
        (m.outcomes frames).map (Outcome.withKeypad · .idle) ∧
      ∃ keypad, m.after calls = { m.after frames with keypad := keypad } := by
  have hrunning : m.cpu.mode ≠ .waiting := by
    rw [hmode]
    rintro ⟨⟩
  exact run_withKeypad (p := m.keypad) hm.keyWait hrunning hcalls hkeyless

/-- A machine that was restarted while it waited still listens. Its program sets the sound timer,
takes random numbers and draws, and the keys that come meanwhile, the first of which the listener is
told of, leave no trace but the key that is held in the end. -/
theorem keys_do_not_disturb_after_restart :
    let env : Environment := ⟨fun k => 37 * k, fun _ => .error .notFound⟩
    let m : Machine 64 32 Tone := (Machine.powerOn (.dark 64 32) 4).performAll env
      [.loadNumbers [0xF0, 0x0A], .frame, .reset, .loadNumbers
        [0x60, 0x05, 0xF0, 0x18, 0xC1, 0xFF, 0xD0, 0x05, 0x12, 0x00]]
    let calls := [.press 3, .frame, .keyPressed (-1), .release 3, .frame, .press 300].map
      (Prod.mk env)
    let frames := [.frame, .frame].map (Prod.mk env)
    Reachable m ∧ m.cpu.mode = .running ∧ m.keypad.listener = some .machine ∧
      (∀ o ∈ m.outcomes frames, o.Keyless) ∧
      (∃ keypad, m.after calls = { m.after frames with keypad := keypad }) ∧
      (m.after calls).keypad.heldKeys = [12] ∧ (m.after calls).draws = 2 ∧
      (m.after calls).tone.playing = true := by
  intro env m calls frames
  have hm : Reachable m := (Reachable.powerOn _ _).performAll _ _
  have hmode : m.cpu.mode = .running := by decide +kernel
  have hkeyless : ∀ o ∈ m.outcomes frames, o.Keyless := by decide +kernel
  have hcalls : ∀ c ∈ calls, c.2 = .frame ∨ c.2.isKey = true := by decide
  obtain ⟨-, hafter⟩ := hm.keys_do_not_disturb hmode hcalls hkeyless
  exact ⟨hm, hmode, by decide +kernel, hkeyless, hafter, by decide +kernel, by decide +kernel,
    by decide +kernel⟩

end Machine

end Chip8
