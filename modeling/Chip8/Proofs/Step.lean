import Chip8.Machine.Operation

/-!
# What one instruction can do

A step has three endings (`step_cases`): the word at the program counter is no instruction, the
instruction is refused, or it is carried out. In the first two only the program counter has moved
(`step_of_error`). An instruction leaves the mode, the awaited register and the listener alone
unless it waits for a key, and it neither sounds the tone nor presents the screen. The kept fault,
the tone, the speed and the marks of the screen are out of its reach (`execute_surroundings`).
-/

namespace Chip8

/-- The register that an instruction waits for a key for. -/
def Instruction.awaits? : Instruction → Option Nibble
  | waitKey x => some x
  | _ => none

/-- The event belongs to the end of a frame: it concerns the tone or the presented screen. -/
def Event.endsFrame : Event → Bool
  | presented | toneStarted _ | toneStopped | signal _ => true
  | _ => false

/-- The instruction that an event says was carried out, with the address it came from. -/
def Event.carriedOut? : Event → Option (Word × Instruction)
  | executed a i => some (a, i)
  | _ => none

/-- Toggling pixels neither marks the screen nor counts a frame. -/
theorem Screen.marks_toggleAll {w h : Nat} (s : Screen w h) (ps : List (Int × Int)) :
    (s.toggleAll ps).1.shouldDraw = s.shouldDraw ∧
      (s.toggleAll ps).1.framesPresented = s.framesPresented := by
  induction ps generalizing s with
  | nil => exact ⟨rfl, rfl⟩
  | cons p ps ih =>
    have hfirst : (s.toggle p.1 p.2).1.shouldDraw = s.shouldDraw ∧
        (s.toggle p.1 p.2).1.framesPresented = s.framesPresented := by
      unfold toggle
      split <;> exact ⟨rfl, rfl⟩
    obtain ⟨hdraw, hframes⟩ := ih (s.toggle p.1 p.2).1
    exact ⟨hdraw.trans hfirst.1, hframes.trans hfirst.2⟩

namespace Machine

variable {w h : Nat} {τ : Type}

/-- Going on after a condition is a jump either way. -/
theorem skipIf_eq_goto (m : Machine w h τ) (c : Bool) :
    m.skipIf c = m.goto (if c then m.cpu.pc.advance 2 else m.cpu.pc) := by
  cases c <;> rfl

/-- The machine past an instruction word differs in the program counter only. -/
theorem advance_eq (m : Machine w h τ) :
    m.advance = { m with cpu.pc := BitVec.ofNat 16 ((m.cpu.pc.toNat + 2) % 4096) } := by
  have hpc : m.cpu.pc.advance 2 = BitVec.ofNat 16 ((m.cpu.pc.toNat + 2) % 4096) := by
    apply BitVec.eq_of_toNat_eq
    rw [Word.toNat_advance, BitVec.toNat_ofNat, show (2 : Addr).toNat = 2 from rfl]
    omega
  rw [advance, goto, hpc]

/-- A step fails to decode, is refused or is carried out. -/
theorem step_cases (random : Nat → Int) (m : Machine w h τ) :
    (Instruction.decode? m.fetch = none ∧
      m.step random =
        m.advance.failed (.fault ⟨.unknownOpcode, m.fetch.toNat, m.cpu.pc.toNat⟩)) ∨
    (∃ i e, Instruction.decode? m.fetch = some i ∧ m.advance.refusal? i = some e ∧
      m.step random = m.advance.failed e) ∨
    (∃ i, Instruction.decode? m.fetch = some i ∧ m.advance.refusal? i = none ∧
      m.step random = done ((m.advance.execute random i).1,
        .executed m.cpu.pc i :: (m.advance.execute random i).2)) := by
  unfold step
  cases hi : Instruction.decode? m.fetch with
  | none => exact .inl ⟨rfl, rfl⟩
  | some i =>
    cases he : m.advance.refusal? i with
    | some e => exact .inr (.inl ⟨i, e, rfl, he, by simp only [he]⟩)
    | none => exact .inr (.inr ⟨i, rfl, he, by simp only [he]⟩)

/-- A failing step only moves the program counter, and nothing is observed of it. -/
theorem step_of_error {random : Nat → Int} {m : Machine w h τ} {e : Error}
    (he : (m.step random).error = some e) : m.step random = m.advance.failed e := by
  obtain ⟨_, hs⟩ | ⟨_, e', _, _, hs⟩ | ⟨_, _, _, hs⟩ := step_cases random m
  · rw [hs] at he ⊢
    exact congrArg _ (Option.some.inj he)
  · rw [hs] at he ⊢
    exact congrArg _ (Option.some.inj he)
  · rw [hs] at he
    cases he

/-- What holds past the instruction word, and of whatever is carried out there, holds after a
step. -/
theorem step_preserves {P : Machine w h τ → Prop} {random : Nat → Int} {m : Machine w h τ}
    (hadvance : P m.advance)
    (hexecute : ∀ i, m.advance.refusal? i = none → P (m.advance.execute random i).1) :
    P (m.step random).machine := by
  obtain ⟨_, hs⟩ | ⟨_, _, _, _, hs⟩ | ⟨i, _, hr, hs⟩ := step_cases random m
  · rw [hs]
    exact hadvance
  · rw [hs]
    exact hadvance
  · rw [hs]
    exact hexecute i hr

/-- An instruction that does not wait for a key leaves alone what a wait is made of. -/
theorem execute_of_not_awaits {i : Instruction} (hi : i.awaits? = none) (random : Nat → Int)
    (m : Machine w h τ) :
    (m.execute random i).1.cpu.mode = m.cpu.mode ∧
      (m.execute random i).1.cpu.keyRegister = m.cpu.keyRegister ∧
      (m.execute random i).1.keypad = m.keypad := by
  cases i with
  | ret => cases hs : m.cpu.stack <;> simp [execute, hs]
  | waitKey x => exact absurd hi nofun
  | _ => refine ⟨?_, ?_, ?_⟩ <;> simp only [execute, skipIf_eq_goto] <;> rfl

/-- The second machine differs from the first at most in what instructions can reach. -/
structure SameSurroundings (m m' : Machine w h τ) : Prop where
  fault : m'.cpu.fault = m.cpu.fault
  tone : m'.tone = m.tone
  speed : m'.speed = m.speed
  shouldDraw : m'.screen.shouldDraw = m.screen.shouldDraw
  framesPresented : m'.screen.framesPresented = m.screen.framesPresented

/-- An instruction leaves alone the kept fault, the tone, the speed and the marks of the screen. -/
theorem execute_surroundings (random : Nat → Int) (m : Machine w h τ) (i : Instruction) :
    SameSurroundings m (m.execute random i).1 := by
  cases i with
  | ret =>
    simp only [execute]
    split <;> exact ⟨rfl, rfl, rfl, rfl, rfl⟩
  | draw x y n =>
    obtain ⟨hdraw, hframes⟩ := m.screen.marks_toggleAll (m.spritePoints x y n)
    exact ⟨rfl, rfl, rfl, hdraw, hframes⟩
  | skipEqByte | skipNeByte | skipEq | skipNe | skipKey | skipNoKey =>
    simp only [execute, skipIf_eq_goto]
    exact ⟨rfl, rfl, rfl, rfl, rfl⟩
  | _ => exact ⟨rfl, rfl, rfl, rfl, rfl⟩

/-- A step leaves them alone too, whatever it ends in. -/
theorem step_surroundings (random : Nat → Int) (m : Machine w h τ) :
    SameSurroundings m (m.step random).machine := by
  apply step_preserves
  · exact ⟨rfl, rfl, rfl, rfl, rfl⟩
  · intro i _
    obtain ⟨hfault, htone, hspeed, hdraw, hframes⟩ := execute_surroundings random m.advance i
    exact ⟨hfault, htone, hspeed, hdraw, hframes⟩

/-- What is observed of carrying out an instruction neither ends the frame nor is an instruction
itself. -/
theorem plain_of_mem_execute {random : Nat → Int} {m : Machine w h τ} {i : Instruction}
    {e : Event} (he : e ∈ (m.execute random i).2) :
    e.endsFrame = false ∧ e.carriedOut? = none := by
  cases i with
  | ret => cases hs : m.cpu.stack <;> simp_all [execute, Event.endsFrame, Event.carriedOut?]
  | draw x y n =>
    simp only [execute, List.mem_append, List.mem_singleton] at he
    obtain he | rfl := he
    · obtain ⟨k, hk, rfl⟩ := List.getElem_of_mem he
      rw [List.getElem_zipWith]
      exact ⟨rfl, rfl⟩
    · exact ⟨rfl, rfl⟩
  | waitKey x =>
    simp only [execute, List.mem_cons, List.not_mem_nil, or_false] at he
    obtain rfl | rfl := he <;> exact ⟨rfl, rfl⟩
  | _ => simp_all [execute, Event.endsFrame, Event.carriedOut?]

/-- No event of a step ends the frame. -/
theorem endsFrame_of_mem_step {random : Nat → Int} {m : Machine w h τ} {e : Event}
    (he : e ∈ (m.step random).events) : e.endsFrame = false := by
  obtain ⟨_, hs⟩ | ⟨_, _, _, _, hs⟩ | ⟨i, _, _, hs⟩ := step_cases random m
  · simp [hs, failed] at he
  · simp [hs, failed] at he
  · rw [hs] at he
    simp only [done, List.mem_toArray, List.mem_cons] at he
    obtain rfl | he := he
    · rfl
    · exact (plain_of_mem_execute he).1

/-- A step of a running machine starts to wait exactly if its word says so, and then for the
register of that word. -/
theorem step_waits_iff (random : Nat → Int) {m : Machine w h τ} (hm : m.cpu.mode = .running)
    (x : Nibble) :
    (m.step random).machine.cpu.mode = .waiting ∧
        (m.step random).machine.cpu.keyRegister = some x ↔
      Instruction.decode? m.fetch = some (.waitKey x) := by
  have hnot : m.advance.cpu.mode ≠ .waiting := by
    rw [advance, goto, hm]
    rintro ⟨⟩
  obtain ⟨hi, hs⟩ | ⟨i, e, hi, hr, hs⟩ | ⟨i, hi, _, hs⟩ := step_cases random m
  · rw [hs, hi]
    exact ⟨fun hwaiting => absurd hwaiting.1 hnot, by rintro ⟨⟩⟩
  · rw [hs, hi]
    refine ⟨fun hwaiting => absurd hwaiting.1 hnot, ?_⟩
    rintro ⟨⟩
    cases hr
  · rw [hs, hi]
    cases hawaits : i.awaits? with
    | none =>
      obtain ⟨hmode, _, _⟩ := execute_of_not_awaits hawaits random m.advance
      refine ⟨fun hwaiting => absurd (hmode.symm.trans hwaiting.1) hnot, ?_⟩
      rintro ⟨⟩
      cases hawaits
    | some y =>
      cases i with
      | waitKey z => simp [done, execute]
      | _ => cases hawaits

/-- A step either starts to wait for a key or leaves the mode as it was. -/
theorem step_mode (random : Nat → Int) (m : Machine w h τ) :
    (m.step random).machine.cpu.mode = .waiting ∨
      (m.step random).machine.cpu.mode = m.cpu.mode := by
  apply step_preserves (P := fun m' => m'.cpu.mode = .waiting ∨ m'.cpu.mode = m.cpu.mode)
  · exact .inr rfl
  · intro i _
    cases hi : i.awaits? with
    | none => exact .inr (execute_of_not_awaits hi random m.advance).1
    | some x =>
      cases i with
      | waitKey y => exact .inl rfl
      | _ => exact absurd hi nofun

end Machine

end Chip8
