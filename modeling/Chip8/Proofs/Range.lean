import Chip8.Proofs.Arithmetic
import Chip8.Proofs.Reachable

/-!
# The ranges of a machine's numbers

The program counter and the return addresses have sixteen bits but stay below 4096, and the stack
stays within its depth. This is an invariant (`InRange`) of instructions that are not refused
(`InRange.execute`), of steps, frames and all operations: a jump takes its target from twelve bits
of the instruction, a return takes it from the stack, and a call puts there where the program
counter has been advanced to. All other ranges are the widths of the cells, in which the machine
computes without truncation.
-/

namespace Chip8

/-- An address is below 4096 as a word too. -/
theorem Addr.toNat_toWord_lt (a : Addr) : a.toWord.toNat < 4096 := by
  rw [toNat_toWord]
  exact a.isLt

namespace Machine

variable {w h : Nat} {τ : Type}

/-- The program counter and the return addresses are addresses of memory cells, and the stack has
room for them. -/
structure InRange (m : Machine w h τ) : Prop where
  pc_lt : m.cpu.pc.toNat < 4096
  stack_length_le : m.cpu.stack.length ≤ stackDepth
  stack_lt : ∀ a ∈ m.cpu.stack, a.toNat < 4096

namespace InRange

variable {m : Machine w h τ}

/-- Only the program counter and the stack matter. -/
theorem congr (hm : m.InRange) {m' : Machine w h τ} (hpc : m'.cpu.pc = m.cpu.pc)
    (hstack : m'.cpu.stack = m.cpu.stack) : m'.InRange :=
  ⟨hpc ▸ hm.pc_lt, hstack ▸ hm.stack_length_le, hstack ▸ hm.stack_lt⟩

/-- Going to an address of a memory cell keeps the range. -/
theorem goto (hm : m.InRange) {pc : Word} (hpc : pc.toNat < 4096) : (m.goto pc).InRange :=
  ⟨hpc, hm.stack_length_le, hm.stack_lt⟩

/-- Moving past an instruction keeps the range. -/
theorem advance (hm : m.InRange) : m.advance.InRange :=
  hm.goto (Word.advance_lt _ _)

/-- Skipping keeps the range. -/
theorem skipIf (hm : m.InRange) (c : Bool) : (m.skipIf c).InRange := by
  cases c with
  | false => exact hm
  | true => exact hm.advance

/-- An instruction that is not refused keeps the range. -/
theorem execute (hm : m.InRange) {i : Instruction} (hi : m.refusal? i = none)
    (random : Nat → Int) : (m.execute random i).1.InRange := by
  cases i with
  | ret =>
    -- the popped return address was in range because the whole stack was
    cases hs : m.cpu.stack with
    | nil => simp [refusal?, hs] at hi
    | cons pc rest =>
      have hlength := hm.stack_length_le
      have hlt := hm.stack_lt
      rw [hs] at hlength hlt
      simp only [Machine.execute, hs]
      exact ⟨hlt pc (List.mem_cons_self ..), Nat.le_of_succ_le hlength,
        fun a ha => hlt a (List.mem_cons_of_mem pc ha)⟩
  | call nnn =>
    -- the pushed return address is the program counter, and the stack was not full
    have hroom : m.cpu.stack.length < stackDepth := by
      refine Nat.lt_of_not_le fun hfull => ?_
      simp [refusal?, hfull] at hi
    refine ⟨Addr.toNat_toWord_lt nnn, hroom, fun a ha => ?_⟩
    obtain rfl | ha := List.mem_cons.mp ha
    · exact hm.pc_lt
    · exact hm.stack_lt a ha
  | jump nnn => exact hm.goto (Addr.toNat_toWord_lt nnn)
  | jumpFrom nnn => exact hm.goto (Addr.toNat_toWord_lt _)
  | skipEqByte | skipNeByte | skipEq | skipNe | skipKey | skipNoKey => exact hm.skipIf _
  | _ => exact hm.congr rfl rfl

/-- A step keeps the range, also if it fails. -/
theorem step (hm : m.InRange) (random : Nat → Int) : (m.step random).machine.InRange :=
  step_preserves hm.advance fun _ hi => hm.advance.execute hi random

/-- A key keeps the range. -/
theorem keyPressed (hm : m.InRange) (key : Int) : (m.keyPressed key).machine.InRange := by
  unfold Machine.keyPressed
  split
  · split <;> exact hm.congr rfl rfl
  · exact hm

/-- Pressing a key keeps the range, whoever listens. -/
theorem press (hm : m.InRange) (key : Int) : (m.press key).machine.InRange := by
  have hm' : InRange { m with keypad := (m.keypad.press key).1 } :=
    hm.congr rfl rfl
  unfold Machine.press
  dsimp only
  split
  · exact hm'
  · exact hm'.keyPressed _
  · exact hm'

variable [ToneGenerator τ]

/-- The end of a frame keeps the range. -/
theorem completeFrame (hm : m.InRange) : m.completeFrame.1.InRange := by
  obtain ⟨tone, hcomplete⟩ := completeFrame_machine m
  rw [hcomplete]
  exact hm.congr rfl rfl

/-- A frame keeps the range, also if a fault ends it. -/
theorem frame (hm : m.InRange) (random : Nat → Int) : (m.frame random).machine.InRange :=
  frame_preserves (fun _ hm => hm.step random)
    (fun _ _ _ hm => hm.congr rfl rfl)
    (fun _ hm => hm.completeFrame) hm

/-- The range holds at power-on. -/
theorem powerOn (screen : Screen w h) (speed : Int) :
    (Machine.powerOn screen speed : Machine w h τ).InRange :=
  ⟨Addr.toNat_toWord_lt Memory.programStart, Nat.zero_le _, nofun⟩

/-- Every operation keeps the range, also one that ends in an error. -/
theorem perform (hm : m.InRange) (env : Environment) (op : Operation) :
    (m.perform env op).machine.InRange := by
  cases op with
  | step => exact hm.step env.random
  | frame => exact hm.frame env.random
  | press key => exact hm.press key
  | keyPressed key => exact hm.keyPressed key
  | playSound =>
    obtain ⟨tone, hplay⟩ := playSound_machine m
    rw [Machine.perform, done, hplay]
    exact hm.congr rfl rfl
  | reset => exact (powerOn m.screen m.speed (τ := τ)).congr rfl rfl
  | loadNumbers numbers =>
    obtain ⟨memory, hload⟩ := loadNumbers_machine m numbers
    rw [Machine.perform, hload]
    exact hm.congr rfl rfl
  | loadFile path =>
    obtain ⟨memory, hload⟩ := loadFile_machine env.files m path
    rw [Machine.perform, hload]
    exact hm.congr rfl rfl
  | release | updateTimers => exact hm.congr rfl rfl

end InRange

/-- Every reachable machine is in range. -/
theorem Reachable.inRange [ToneGenerator τ] {m : Machine w h τ} (hm : Reachable m) : m.InRange :=
  hm.invariant .powerOn fun _ env op hm => hm.perform env op

/-- The numbers that a machine shows are in their ranges. -/
structure Bounded (m : Machine w h τ) : Prop where
  length_v : m.cpu.v.toList.length = 16
  v_le : ∀ b ∈ m.cpu.v.toList, b.toNat ≤ 0xFF
  i_le : m.cpu.i.toNat ≤ 0xFFFF
  pc_le : m.cpu.pc.toNat ≤ 0xFFF
  length_stack_le : m.cpu.stack.length ≤ 16
  stack_le : ∀ a ∈ m.cpu.stack, a.toNat ≤ 0xFFF
  delay_le : m.cpu.delay.toNat ≤ 0xFF
  sound_le : m.cpu.sound.toNat ≤ 0xFF
  keyRegister_le : ∀ x, m.cpu.keyRegister = some x → x.toNat ≤ 15
  length_memory : m.memory.toList.length = 4096
  memory_le : ∀ b ∈ m.memory.toList, b.toNat ≤ 0xFF
  length_screen : m.screen.toLists.length = h ∧ ∀ row ∈ m.screen.toLists, row.length = w
  pixel : ∀ row ∈ m.screen.toLists, ∀ lit ∈ row, lit.toNat = 0 ∨ lit.toNat = 1

/-- A machine in range is bounded. -/
theorem InRange.bounded {m : Machine w h τ} (hm : m.InRange) : m.Bounded where
  length_v := Vector.length_toList
  v_le b _ := Nat.le_of_lt_succ b.isLt
  i_le := Nat.le_of_lt_succ m.cpu.i.isLt
  pc_le := Nat.le_of_lt_succ hm.pc_lt
  length_stack_le := hm.stack_length_le
  stack_le a ha := Nat.le_of_lt_succ (hm.stack_lt a ha)
  delay_le := Nat.le_of_lt_succ m.cpu.delay.isLt
  sound_le := Nat.le_of_lt_succ m.cpu.sound.isLt
  keyRegister_le x _ := Nat.le_of_lt_succ x.isLt
  length_memory := Vector.length_toList
  memory_le b _ := Nat.le_of_lt_succ b.isLt
  length_screen := by simp [Screen.toLists]
  pixel _ _ lit _ := by cases lit <;> simp

variable [ToneGenerator τ]

/-- All numbers of a reachable machine are in their ranges, and they stay there in an operation
that ends in an error. They are the numbers that arithmetic without a width gives. -/
theorem Reachable.bounded_throughout {m : Machine w h τ} (hm : Reachable m) :
    m.Bounded ∧
    (∀ env op e, (m.perform env op).error = some e → (m.perform env op).machine.Bounded) ∧
    m.Exact := by
  refine ⟨hm.inRange.bounded, fun env op e _ => ?_, numbers_exact m⟩
  have hafter : Reachable (m.perform env op).machine := hm.perform env op
  exact hafter.inRange.bounded

/-- A source that gives `-1` fills a register with ones, and a return on an empty stack then ends
in an error. -/
theorem bounded_after_failed_return :
    let env : Environment := ⟨fun _ => -1, fun _ => .error .notFound⟩
    let m : Machine 64 32 Tone :=
      (Machine.powerOn (.dark 64 32) 10).performAll env
        [.loadNumbers [0xC0, 0xFF, 0x00, 0xEE], .step]
    Reachable m ∧ m.reg 0 = 0xFF ∧ m.Bounded ∧
      (m.perform env .step).error = some (.fault ⟨.stackUnderflow, 0x00EE, 0x202⟩) ∧
      (m.perform env .step).machine.Bounded := by
  intro env m
  have hm : Reachable m := (Reachable.powerOn _ _).performAll _ _
  have herror : (m.perform env .step).error = some (.fault ⟨.stackUnderflow, 0x00EE, 0x202⟩) := by
    decide +kernel
  have hbounded := Reachable.bounded_throughout hm
  exact ⟨hm, by decide +kernel, hbounded.1, herror, hbounded.2.1 env .step _ herror⟩

end Machine

end Chip8
