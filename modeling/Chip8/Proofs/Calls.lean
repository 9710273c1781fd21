import Chip8.Proofs.History
import Chip8.Proofs.Range

/-!
# Calls and returns

A return answers the latest call that has no answer yet, so the part of a history between a call
and its answer is balanced (`Balanced`). The stack holds a return address for each call that is
still open, in the order of the calls (`openReturns`). The invariant behind this is `Pending`: the
history up to now is balanced but for the open calls, with the stack telling where these return to.
A step keeps it (`Pending.step`), whatever the memory holds and whether the step fails or not.
-/

namespace Chip8

/-- The instruction is a call. -/
def Instruction.isCall : Instruction → Bool
  | call _ => true
  | _ => false

/-- An instruction is a call, a return or neither. -/
theorem Instruction.call_or_ret_or_plain (i : Instruction) :
    (∃ t, i = .call t) ∨ i = .ret ∨ i.isCall = false ∧ i ≠ .ret := by
  cases i with
  | call t => exact .inl ⟨t, rfl⟩
  | ret => exact .inr (.inl rfl)
  | _ => exact .inr (.inr ⟨rfl, by rintro ⟨⟩⟩)

/-- Instructions that were carried out, in order, with the addresses they came from. -/
abbrev History := List (Word × Instruction)

/-- Where a call returns to: past its two bytes, which may be the last of memory. -/
def Word.returnAddress (a : Word) : Word := BitVec.ofNat 16 ((a.toNat + 2) % 4096)

/-- The number of calls. -/
def callCount (l : History) : Nat := l.countP fun s => s.2.isCall

/-- The number of returns. -/
def returnCount (l : History) : Nat := l.countP fun s => s.2 = .ret

theorem callCount_cons (s : Word × Instruction) (l : History) :
    callCount (s :: l) = callCount l + if s.2.isCall then 1 else 0 :=
  List.countP_cons

theorem returnCount_cons (s : Word × Instruction) (l : History) :
    returnCount (s :: l) = returnCount l + if s.2 = .ret then 1 else 0 := by
  rw [returnCount, List.countP_cons, returnCount]
  simp only [decide_eq_true_eq]

theorem callCount_append (l k : History) : callCount (l ++ k) = callCount l + callCount k :=
  List.countP_append

theorem returnCount_append (l k : History) :
    returnCount (l ++ k) = returnCount l + returnCount k :=
  List.countP_append

/-- Every call is answered by a later return, and every return answers an earlier call. -/
inductive Balanced : History → Prop
  | nil : Balanced []
  | plain {a i l} (hcall : i.isCall = false) (hret : i ≠ .ret) (hl : Balanced l) :
      Balanced ((a, i) :: l)
  | call {a t l b k} (hl : Balanced l) (hk : Balanced k) :
      Balanced ((a, .call t) :: l ++ (b, .ret) :: k)

/-- What follows a call answers it: a balanced part and then a return. -/
def Answered (later : History) : Prop :=
  ∃ between b rest, Balanced between ∧ later = between ++ (b, .ret) :: rest

/-- The number of returns that answer no call of the history itself. -/
def excess : History → Nat
  | [] => 0
  | (_, .call _) :: later => excess later - 1
  | (_, .ret) :: later => excess later + 1
  | _ :: later => excess later

theorem excess_plain {i : Instruction} (hcall : i.isCall = false) (hret : i ≠ .ret) (a : Word)
    (l : History) : excess ((a, i) :: l) = excess l := by
  cases i with
  | call => cases hcall
  | ret => exact absurd rfl hret
  | _ => rfl

/-- A balanced part adds no excess to what follows it. -/
theorem Balanced.excess_append {l : History} (hl : Balanced l) (k : History) :
    excess (l ++ k) = excess k := by
  induction hl generalizing k with
  | nil => rfl
  | plain hcall hret _ ih => rw [List.cons_append, excess_plain hcall hret, ih]
  | call _ _ ihl ihk =>
    rw [List.cons_append, List.cons_append, List.append_assoc, excess, ihl, List.cons_append,
      excess, ihk, Nat.add_sub_cancel]

theorem Balanced.excess_eq_zero {l : History} (hl : Balanced l) : excess l = 0 := by
  have hexcess := hl.excess_append []
  rw [List.append_nil] at hexcess
  exact hexcess

/-- What has no excess of its own takes nothing away from what is before it. -/
theorem excess_append_of_eq_zero {k : History} (hk : excess k = 0) (l : History) :
    excess (l ++ k) = excess l := by
  induction l with
  | nil => exact hk
  | cons s l ih =>
    obtain ⟨a, i⟩ := s
    rw [List.cons_append]
    rcases i.call_or_ret_or_plain with ⟨t, rfl⟩ | rfl | ⟨hcall, hret⟩
    · rw [excess, excess, ih]
    · rw [excess, excess, ih]
    · rw [excess_plain hcall hret, excess_plain hcall hret, ih]

/-- An excess of returns answers a call before them. -/
theorem answered_of_excess_pos {later : History} (hpos : 0 < excess later) : Answered later := by
  -- on the length, since the answer of a nested call is looked for in what is left after it
  induction hn : later.length using Nat.strong_induction_on generalizing later with
  | _ n ih =>
    subst hn
    match later with
    | [] => exact absurd hpos (Nat.lt_irrefl 0)
    | (a, i) :: later =>
      have hshort : later.length < ((a, i) :: later).length := Nat.lt_succ_self _
      rcases i.call_or_ret_or_plain with ⟨t, rfl⟩ | rfl | ⟨hcall, hret⟩
      · have hpos' : 0 < excess later - 1 := hpos
        obtain ⟨between, b, rest, hbetween, rfl⟩ := ih _ hshort (by omega) rfl
        rw [hbetween.excess_append] at hpos'
        have hrest : rest.length < ((a, .call t) :: (between ++ (b, .ret) :: rest)).length := by
          simp only [List.length_cons, List.length_append]
          omega
        obtain ⟨between', b', rest', hbetween', rfl⟩ := ih _ hrest hpos' rfl
        exact ⟨(a, .call t) :: between ++ (b, .ret) :: between', b', rest',
          .call hbetween hbetween', by simp⟩
      · exact ⟨[], a, later, .nil, rfl⟩
      · rw [excess_plain hcall hret] at hpos
        obtain ⟨between, b, rest, hbetween, rfl⟩ := ih _ hshort hpos rfl
        exact ⟨(a, i) :: between, b, rest, .plain hcall hret hbetween, rfl⟩

/-- A call is answered if there is an excess of returns after it. -/
theorem answered_iff (later : History) : Answered later ↔ 0 < excess later := by
  constructor
  · rintro ⟨between, b, rest, hbetween, rfl⟩
    rw [hbetween.excess_append]
    exact Nat.succ_pos _
  · exact answered_of_excess_pos

instance (later : History) : Decidable (Answered later) :=
  decidable_of_iff _ (answered_iff later).symm

/-- The return addresses of the calls that have no answer, the oldest first. -/
def openReturns : History → List Word
  | [] => []
  | (a, .call _) :: later =>
    if Answered later then openReturns later else a.returnAddress :: openReturns later
  | _ :: later => openReturns later

theorem openReturns_cons {i : Instruction} (hi : i.isCall = false) (a : Word) (l : History) :
    openReturns ((a, i) :: l) = openReturns l := by
  cases i with
  | call => cases hi
  | _ => rfl

/-- A balanced part leaves no call open. -/
theorem Balanced.openReturns_append {l : History} (hl : Balanced l) (k : History) :
    openReturns (l ++ k) = openReturns k := by
  induction hl generalizing k with
  | nil => rfl
  | plain hcall _ _ ih => rw [List.cons_append, openReturns_cons hcall, ih]
  | @call a t l b k' hl _ ihl ihk =>
    have hanswered : Answered (l ++ (b, .ret) :: (k' ++ k)) := ⟨l, b, k' ++ k, hl, rfl⟩
    rw [List.cons_append, List.cons_append, List.append_assoc, List.cons_append, openReturns,
      if_pos hanswered, ihl, openReturns_cons rfl, ihk]

theorem Balanced.openReturns_eq_nil {l : History} (hl : Balanced l) : openReturns l = [] := by
  have hreturns := hl.openReturns_append []
  rw [List.append_nil] at hreturns
  exact hreturns

/-- A balanced part after a call leaves this call open, besides those that were open before it. -/
theorem Balanced.openReturns_call {k : History} (hk : Balanced k) (l : History) (a : Word)
    (t : Addr) : openReturns (l ++ (a, .call t) :: k) = openReturns l ++ [a.returnAddress] := by
  have hzero : excess ((a, .call t) :: k) = 0 := by rw [excess, hk.excess_eq_zero]
  induction l with
  | nil =>
    have hopen : ¬ Answered k := by
      rw [answered_iff, hk.excess_eq_zero]
      exact Nat.lt_irrefl 0
    simp only [List.nil_append, openReturns, if_neg hopen, hk.openReturns_eq_nil]
  | cons s l ih =>
    obtain ⟨b, i⟩ := s
    rw [List.cons_append]
    cases hi : i.isCall with
    | false => rw [openReturns_cons hi, openReturns_cons hi, ih]
    | true =>
      cases i with
      | call t' =>
        simp only [openReturns, answered_iff, excess_append_of_eq_zero hzero, ih]
        split_ifs <;> rfl
      | _ => cases hi

example : openReturns [(0x200, .call 0x300), (0x300, .call 0x400), (0x400, .ret)] = [0x202] := by
  decide

/-- Balanced histories stay balanced when one follows the other. -/
theorem Balanced.append {l k : History} (hl : Balanced l) (hk : Balanced k) :
    Balanced (l ++ k) := by
  induction hl with
  | nil => exact hk
  | plain hcall hret _ ih => exact .plain hcall hret ih
  | call hl _ _ ih =>
    rw [List.append_assoc, List.cons_append]
    exact .call hl ih

/-- In a balanced history there are as many calls as returns. -/
theorem Balanced.callCount_eq {l : History} (hl : Balanced l) : callCount l = returnCount l := by
  induction hl with
  | nil => rfl
  | plain hcall hret _ ih =>
    rw [callCount_cons, returnCount_cons, ih, if_neg hret, hcall]
    rfl
  | call _ _ ihl ihk =>
    rw [List.cons_append, callCount_cons, callCount_append, callCount_cons, returnCount_cons,
      returnCount_append, returnCount_cons, ihl, ihk]
    simp only [Instruction.isCall, reduceCtorEq, if_true, if_false, Bool.false_eq_true]
    omega

/-- The history is balanced but for open calls, which return to the addresses of the list, the
latest first. -/
inductive Pending : History → List Word → Prop
  | none {l} (hl : Balanced l) : Pending l []
  | call {l s a t k} (hs : Pending l s) (hk : Balanced k) :
      Pending (l ++ (a, .call t) :: k) (a.returnAddress :: s)

namespace Pending

variable {l k : History} {s : List Word}

/-- A balanced part leaves the open calls as they were. -/
theorem append (hs : Pending l s) (hk : Balanced k) : Pending (l ++ k) s := by
  cases hs with
  | none hl => exact .none (hl.append hk)
  | call hs hk' =>
    rw [List.append_assoc, List.cons_append]
    exact .call hs (hk'.append hk)

/-- The latest open call is the one that a return answers. -/
theorem ret {r : Word} (hs : Pending l (r :: s)) (b : Word) : Pending (l ++ [(b, .ret)]) s := by
  cases hs with
  | call hs hk =>
    rw [List.append_assoc, List.cons_append]
    exact hs.append (.call hk .nil)

/-- The open calls are the ones that have no answer. -/
theorem openReturns_eq (hs : Pending l s) : openReturns l = s.reverse := by
  induction hs with
  | none hl => exact hl.openReturns_eq_nil
  | call _ hk ih => rw [hk.openReturns_call, ih, List.reverse_cons]

/-- Each return has closed one call. -/
theorem length_add (hs : Pending l s) : s.length + returnCount l = callCount l := by
  induction hs with
  | none hl => rw [hl.callCount_eq, List.length_nil, Nat.zero_add]
  | call _ hk ih =>
    rw [List.length_cons, returnCount_append, returnCount_cons, callCount_append, callCount_cons,
      hk.callCount_eq, ← ih]
    simp only [Instruction.isCall, reduceCtorEq, if_true, if_false]
    omega

end Pending

namespace Machine

variable {w h : Nat} {τ : Type} {m : Machine w h τ}

/-- An instruction that is neither a call nor a return leaves the stack alone. -/
theorem execute_stack {i : Instruction} (hcall : i.isCall = false) (hret : i ≠ .ret)
    (random : Nat → Int) (m : Machine w h τ) : (m.execute random i).1.cpu.stack = m.cpu.stack := by
  cases i with
  | call => cases hcall
  | ret => exact absurd rfl hret
  | _ => simp only [execute, skipIf_eq_goto] <;> rfl

/-- Past a call the program counter is its return address. -/
theorem advance_pc (m : Machine w h τ) : m.advance.cpu.pc = m.cpu.pc.returnAddress := by
  rw [advance_eq]
  rfl

/-- A return that is carried out goes to the latest return address and takes it off the stack. -/
theorem execute_ret (hr : m.refusal? .ret = none) (random : Nat → Int) :
    m.cpu.stack = (m.execute random .ret).1.cpu.pc :: (m.execute random .ret).1.cpu.stack := by
  cases hs : m.cpu.stack with
  | nil => simp [refusal?, hs] at hr
  | cons pc rest => simp only [execute, hs]

end Machine

/-- A step keeps the stack and the history in agreement, whether it fails or not. -/
theorem Pending.step {w h : Nat} {τ : Type} {m : Machine w h τ} {l : History}
    (hl : Pending l m.cpu.stack) (random : Nat → Int) :
    Pending (l ++ (m.step random).history) (m.step random).machine.cpu.stack := by
  obtain ⟨_, _, hmachine, hhistory⟩ | ⟨i, _, hr, _, hmachine, hhistory⟩ := m.step_history random
  · rw [hmachine, hhistory, List.append_nil]
    exact hl
  · rw [hmachine, hhistory]
    rcases i.call_or_ret_or_plain with ⟨t, rfl⟩ | rfl | ⟨hcall, hret⟩
    · have hpushed : (m.advance.execute random (.call t)).1.cpu.stack =
          m.cpu.pc.returnAddress :: m.cpu.stack := by
        rw [← m.advance_pc]
        rfl
      rw [hpushed]
      exact hl.call .nil
    · have hpopped : m.cpu.stack = _ := m.advance.execute_ret hr random
      rw [hpopped] at hl
      exact hl.ret m.cpu.pc
    · rw [Machine.execute_stack hcall hret]
      exact hl.append (.plain hcall hret .nil)

namespace Machine

variable {w h : Nat} {τ : Type} {m : Machine w h τ}

/-- A step whose history is an instruction has carried it out. -/
theorem step_of_history {random : Nat → Int} {a : Word} {i : Instruction}
    (hi : (m.step random).history = [(a, i)]) :
    m.advance.refusal? i = none ∧ (m.step random).machine = (m.advance.execute random i).1 := by
  obtain ⟨_, _, _, hhistory⟩ | ⟨_, _, hr, _, hmachine, hhistory⟩ := m.step_history random
  · cases hhistory.symm.trans hi
  · obtain ⟨-, rfl⟩ := Prod.mk.inj (List.singleton_inj.mp (hhistory.symm.trans hi))
    exact ⟨hr, hmachine⟩

/-- A return that is carried out answers the latest open call. -/
theorem step_ret {l : History} (hl : Pending l m.cpu.stack) {random : Nat → Int} {b : Word}
    (hret : (m.step random).history = [(b, .ret)]) :
    ∃ before a t between, l = before ++ (a, .call t) :: between ∧ Balanced between ∧
      (m.step random).machine.cpu.pc = a.returnAddress := by
  obtain ⟨hr, hmachine⟩ := step_of_history hret
  have hpopped : m.cpu.stack = _ := m.advance.execute_ret hr random
  rw [hpopped, ← hmachine] at hl
  generalize (m.step random).machine.cpu.pc = pc, (m.step random).machine.cpu.stack = rest at hl
  cases hl with
  | @call before _ a t between _ hbetween => exact ⟨before, a, t, between, rfl, hbetween, rfl⟩

/-- From power-on, steps keep the stack and the history in agreement. -/
theorem pending_steps (hm : m.cpu = .powerOn) (random : Nat → Int) (n : Nat) :
    Pending (m.steps random n).history (m.steps random n).machine.cpu.stack := by
  induction n with
  | zero =>
    rw [steps, idle, hm]
    exact .none .nil
  | succ n ih =>
    rw [steps, Outcome.history_next]
    exact ih.step random

/-- From power-on, steps keep within the range of the stack. -/
theorem inRange_steps (hm : m.cpu = .powerOn) (random : Nat → Int) (n : Nat) :
    (m.steps random n).machine.InRange := by
  have hfirst : m.InRange := by
    refine ⟨?_, ?_, ?_⟩ <;> rw [hm]
    · exact Addr.toNat_toWord_lt Memory.programStart
    · exact Nat.zero_le _
    · rintro a ⟨⟩
  exact steps_preserves (fun _ hm => hm.step random) hfirst n

/-- After any number of steps from power-on, whatever the memory holds, the stack is the return
addresses of the calls that have no answer, the oldest first. It is as long as there are more calls
than returns, and never longer than sixteen. A return that is carried out goes to the return address
of the call that it answers. What is neither a call nor a return leaves the stack alone, and so does
what fails. -/
theorem stack_eq_openReturns (random : Nat → Int) (hm : m.cpu = .powerOn) (n : Nat) :
    let run := m.steps random n
    let step := run.machine.step random
    run.machine.cpu.stack.reverse = openReturns run.history ∧
    run.machine.cpu.stack.length + returnCount run.history = callCount run.history ∧
    run.machine.cpu.stack.length ≤ 16 ∧
    (∀ b, step.history = [(b, .ret)] → ∃ before a t between,
      run.history = before ++ (a, .call t) :: between ∧ Balanced between ∧
        step.machine.cpu.pc = a.returnAddress) ∧
    (∀ a i, step.history = [(a, i)] → i.isCall = false → i ≠ .ret →
      step.machine.cpu.stack = run.machine.cpu.stack) ∧
    (∀ e, step.error = some e →
      step.history = [] ∧ step.machine.cpu.stack = run.machine.cpu.stack) := by
  intro run step
  have hpending : Pending run.history run.machine.cpu.stack := pending_steps hm random n
  refine ⟨hpending.openReturns_eq.symm, hpending.length_add,
    (inRange_steps hm random n).stack_length_le, fun _ hret => step_ret hpending hret, ?_, ?_⟩
  · intro a i hi hcall hret
    obtain ⟨-, hmachine⟩ := step_of_history hi
    rw [hmachine, execute_stack hcall hret]
    rfl
  · intro e he
    have hfailed : step = _ := step_of_error he
    rw [hfailed]
    exact ⟨rfl, rfl⟩

/-- A program that writes a call into the last two cells of memory and jumps there: the call has
the return address 0, and that is where the return goes on. -/
theorem stack_eq_openReturns_past_last_cell :
    let random : Nat → Int := fun _ => 0
    let m : Machine 64 32 Tone := (Machine.powerOn (.dark 64 32) 10).performAll
      ⟨random, fun _ => .error .notFound⟩
      [.loadNumbers [0x60, 0x22, 0x61, 0x0A, 0xAF, 0xFE, 0xF1, 0x55, 0x1F, 0xFE, 0x00, 0xEE]]
    let run := m.steps random 6
    m.cpu = .powerOn ∧ run.history.getLast? = some (0xFFE, .call 0x20A) ∧
      openReturns run.history = [0x000] ∧
      run.machine.cpu.stack.reverse = openReturns run.history ∧
      (∃ before a t between, run.history = before ++ (a, .call t) :: between ∧ Balanced between ∧
        (run.machine.step random).machine.cpu.pc = a.returnAddress) ∧
      (run.machine.step random).machine.cpu.pc = 0x000 := by
  intro random m run
  have hm : m.cpu = .powerOn := by decide +kernel
  have hrun : run.history.getLast? = some (0xFFE, .call 0x20A) ∧
      openReturns run.history = [0x000] ∧
      (run.machine.step random).history = [(0x20A, .ret)] ∧
      (run.machine.step random).machine.cpu.pc = 0x000 := by
    decide +kernel
  have hcalls := stack_eq_openReturns random hm 6
  exact ⟨hm, hrun.1, hrun.2.1, hcalls.1, hcalls.2.2.2.1 _ hrun.2.2.1, hrun.2.2.2⟩

end Machine

end Chip8
