import Chip8.Proofs.Session
import Mathlib.Data.List.Induction

/-!
# Keys that are held

The keypad of a window holds the keys whose keyboard key went down in the last event about it, and
no others (`Window.isHeld_handleAll`): each keypad key has a keyboard key of its own
(`Key.pad?_eq_some_iff`), a press holds its key whoever listens, and neither frames nor restarts
touch a held key. So the instructions that ask for a key see just these keys
(`Window.held_keys_mirror_keyboard`).
-/

namespace Chip8

/-- The keyboard key that stands for a keypad key. -/
def Key.ofPad (k : Nibble) : Key :=
  [x, digit1, digit2, digit3, q, w, e, a, s, d, z, c, digit4, r, f, v].getD k.toNat other

/-- A keypad key has one keyboard key. -/
theorem Key.pad?_eq_some_iff {key : Key} {k : Nibble} : key.pad? = some k ↔ key = ofPad k := by
  constructor
  · intro hkey
    cases key with
    | escape | f1 | backspace | other => cases hkey
    | _ =>
      cases hkey
      rfl
  · rintro rfl
    revert k
    decide

/-- A keyboard key that stands for a keypad key is none that does not. -/
theorem Key.ne_of_pad?_eq_none {key key' : Key} {k : Nibble} (hkey' : key'.pad? = none)
    (hkey : key.pad? = some k) : key' ≠ key := by
  rintro rfl
  cases hkey'.symm.trans hkey

/-- Of a bank of keypad keys a keyboard key changes its own one and leaves the others. -/
theorem Key.get_set_eq {key key' : Key} {k k' : Nibble} (hkey : key.pad? = some k)
    (hkey' : key'.pad? = some k') (held : Bank 4 Bool) (b : Bool) :
    (held.set k' b).get k = (if key' = key then some b else none).getD (held.get k) := by
  by_cases heq : key' = key
  · subst heq
    obtain rfl := Option.some.inj (hkey'.symm.trans hkey)
    rw [Bank.get_set_self, if_pos rfl]
    rfl
  · have hne : k' ≠ k := by
      rintro rfl
      exact heq ((pad?_eq_some_iff.mp hkey').trans (pad?_eq_some_iff.mp hkey).symm)
    rw [Bank.get_set_ne held hne, if_neg heq]
    rfl

/-- What an event says about a keyboard key, if anything: that it went down, or that it came up. -/
def WindowEvent.touch? (key : Key) : WindowEvent → Option Bool
  | keyDown k => if k = key then some true else none
  | keyUp k => if k = key then some false else none
  | _ => none

/-- The last of the events about a keyboard key says that it went down. -/
def lastDown (key : Key) (events : List WindowEvent) : Bool :=
  (events.reverse.findSome? (WindowEvent.touch? key)).getD false

/-- The last event decides if it is about the key. -/
theorem lastDown_concat (key : Key) (events : List WindowEvent) (e : WindowEvent) :
    lastDown key (events ++ [e]) = (e.touch? key).getD (lastDown key events) := by
  rw [lastDown, List.reverse_concat, List.findSome?_cons]
  cases e.touch? key <;> rfl

/-- The number is that of a keypad key whose keyboard key went down in the last event about it. -/
def HeldAfter (events : List WindowEvent) (number : Int) : Prop :=
  ∃ key k, Key.pad? key = some k ∧ (k.toNat : Int) = number ∧ lastDown key events = true

namespace Keypad

/-- The held keys are listed in ascending order. -/
theorem heldKeys_pairwise (p : Keypad) : p.heldKeys.Pairwise (· < ·) :=
  List.pairwise_lt_range.filter _

/-- The held keys are listed by their numbers. -/
theorem mem_heldKeys_iff (p : Keypad) (n : Nat) : n ∈ p.heldKeys ↔ p.isHeld n = true := by
  rw [heldKeys, List.mem_filter, List.mem_range, and_iff_right_iff_imp, isHeld_eq_true_iff]
  rintro ⟨k, hk, -⟩
  have := k.isLt
  omega

end Keypad

/-- The end of a frame adds nothing but its own events. -/
theorem Outcome.mem_completed {w h : Nat} {τ : Type} [ToneGenerator τ] {o : Outcome w h τ}
    {e : Event} (he : e ∈ o.completed.events) : e ∈ o.events ∨ e.endsFrame = true := by
  simp only [completed, Array.mem_def, Array.toList_appendList, List.mem_append, List.mem_cons,
    List.not_mem_nil, or_false] at he
  obtain he | (he | he) | he := he
  · exact .inl (Array.mem_def.mpr he)
  · rw [he]
    split <;> exact .inr rfl
  · obtain ⟨s, -, rfl⟩ := List.mem_map.mp he
    exact .inr rfl
  · rw [he]
    exact .inr rfl

namespace Machine

variable {w h : Nat} {τ : Type}

/-- Going past an instruction word is a change. -/
theorem advance_ne (m : Machine w h τ) : m.advance ≠ m := by
  intro heq
  have hpc : (m.cpu.pc.advance 2).toNat = m.cpu.pc.toNat :=
    congrArg (fun m : Machine w h τ => m.cpu.pc.toNat) heq
  rw [Word.toNat_advance, show (2 : Addr).toNat = 2 from rfl] at hpc
  omega

/-- An instruction does not touch the held keys. -/
theorem held_execute (random : Nat → Int) (m : Machine w h τ) (i : Instruction) :
    (m.execute random i).1.keypad.held = m.keypad.held := by
  cases hi : i.awaits? with
  | none => rw [(execute_of_not_awaits hi random m).2.2]
  | some x =>
    cases i with
    | waitKey y => rfl
    | _ => cases hi

/-- Neither does any number of steps. -/
theorem held_steps (random : Nat → Int) (m : Machine w h τ) (k : Nat) :
    (m.steps random k).machine.keypad.held = m.keypad.held := by
  refine steps_preserves (P := fun m' => m'.keypad.held = m.keypad.held) (fun m' hm' => ?_) rfl k
  exact step_preserves (P := fun m'' => m''.keypad.held = m.keypad.held) hm'
    fun i _ => (held_execute random m'.advance i).trans hm'

/-- Of the two instructions that ask for the key in a register, one skips if it is held and the
other if it is not. -/
theorem execute_skips (random : Nat → Int) (m : Machine w h τ) (x : Nibble) :
    (m.execute random (.skipKey x)).1 =
        (if m.keypad.isHeld (m.reg x).toNat then m.advance else m) ∧
      (m.execute random (.skipNoKey x)).1 =
        if m.keypad.isHeld (m.reg x).toNat then m else m.advance := by
  cases hheld : m.keypad.isHeld (m.reg x).toNat <;> simp [execute, skipIf, hheld]

/-- An instruction that asks for a key is told whether it is held. -/
theorem keyQueried_of_mem_execute {random : Nat → Int} {m : Machine w h τ} {i : Instruction}
    {key : Int} {answer : Bool} (hmem : .keyQueried key answer ∈ (m.execute random i).2) :
    answer = m.keypad.isHeld key := by
  cases i with
  | skipKey x | skipNoKey x =>
    cases List.mem_singleton.mp hmem
    rfl
  | ret => cases hs : m.cpu.stack <;> simp [execute, hs] at hmem
  | draw x y n =>
    obtain hmem | hmem := List.mem_append.mp hmem
    · obtain ⟨k, hk, hevent⟩ := List.getElem_of_mem hmem
      rw [List.getElem_zipWith] at hevent
      cases hevent
    · cases List.mem_singleton.mp hmem
  | _ => simp [execute] at hmem

/-- Every query of a run is answered by the keys held at its start. -/
theorem keyQueried_of_mem_steps {random : Nat → Int} {m : Machine w h τ} {k : Nat} {key : Int}
    {answer : Bool} (hmem : .keyQueried key answer ∈ (m.steps random k).events) :
    answer = m.keypad.isHeld key := by
  induction k with
  | zero => simp [steps, idle] at hmem
  | succ k ih =>
    simp only [steps, Outcome.next, Array.mem_append] at hmem
    obtain hmem | hmem := hmem
    · exact ih hmem
    · have hheld := held_steps random m k
      obtain ⟨_, hs⟩ | ⟨_, _, _, _, hs⟩ | ⟨i, _, _, hs⟩ :=
        step_cases random (m.steps random k).machine
      · simp [hs, failed] at hmem
      · simp [hs, failed] at hmem
      · rw [hs] at hmem
        simp only [done, List.mem_toArray, List.mem_cons, reduceCtorEq, false_or] at hmem
        rw [keyQueried_of_mem_execute hmem]
        change (m.steps random k).machine.keypad.isHeld key = _
        rw [Keypad.isHeld, Keypad.isHeld, hheld]

/-- A press holds its key down and no other. -/
theorem held_press (m : Machine w h τ) (key : Int) :
    (m.press key).machine.keypad.held = m.keypad.held.set (keyOfNumber key) true := by
  obtain ⟨cpu, hpress⟩ := press_machine m key
  rw [hpress, Keypad.held_press]

variable [ToneGenerator τ]

/-- A frame does not touch the held keys. -/
theorem held_frame (random : Nat → Int) (m : Machine w h τ) :
    (m.frame random).machine.keypad.held = m.keypad.held := by
  have hsteps := held_steps random m
  have hending := frame_ending random m
  generalize m.frame random = o at hending ⊢
  cases hending with
  | skipped => rfl
  | completed | blocked | faulted | failed => exact hsteps _

/-- Every query of a frame is answered by the keys held at its start. -/
theorem keyQueried_of_mem_frame {random : Nat → Int} {m : Machine w h τ} {key : Int}
    {answer : Bool} (hmem : .keyQueried key answer ∈ (m.frame random).events) :
    answer = m.keypad.isHeld key := by
  have hending := frame_ending random m
  generalize m.frame random = o at hending hmem
  cases hending with
  | skipped => simp [idle] at hmem
  | completed =>
    obtain hmem | hends := Outcome.mem_completed hmem
    · exact keyQueried_of_mem_steps hmem
    · cases hends
  | blocked | failed => exact keyQueried_of_mem_steps hmem
  | faulted =>
    obtain hmem | hmem := Array.mem_push.mp hmem
    · exact keyQueried_of_mem_steps hmem
    · cases hmem

end Machine

namespace Window

/-- A keyboard key that stands for a keypad key presses it. -/
theorem act_keyDown {key : Key} {k : Nibble} (hkey : key.pad? = some k) (random : Nat → Int)
    (w : Window) : w.act random (.keyDown key) = w.machine.press k.toNat := by
  cases key with
  | escape | f1 | backspace | other => cases hkey
  | _ =>
    cases hkey
    rfl

/-- A keyboard key that stands for no keypad key does not touch the held keys. -/
theorem held_act_keyDown {key : Key} (hkey : key.pad? = none) (random : Nat → Int) (w : Window) :
    (w.act random (.keyDown key)).machine.keypad.held = w.machine.keypad.held := by
  cases key with
  | escape | f1 | backspace | other => rfl
  | _ => cases hkey

/-- After an event a keypad key is held if its keyboard key went down, not held if that came up, and
else as before. -/
theorem held_handle {key : Key} {k : Nibble} (hkey : key.pad? = some k) (random : Nat → Int)
    (w : Window) (e : WindowEvent) :
    (w.handle random e).window.machine.keypad.held.get k =
      (e.touch? key).getD (w.machine.keypad.held.get k) := by
  rw [(handle_eq random w e).1]
  cases e with
  | tick =>
    simp only [act]
    split
    · rfl
    · rw [Machine.held_frame]
      rfl
  | keyDown key' =>
    cases hkey' : key'.pad? with
    | none =>
      rw [held_act_keyDown hkey', WindowEvent.touch?, if_neg (Key.ne_of_pad?_eq_none hkey' hkey)]
      rfl
    | some k' =>
      rw [act_keyDown hkey', Machine.held_press, keyOfNumber_toNat]
      exact Key.get_set_eq hkey hkey' w.machine.keypad.held true
  | keyUp key' =>
    cases hkey' : key'.pad? with
    | none =>
      simp only [act, hkey', WindowEvent.touch?, if_neg (Key.ne_of_pad?_eq_none hkey' hkey)]
      rfl
    | some k' =>
      simp only [act, hkey', Machine.release, Machine.idle, Keypad.release, keyOfNumber_toNat]
      exact Key.get_set_eq hkey hkey' w.machine.keypad.held false
  | draw | close | startTone | stopTone => rfl

/-- After any events a keypad key that was not held at first is held if its keyboard key went down
in the last event about it. -/
theorem held_handleAll {key : Key} {k : Nibble} (hkey : key.pad? = some k) (random : Nat → Int)
    {w : Window} (hw : w.machine.keypad.held.get k = false) (events : List WindowEvent) :
    (w.handleAll random events).machine.keypad.held.get k = lastDown key events := by
  induction events using List.reverseRecOn with
  | nil => exact hw
  | append_singleton events e ih =>
    rw [handleAll_concat, held_handle hkey, lastDown_concat, ih]

/-- After any events a number is held if it is that of a keypad key whose keyboard key went down in
the last event about it. -/
theorem isHeld_handleAll {w : Window} (hw : ∀ k, w.machine.keypad.held.get k = false)
    (random : Nat → Int) (events : List WindowEvent) (number : Int) :
    (w.handleAll random events).machine.keypad.isHeld number = true ↔ HeldAfter events number := by
  rw [Keypad.isHeld_eq_true_iff]
  constructor
  · rintro ⟨k, hk, hget⟩
    have hkey : (Key.ofPad k).pad? = some k := Key.pad?_eq_some_iff.mpr rfl
    exact ⟨Key.ofPad k, k, hkey, hk, (held_handleAll hkey random (hw k) events).symm.trans hget⟩
  · rintro ⟨key, k, hkey, hk, hdown⟩
    exact ⟨k, hk, (held_handleAll hkey random (hw k) events).trans hdown⟩

/-- The keypad mirrors the keyboard in every run of a window that has opened, whatever else happens
in it. Each keypad key has one keyboard key. It is held exactly if the last event about that was
that it went down; the held keys are listed in ascending order, and no other number is held. A frame
that asks for a key is answered so. At every step that it can take, the two instructions that ask
for the key in a register do the opposite of each other: if that key is held the first skips and the
second does not, and if not, or if the register holds no key, the second skips and the first does
not. -/
theorem held_keys_mirror_keyboard {numbers : List Int} {speed : Int} {logging : Bool}
    {opened : Window} (hopen : (start numbers speed logging).window = .ok opened)
    (random : Nat → Int) (events : List WindowEvent) :
    let w := opened.handleAll random events
    (∀ k : Nibble, ∃! key : Key, key.pad? = some k) ∧
    (∀ key k, Key.pad? key = some k →
      w.machine.keypad.isHeld k.toNat = lastDown key events) ∧
    (w.machine.keypad.heldKeys.Pairwise (· < ·) ∧
      ∀ n : Nat, n ∈ w.machine.keypad.heldKeys ↔ HeldAfter events n) ∧
    (∀ number : Int, number < 0 ∨ 15 < number → w.machine.keypad.isHeld number = false) ∧
    (∀ random number answer, .keyQueried number answer ∈ (w.machine.frame random).events →
      (answer = true ↔ HeldAfter events number)) ∧
    ∀ random j x, let m := (w.machine.steps random j).machine.advance
      let skipping := (m.execute random (.skipKey x)).1
      let skippingNot := (m.execute random (.skipNoKey x)).1
      m.advance ≠ m ∧
      (HeldAfter events (m.reg x).toNat → skipping = m.advance ∧ skippingNot = m) ∧
      (¬ HeldAfter events (m.reg x).toNat → skipping = m ∧ skippingNot = m.advance) := by
  intro w
  have hnone : ∀ k, opened.machine.keypad.held.get k = false := by
    obtain ⟨p, -, rfl⟩ := start_eq_ok_iff.mp hopen
    exact fun k => Bank.get_fill false k
  have hheld := isHeld_handleAll hnone random events
  refine ⟨fun k => ⟨Key.ofPad k, Key.pad?_eq_some_iff.mpr rfl,
      fun key hkey => Key.pad?_eq_some_iff.mp hkey⟩,
    fun key k hkey => (Keypad.isHeld_toNat ..).trans (held_handleAll hkey random (hnone k) events),
    ⟨Keypad.heldKeys_pairwise _, fun n => (Keypad.mem_heldKeys_iff ..).trans (hheld n)⟩,
    fun number hrange => ?_, fun random number answer hmem => ?_, fun random j x => ?_⟩
  · rw [Keypad.isHeld, decide_eq_false (by omega), Bool.false_and]
  · rw [Machine.keyQueried_of_mem_frame hmem]
    exact hheld number
  · intro m skipping skippingNot
    have hsame : m.keypad.isHeld (m.reg x).toNat = w.machine.keypad.isHeld (m.reg x).toNat := by
      have hsteps : m.keypad.held = w.machine.keypad.held := Machine.held_steps random w.machine j
      rw [Keypad.isHeld, Keypad.isHeld, hsteps]
    obtain ⟨hskipping, hskippingNot⟩ := m.execute_skips random x
    refine ⟨m.advance_ne, fun hdown => ?_, fun hdown => ?_⟩
    · have hanswer : m.keypad.isHeld (m.reg x).toNat = true := hsame.trans ((hheld _).mpr hdown)
      rw [if_pos hanswer] at hskipping hskippingNot
      exact ⟨hskipping, hskippingNot⟩
    · have hanswer : ¬ m.keypad.isHeld (m.reg x).toNat = true := by
        rw [hsame, hheld]
        exact hdown
      rw [if_neg hanswer] at hskipping hskippingNot
      exact ⟨hskipping, hskippingNot⟩

/-- A key that goes down twice stays held through a restart and the tick after it, and one that has
come up is not held. The key of `V1` is held then, so asking for it skips. -/
theorem held_keys_mirror_keyboard_after_restart :
    let random : Nat → Int := fun _ => 0
    let p : Program := ⟨[0x61, 0x04, 0x12, 0x02], by decide, by decide⟩
    let opened := fresh p 10 false
    let events : List WindowEvent := [.keyDown .q, .keyDown .v, .keyDown .q, .tick, .keyUp .v,
      .keyUp .w, .keyDown .backspace, .keyDown .other, .tick]
    let w := opened.handleAll random events
    let m := w.machine.advance
    (start [0x61, 0x04, 0x12, 0x02] 10 false).window = .ok opened ∧
      w.machine.keypad.isHeld 4 = true ∧ w.machine.keypad.isHeld 15 = false ∧
      m.reg 1 = 4 ∧ (m.execute random (.skipKey 1)).1 = m.advance ∧
      (m.execute random (.skipNoKey 1)).1 = m := by
  intro random p opened events w m
  have hopen : (start [0x61, 0x04, 0x12, 0x02] 10 false).window = .ok opened :=
    start_bytes p 10 false
  obtain ⟨-, hkeys, -, -, -, hskips⟩ := held_keys_mirror_keyboard hopen random events
  have hreg : m.reg 1 = 4 := by decide +kernel
  have hdown : HeldAfter events (m.reg 1).toNat := by
    rw [hreg]
    exact ⟨.q, 4, rfl, rfl, by decide⟩
  obtain ⟨-, hheld, -⟩ := hskips random 0 1
  exact ⟨hopen, (hkeys .q 4 rfl).trans (by decide), (hkeys .v 15 rfl).trans (by decide), hreg,
    hheld hdown⟩

end Window

end Chip8
