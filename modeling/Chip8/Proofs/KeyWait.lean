import Chip8.Proofs.Reachable

/-!
# Waiting for a key

A machine that waits for a key names the register for it and listens at the keypad, and nobody
else does: this is an invariant of all operations (`KeyWait`). So the next press always reaches a
machine that waits, and runs it on. A machine that does not wait may still be the listener, since
neither a restart nor a key that it is told of directly withdraws it; but it ignores every key.
-/

namespace Chip8

/-- The operation concerns keys only. -/
def Operation.isKey : Operation → Bool
  | press _ | release _ | keyPressed _ => true
  | _ => false

namespace Machine

variable {w h : Nat} {τ : Type}

/-- A machine names a register exactly while it waits, it then listens at the keypad, and nobody
else does. -/
structure KeyWait (m : Machine w h τ) : Prop where
  waiting_iff : m.cpu.mode = .waiting ↔ m.cpu.keyRegister.isSome
  listener_eq : m.cpu.mode = .waiting → m.keypad.listener = some .machine
  not_watcher : ∀ id again, m.keypad.listener ≠ some (.watcher id again)

namespace KeyWait

variable {m : Machine w h τ}

/-- Only the mode, the register and the listener matter. -/
theorem congr (hm : m.KeyWait) {m' : Machine w h τ} (hmode : m'.cpu.mode = m.cpu.mode)
    (hregister : m'.cpu.keyRegister = m.cpu.keyRegister)
    (hlistener : m'.keypad.listener = m.keypad.listener) : m'.KeyWait where
  waiting_iff := by rw [hmode, hregister]; exact hm.waiting_iff
  listener_eq := by rw [hmode, hlistener]; exact hm.listener_eq
  not_watcher := by rw [hlistener]; exact hm.not_watcher

/-- A machine that does not wait names no register. -/
theorem keyRegister_eq_none (hm : m.KeyWait) (hmode : m.cpu.mode ≠ .waiting) :
    m.cpu.keyRegister = none := by
  cases hx : m.cpu.keyRegister with
  | none => rfl
  | some x => exact absurd (hm.waiting_iff.mpr (by rw [hx]; rfl)) hmode

/-- A machine that names no register and does not wait keeps the invariant, whether it still
listens or not. -/
theorem of_not_waiting {m' : Machine w h τ} (hm : m.KeyWait) (hmode : m'.cpu.mode ≠ .waiting)
    (hregister : m'.cpu.keyRegister = none)
    (hlistener : m'.keypad.listener = m.keypad.listener ∨ m'.keypad.listener = none) :
    m'.KeyWait where
  waiting_iff := by simp [hmode, hregister]
  listener_eq h := absurd h hmode
  not_watcher id again := by
    obtain hsame | hnone := hlistener
    · rw [hsame]
      exact hm.not_watcher id again
    · rw [hnone]
      nofun

/-- An instruction keeps the invariant; if it waits, it does so whatever was before. -/
theorem execute (hm : m.KeyWait) (random : Nat → Int) (i : Instruction) :
    (m.execute random i).1.KeyWait := by
  cases hi : i.awaits? with
  | none =>
    obtain ⟨hmode, hregister, hkeypad⟩ := execute_of_not_awaits hi random m
    exact hm.congr hmode hregister (by rw [hkeypad])
  | some x =>
    cases i with
    | waitKey y =>
      refine ⟨by simp [Machine.execute], fun _ => rfl, ?_⟩
      rintro id again ⟨⟩
    | _ => cases hi

/-- A step keeps the invariant, whatever the mode. -/
theorem step (hm : m.KeyWait) (random : Nat → Int) : (m.step random).machine.KeyWait := by
  have hnext : m.advance.KeyWait := hm.congr rfl rfl rfl
  exact step_preserves hnext fun i _ => hnext.execute random i

/-- A key that the machine is told of keeps the invariant. -/
theorem keyPressed (hm : m.KeyWait) (key : Int) : (m.keyPressed key).machine.KeyWait := by
  unfold Machine.keyPressed
  split
  · split
    · exact hm
    · exact hm.of_not_waiting nofun rfl (.inl rfl)
  · exact hm

/-- A press reaches a machine that waits: it takes the key, runs on and no longer listens. -/
theorem press_of_waiting (hm : m.KeyWait) (hmode : m.cpu.mode = .waiting) (key : Int) :
    ∃ x, m.cpu.keyRegister = some x ∧
      m.press key =
        { machine := { m with
            cpu.v := m.cpu.v.set x ((keyOfNumber key).setWidth 8)
            cpu.mode := .running
            cpu.keyRegister := none
            keypad := ⟨m.keypad.held.set (keyOfNumber key) true, none⟩ }
          events := #[.note (.keyStored (keyOfNumber key).toNat x)]
          error := none } := by
  obtain ⟨x, hx⟩ := Option.isSome_iff_exists.mp (hm.waiting_iff.mp hmode)
  refine ⟨x, hx, ?_⟩
  simp only [press, Keypad.press, hm.listener_eq hmode, Machine.keyPressed, isWaiting, hmode, hx,
    decide_true, ite_true, keyOfNumber_toNat]
  rfl

/-- A machine that waits and is told of a key takes it and runs on. It goes on listening. -/
theorem keyPressed_of_waiting (hm : m.KeyWait) (hmode : m.cpu.mode = .waiting) (key : Int) :
    ∃ x, m.cpu.keyRegister = some x ∧
      (m.keyPressed key).machine =
        { m with
          cpu.v := m.cpu.v.set x ((keyOfNumber key).setWidth 8)
          cpu.mode := .running
          cpu.keyRegister := none } := by
  obtain ⟨x, hx⟩ := Option.isSome_iff_exists.mp (hm.waiting_iff.mp hmode)
  refine ⟨x, hx, ?_⟩
  simp only [Machine.keyPressed, isWaiting, hmode, hx, decide_true, ite_true]
  rfl

/-- A press passes by a machine that does not wait, and withdraws it as the listener. -/
theorem press_of_not_waiting (hm : m.KeyWait) (hmode : m.cpu.mode ≠ .waiting) (key : Int) :
    m.press key =
      { m with keypad := ⟨m.keypad.held.set (keyOfNumber key) true, none⟩ }.idle := by
  cases hl : m.keypad.listener with
  | none => simp only [press, Keypad.press, hl]
  | some l =>
    cases l with
    | machine =>
      simp only [press, Keypad.press, hl, Keypad.rearm, Machine.keyPressed, isWaiting, hmode,
        decide_false, Bool.false_eq_true, ite_false]
    | watcher id again => exact absurd hl (hm.not_watcher id again)

/-- A press keeps the invariant. -/
theorem press (hm : m.KeyWait) (key : Int) : (m.press key).machine.KeyWait := by
  by_cases hmode : m.cpu.mode = .waiting
  · obtain ⟨x, -, hpress⟩ := hm.press_of_waiting hmode key
    rw [hpress]
    exact hm.of_not_waiting nofun rfl (.inr rfl)
  · rw [hm.press_of_not_waiting hmode]
    exact hm.of_not_waiting hmode (hm.keyRegister_eq_none hmode) (.inr rfl)

variable [ToneGenerator τ]

/-- A frame keeps the invariant: a machine is only ever halted while it runs. -/
theorem frame (hm : m.KeyWait) (random : Nat → Int) : (m.frame random).machine.KeyWait := by
  refine frame_preserves (fun _ hm => hm.step random) (fun m f hrun hm => ?_) (fun m hm => ?_) hm
  · exact hm.of_not_waiting nofun (hm.keyRegister_eq_none (by rw [hrun]; nofun)) (.inl rfl)
  · obtain ⟨tone, hcomplete⟩ := completeFrame_machine m
    rw [hcomplete]
    exact hm.congr rfl rfl rfl

/-- The invariant holds at power-on. -/
theorem powerOn (screen : Screen w h) (speed : Int) :
    (Machine.powerOn screen speed : Machine w h τ).KeyWait :=
  ⟨by simp [Machine.powerOn, Cpu.powerOn], nofun, nofun⟩

/-- Every operation keeps the invariant. -/
theorem perform (hm : m.KeyWait) (env : Environment) (op : Operation) :
    (m.perform env op).machine.KeyWait := by
  cases op with
  | step => exact hm.step env.random
  | frame => exact hm.frame env.random
  | press key => exact hm.press key
  | keyPressed key => exact hm.keyPressed key
  | playSound =>
    obtain ⟨tone, hplay⟩ := playSound_machine m
    rw [Machine.perform, done, hplay]
    exact hm.congr rfl rfl rfl
  | reset => exact hm.of_not_waiting (by rintro ⟨⟩) rfl (.inl rfl)
  | loadNumbers numbers =>
    obtain ⟨memory, hload⟩ := loadNumbers_machine m numbers
    rw [Machine.perform, hload]
    exact hm.congr rfl rfl rfl
  | loadFile path =>
    obtain ⟨memory, hload⟩ := loadFile_machine env.files m path
    rw [Machine.perform, hload]
    exact hm.congr rfl rfl rfl
  | release | updateTimers => exact hm.congr rfl rfl rfl

end KeyWait

variable [ToneGenerator τ]

/-- Every reachable machine keeps the invariant. -/
theorem Reachable.keyWait {m : Machine w h τ} (hm : Reachable m) : m.KeyWait :=
  hm.invariant .powerOn fun _ env op hm => hm.perform env op

/-- A key changes nothing but the keypad of a machine that does not wait, and cannot fail. -/
theorem KeyWait.perform_key {m : Machine w h τ} (hm : m.KeyWait) (hmode : m.cpu.mode ≠ .waiting)
    (env : Environment) {op : Operation} (hop : op.isKey = true) :
    (m.perform env op).error = none ∧
      ∃ keypad, (m.perform env op).machine = { m with keypad := keypad } := by
  cases op with
  | press key =>
    rw [Machine.perform, hm.press_of_not_waiting hmode]
    exact ⟨rfl, _, rfl⟩
  | release key => exact ⟨rfl, _, rfl⟩
  | keyPressed key =>
    simp only [Machine.perform, Machine.keyPressed, isWaiting, hmode, decide_false,
      Bool.false_eq_true, ite_false]
    exact ⟨rfl, m.keypad, rfl⟩
  | _ => cases hop

/-- Any number of keys change nothing but the keypad of a machine that does not wait. -/
theorem KeyWait.performAll_keys {m : Machine w h τ} (hm : m.KeyWait)
    (hmode : m.cpu.mode ≠ .waiting) (env : Environment) {ops : List Operation}
    (hops : ∀ op ∈ ops, op.isKey = true) :
    ∃ keypad, m.performAll env ops = { m with keypad := keypad } := by
  induction ops generalizing m with
  | nil => exact ⟨m.keypad, rfl⟩
  | cons op ops ih =>
    obtain ⟨-, keypad, hop⟩ := hm.perform_key hmode env (hops op (List.mem_cons_self ..))
    have hnext : (m.perform env op).machine.cpu.mode ≠ .waiting := by
      rw [hop]
      exact hmode
    obtain ⟨keypad', hrest⟩ :=
      ih (hm.perform env op) hnext fun op' hop' => hops op' (List.mem_cons_of_mem op hop')
    refine ⟨keypad', ?_⟩
    rw [performAll, List.foldl_cons, ← performAll, hrest, hop]

/-- The low four bits of a key as a byte. -/
theorem keyOfNumber_setWidth (key : Int) :
    (keyOfNumber key).setWidth 8 = BitVec.ofNat 8 (key % 16).toNat := by
  have hkey := toNat_keyOfNumber key
  apply BitVec.eq_of_toNat_eq
  rw [BitVec.toNat_setWidth, BitVec.toNat_ofNat]
  omega

/-- A reachable machine waits exactly while it names a register, and then it is the listener of
the keypad. The next press puts its low four bits in that register and runs the machine on, and it
withdraws the listener and holds the key down; nothing else changes. While the machine does not
wait, keys change nothing but the keypad, whether or not it still listens, and none of them
fails. -/
theorem Reachable.key_wait {m : Machine w h τ} (hm : Reachable m) :
    (m.cpu.mode = .waiting ↔ m.cpu.keyRegister.isSome) ∧
    (m.cpu.mode = .waiting → m.keypad.listener = some .machine) ∧
    (m.cpu.mode = .waiting → ∀ key : Int, ∃ x, m.cpu.keyRegister = some x ∧
      (m.press key).error = none ∧
      (m.press key).machine =
        { m with
          cpu.v := m.cpu.v.set x (BitVec.ofNat 8 (key % 16).toNat)
          cpu.mode := .running
          cpu.keyRegister := none
          keypad := ⟨m.keypad.held.set (keyOfNumber key) true, none⟩ }) ∧
    (m.cpu.mode ≠ .waiting → ∀ env (ops : List Operation), (∀ op ∈ ops, op.isKey = true) →
      (∃ keypad, m.performAll env ops = { m with keypad := keypad }) ∧
      ∀ op, op.isKey = true → ((m.performAll env ops).perform env op).error = none) := by
  have hkey := hm.keyWait
  refine ⟨hkey.waiting_iff, hkey.listener_eq, fun hmode key => ?_, fun hmode env ops hops => ?_⟩
  · obtain ⟨x, hx, hpress⟩ := hkey.press_of_waiting hmode key
    rw [keyOfNumber_setWidth] at hpress
    rw [hpress]
    exact ⟨x, hx, rfl, rfl⟩
  · obtain ⟨keypad, hkeys⟩ := hkey.performAll_keys hmode env hops
    refine ⟨⟨keypad, hkeys⟩, fun op hop => ?_⟩
    have hafter := (hm.performAll env ops).keyWait
    have hmode' : (m.performAll env ops).cpu.mode ≠ .waiting := by
      rw [hkeys]
      exact hmode
    exact (hafter.perform_key hmode' env hop).1

/-- A restart during a wait leaves the machine listening, a second wait is entered by a bare step,
and then the key `-1` puts `F` in the register that was named last. -/
theorem key_wait_after_restart :
    let m : Machine 64 32 Tone := (Machine.powerOn (.dark 64 32) 10).performAll
      ⟨fun _ => 0, fun _ => .error .notFound⟩
      [.loadNumbers [0xF1, 0x0A], .frame, .reset, .loadNumbers [0xF1, 0x0A, 0xF3, 0x0A],
        .frame, .step]
    Reachable m ∧ m.cpu.mode = .waiting ∧ m.cpu.keyRegister = some 3 ∧
      (m.press (-1)).machine.reg 3 = 0xF ∧ (m.press (-1)).machine.cpu.mode = .running ∧
      (m.press (-1)).machine.keypad.listener = none := by
  intro m
  have hm : Reachable m := (Reachable.powerOn _ _).performAll _ _
  have hmode : m.cpu.mode = .waiting := by decide +kernel
  have hregister : m.cpu.keyRegister = some 3 := by decide +kernel
  obtain ⟨x, hx, -, hpress⟩ := (Reachable.key_wait hm).2.2.1 hmode (-1)
  obtain rfl := Option.some.inj (hregister.symm.trans hx)
  rw [hpress]
  exact ⟨hm, hmode, hregister, Bank.get_set_self .., rfl, rfl⟩

end Machine

end Chip8
