import Chip8.Proofs.KeyWait

/-!
# Driving a machine

A driver runs frames, hands on keys, loads programs and restarts, and leaves single instructions,
the timers and the tone to the frames. What an operation of a driver can do is listed once
(`KeyWait.driverEffect`). In every run of a driver the machine keeps a fault exactly while it is
halted, and it changes what it is doing in six ways only (`ModeChange`). A restart always sets it
running, and so does a key that it waits for. A frame makes it wait or halts it exactly if an
instruction of the budget that is reached waits or faults. Once it is halted it stays as it is until
a restart, but for the keypad and the programs that are loaded (`Driven.run_states`).
-/

namespace Chip8

namespace Operation

/-- The operation is one of a driver. -/
def isDriver : Operation → Bool
  | step | updateTimers | playSound => false
  | frame | press _ | release _ | keyPressed _ | reset | loadNumbers _ | loadFile _ => true

/-- The operation is to put a program into memory. -/
def isLoad : Operation → Bool
  | loadNumbers _ | loadFile _ => true
  | _ => false

/-- The operation hands a key to the machine, if that waits for one. -/
def handsKey : Operation → Bool
  | press _ | keyPressed _ => true
  | _ => false

end Operation

/-- An operation as it was carried out: the machine before it, and what it came to. -/
structure Entry (w h : Nat) (τ : Type) where
  before : Machine w h τ
  op : Operation
  outcome : Outcome w h τ

/-- How an operation of a driver can change what a machine is doing. -/
inductive ModeChange : Mode → Operation → Mode → Prop where
  | startsToWait : ModeChange .running .frame .waiting
  | faults : ModeChange .running .frame .halted
  | pressed (key : Int) : ModeChange .waiting (.press key) .running
  | told (key : Int) : ModeChange .waiting (.keyPressed key) .running
  | restartedWaiting : ModeChange .waiting .reset .running
  | restartedHalted : ModeChange .halted .reset .running

namespace Machine

variable {w h : Nat} {τ : Type}

/-- The machine runs: it names no register for a key, and it keeps no fault. -/
structure Runs (m : Machine w h τ) : Prop where
  mode_eq : m.cpu.mode = .running
  keyRegister_eq : m.cpu.keyRegister = none
  fault_eq : m.cpu.fault = none

/-- A machine keeps a fault exactly while it is halted. -/
def KeepsFault (m : Machine w h τ) : Prop := m.cpu.mode = .halted ↔ m.cpu.fault.isSome

/-- A machine that is not halted passes on that it keeps no fault. -/
theorem KeepsFault.of_not_halted {m m' : Machine w h τ} (hm : m.KeepsFault)
    (hmode : m.cpu.mode ≠ .halted) (hmode' : m'.cpu.mode ≠ .halted)
    (hfault : m'.cpu.fault = m.cpu.fault) : m'.KeepsFault := by
  unfold KeepsFault
  rw [hfault]
  exact iff_of_false hmode' ((not_congr hm).mp hmode)

variable [ToneGenerator τ]

/-- What an operation of a driver can do to a machine. -/
inductive DriverEffect (m : Machine w h τ) : Operation → Outcome w h τ → Prop where
  | frame (random : Nat → Int) : DriverEffect m .frame (m.frame random)
  | reset : DriverEffect m .reset (done m.reset)
  /-- A machine that waited takes a key and runs on. -/
  | answered {op : Operation} {o : Outcome w h τ} {key : Int}
      (hop : op = .press key ∨ op = .keyPressed key) (hmode : m.cpu.mode = .waiting)
      (v : Bank 4 Byte) (keypad : Keypad)
      (ho : o.machine = { m with
        cpu.v := v, cpu.mode := .running, cpu.keyRegister := none, keypad := keypad }) :
      DriverEffect m op o
  /-- A program is put into memory. -/
  | loaded {op : Operation} {o : Outcome w h τ} (hop : op.isLoad = true) (he : o.error = none)
      (p : Program) (ho : o.machine = { m with memory := m.memory.withProgram p }) :
      DriverEffect m op o
  /-- At most the keypad is affected, unless the machine waits and is handed a key. -/
  | aside {op : Operation} {o : Outcome w h τ} (hframe : op ≠ .frame) (hreset : op ≠ .reset)
      (keypad : Keypad) (ho : o.machine = { m with keypad := keypad })
      (hkey : op.handsKey = true → m.cpu.mode ≠ .waiting) : DriverEffect m op o

/-- An operation of a driver does one of these things. -/
theorem KeyWait.driverEffect {m : Machine w h τ} (hm : m.KeyWait) (env : Environment)
    {op : Operation} (hop : op.isDriver = true) : DriverEffect m op (m.perform env op) := by
  cases op with
  | step | updateTimers | playSound => cases hop
  | frame => exact .frame env.random
  | reset => exact .reset
  | release key => exact .aside (by rintro ⟨⟩) (by rintro ⟨⟩) _ rfl (by rintro ⟨⟩)
  | press key =>
    by_cases hmode : m.cpu.mode = .waiting
    · obtain ⟨x, -, hpress⟩ := hm.press_of_waiting hmode key
      exact .answered (.inl rfl) hmode _ _ (congrArg Outcome.machine hpress)
    · have hpress := hm.press_of_not_waiting hmode key
      exact .aside (by rintro ⟨⟩) (by rintro ⟨⟩) _ (congrArg Outcome.machine hpress)
        fun _ => hmode
  | keyPressed key =>
    by_cases hmode : m.cpu.mode = .waiting
    · obtain ⟨x, -, htold⟩ := hm.keyPressed_of_waiting hmode key
      exact .answered (.inr rfl) hmode _ m.keypad htold
    · have hkey : (Operation.keyPressed key).isKey = true := rfl
      obtain ⟨-, keypad, hafter⟩ := hm.perform_key hmode env hkey
      exact .aside (by rintro ⟨⟩) (by rintro ⟨⟩) keypad hafter fun _ => hmode
  | loadNumbers numbers =>
    simp only [Machine.perform, Machine.loadNumbers]
    split
    · exact .aside (by rintro ⟨⟩) (by rintro ⟨⟩) m.keypad rfl (by rintro ⟨⟩)
    · exact .loaded rfl rfl _ rfl
  | loadFile path =>
    simp only [Machine.perform, Machine.loadFile]
    split
    · exact .aside (by rintro ⟨⟩) (by rintro ⟨⟩) m.keypad rfl (by rintro ⟨⟩)
    · exact .loaded rfl rfl _ rfl

/-- A frame halts the machine exactly if it keeps a fault for it. -/
theorem KeepsFault.frame {m : Machine w h τ} (hm : m.KeepsFault) (random : Nat → Int) :
    (m.frame random).machine.KeepsFault := by
  have hending := frame_ending random m
  generalize m.frame random = o at hending ⊢
  have hkept : ∀ {mode : Mode} {m' : Machine w h τ}, m.cpu.mode = .running → mode ≠ .halted →
      m'.cpu.mode = mode → m'.cpu.fault = m.cpu.fault → m'.KeepsFault := by
    intro mode m' hrun hmode hmode' hfault
    refine hm.of_not_halted ?_ (hmode' ▸ hmode) hfault
    rw [hrun]
    rintro ⟨⟩
  cases hending with
  | skipped => exact hm
  | completed hrun hk =>
    exact hkept hrun (by rintro ⟨⟩) (hk.mode_eq hrun) (steps_surroundings ..).fault
  | blocked hrun _ _ hw => exact hkept hrun (by rintro ⟨⟩) hw (steps_surroundings ..).fault
  | faulted => exact ⟨fun _ => rfl, fun _ => rfl⟩
  | failed hrun hj he =>
    exact hkept hrun (by rintro ⟨⟩) (hj.mode_eq_of_error hrun he) (steps_surroundings ..).fault

/-- An operation of a driver halts the machine exactly if it keeps a fault for it. -/
theorem KeepsFault.perform {m : Machine w h τ} (hm : m.KeepsFault) (hkey : m.KeyWait)
    (env : Environment) {op : Operation} (hop : op.isDriver = true) :
    (m.perform env op).machine.KeepsFault := by
  have heffect := hkey.driverEffect env hop
  generalize m.perform env op = o at heffect ⊢
  cases heffect with
  | frame random => exact hm.frame random
  | reset => exact ⟨by rintro ⟨⟩, by rintro ⟨⟩⟩
  | answered _ hmode v keypad ho =>
    rw [ho]
    exact hm.of_not_halted (by rw [hmode]; rintro ⟨⟩) (by rintro ⟨⟩) rfl
  | loaded _ _ p ho =>
    rw [ho]
    exact hm
  | aside _ _ keypad ho =>
    rw [ho]
    exact hm

/-- A restart sets the machine running, whatever it was doing. -/
theorem runs_reset (m : Machine w h τ) : m.reset.1.Runs := ⟨rfl, rfl, rfl⟩

/-- A machine that waits runs on with the key that is pressed or that it is told of. -/
theorem KeyWait.runs_of_key {m : Machine w h τ} (hm : m.KeyWait) (hfault : m.KeepsFault)
    (hmode : m.cpu.mode = .waiting) (env : Environment) {op : Operation}
    (hop : op.handsKey = true) : (m.perform env op).machine.Runs := by
  have hdriver : op.isDriver = true := by
    cases op with
    | press | keyPressed => rfl
    | _ => cases hop
  have hnone : m.cpu.fault = none := by
    rw [← Option.not_isSome_iff_eq_none]
    intro hsome
    cases hmode.symm.trans (hfault.mpr hsome)
  have heffect := hm.driverEffect env hdriver
  generalize m.perform env op = o at heffect ⊢
  cases heffect with
  | frame | reset => cases hop
  | answered _ _ v keypad ho =>
    rw [ho]
    exact ⟨rfl, rfl, hnone⟩
  | loaded hload =>
    cases op with
    | loadNumbers | loadFile => cases hop
    | _ => cases hload
  | aside _ _ _ _ hkey => exact absurd hmode (hkey hop)

/-- An operation of a driver leaves the machine doing what it did, or changes that in one of the
listed ways. -/
theorem KeyWait.modeChange {m : Machine w h τ} (hm : m.KeyWait) (env : Environment)
    {op : Operation} (hop : op.isDriver = true) :
    (m.perform env op).machine.cpu.mode = m.cpu.mode ∨
      ModeChange m.cpu.mode op (m.perform env op).machine.cpu.mode := by
  have heffect := hm.driverEffect env hop
  generalize m.perform env op = o at heffect ⊢
  cases heffect with
  | frame random =>
    by_cases hrun : m.cpu.mode = .running
    · rw [hrun]
      cases (m.frame random).machine.cpu.mode with
      | running => exact .inl rfl
      | waiting => exact .inr .startsToWait
      | halted => exact .inr .faults
    · rw [frame_of_mode_ne hrun]
      exact .inl rfl
  | reset =>
    change Mode.running = m.cpu.mode ∨ ModeChange m.cpu.mode .reset .running
    cases m.cpu.mode with
    | running => exact .inl rfl
    | waiting => exact .inr .restartedWaiting
    | halted => exact .inr .restartedHalted
  | @answered _ _ key hkey hmode v keypad ho =>
    rw [ho, hmode]
    obtain rfl | rfl := hkey
    · exact .inr (.pressed key)
    · exact .inr (.told key)
  | loaded _ _ p ho =>
    rw [ho]
    exact .inl rfl
  | aside _ _ keypad ho =>
    rw [ho]
    exact .inl rfl

/-- A halted machine is only restarted, loaded into or told of keys. -/
theorem KeyWait.perform_of_halted {m : Machine w h τ} (hm : m.KeyWait)
    (hmode : m.cpu.mode = .halted) (env : Environment) {op : Operation}
    (hop : op.isDriver = true) (hreset : op ≠ .reset) :
    ∃ memory keypad, (m.perform env op).machine = { m with memory := memory, keypad := keypad } ∧
      (memory = m.memory ∨ op.isLoad = true ∧ (m.perform env op).error = none ∧
        ∃ p, memory = m.memory.withProgram p) := by
  have heffect := hm.driverEffect env hop
  generalize m.perform env op = o at heffect ⊢
  cases heffect with
  | frame random =>
    rw [frame_of_mode_ne (by rw [hmode]; rintro ⟨⟩)]
    exact ⟨m.memory, m.keypad, rfl, .inl rfl⟩
  | reset => exact absurd rfl hreset
  | answered _ hwaiting => cases hmode.symm.trans hwaiting
  | loaded hload he p ho => exact ⟨m.memory.withProgram p, m.keypad, ho, .inr ⟨hload, he, p, rfl⟩⟩
  | aside _ _ keypad ho => exact ⟨m.memory, keypad, ho, .inl rfl⟩

/-- A driver leads from one machine to another by these operations, the latest first, each in an
environment of its own. -/
inductive Driven (m : Machine w h τ) : List (Entry w h τ) → Machine w h τ → Prop where
  | start : Driven m [] m
  | perform {past : List (Entry w h τ)} {m' : Machine w h τ} (hrun : Driven m past m')
      (env : Environment) {op : Operation} (hop : op.isDriver = true) :
      Driven m (⟨m', op, m'.perform env op⟩ :: past) (m'.perform env op).machine

/-- What a list of operations leaves on record, the latest first. -/
def record (env : Environment) (m : Machine w h τ) : List Operation → List (Entry w h τ)
  | [] => []
  | op :: ops => (m.perform env op).machine.record env ops ++ [⟨m, op, m.perform env op⟩]

/-- The operations on record are those of the list. -/
theorem op_mem_of_mem_record {env : Environment} {m : Machine w h τ} {ops : List Operation}
    {e : Entry w h τ} (he : e ∈ m.record env ops) : e.op ∈ ops := by
  induction ops generalizing m with
  | nil => exact absurd he List.not_mem_nil
  | cons op ops ih =>
    obtain he | he := List.mem_append.mp he
    · exact List.mem_cons_of_mem op (ih he)
    · rw [List.mem_singleton.mp he]
      exact List.mem_cons_self ..

namespace Driven

variable {m m' m'' : Machine w h τ} {past later : List (Entry w h τ)}

/-- One run of a driver can be followed by another. -/
theorem trans (hpast : Driven m past m') (hlater : Driven m' later m'') :
    Driven m (later ++ past) m'' := by
  induction hlater with
  | start => exact hpast
  | perform _ env hop ih => exact ih.perform env hop

/-- A list of operations of a driver is a run of it. -/
theorem record {env : Environment} {ops : List Operation}
    (hops : ∀ op ∈ ops, op.isDriver = true) :
    Driven m (m.record env ops) (m.performAll env ops) := by
  induction ops generalizing m with
  | nil => exact .start
  | cons op ops ih =>
    have hfirst : Driven m [⟨m, op, m.perform env op⟩] (m.perform env op).machine :=
      Driven.start.perform env (hops op (List.mem_cons_self ..))
    exact hfirst.trans (ih fun op' hop' => hops op' (List.mem_cons_of_mem op hop'))

/-- A driver keeps the invariant of the key wait. -/
theorem keyWait (hrun : Driven m past m') (hm : m.KeyWait) : m'.KeyWait := by
  induction hrun with
  | start => exact hm
  | perform _ env _ ih => exact ih.perform env _

/-- In a run of a driver from power-on a fault is kept exactly while the machine is halted. -/
theorem keepsFault {screen : Screen w h} {speed : Int}
    (hrun : Driven (.powerOn screen speed) past m) : m.KeepsFault := by
  induction hrun with
  | start => exact ⟨by rintro ⟨⟩, by rintro ⟨⟩⟩
  | perform hrun env hop ih => exact ih.perform (hrun.keyWait (.powerOn ..)) env hop

/-- A halted machine that is not restarted stays as it is, but for the keypad and the programs that
are loaded. -/
theorem eq_of_halted (hrun : Driven m later m') (hm : m.KeyWait) (hmode : m.cpu.mode = .halted)
    (hreset : ∀ e ∈ later, e.op ≠ .reset) :
    (∃ memory keypad, m' = { m with memory := memory, keypad := keypad }) ∧
      ∀ e ∈ later, e.outcome.machine.memory = e.before.memory ∨
        e.op.isLoad = true ∧ e.outcome.error = none ∧
          ∃ p, e.outcome.machine.memory = e.before.memory.withProgram p := by
  induction hrun with
  | start => exact ⟨⟨m.memory, m.keypad, rfl⟩, fun e he => absurd he List.not_mem_nil⟩
  | @perform later m' hrun env op hop ih =>
    obtain ⟨⟨memory, keypad, hbefore⟩, hloads⟩ :=
      ih fun e he => hreset e (List.mem_cons_of_mem _ he)
    have hmode' : m'.cpu.mode = .halted := by
      rw [hbefore]
      exact hmode
    obtain ⟨memory', keypad', hafter, hmemory⟩ := (hrun.keyWait hm).perform_of_halted hmode' env
      hop (hreset _ (List.mem_cons_self ..))
    constructor
    · refine ⟨memory', keypad', ?_⟩
      rw [hafter, hbefore]
    · intro e he
      obtain rfl | he := List.mem_cons.mp he
      · rw [hafter]
        exact hmemory
      · exact hloads e he

/-- In every run of a driver from power-on the machine keeps a fault exactly while it is halted, and
it names a register for a key only while it waits. It changes what it is doing only as `ModeChange`
lists, and it does change so: a restart always sets it running, with no register named and no fault
kept, and so does a key while it waits. A frame of a running machine ends in the wait for a register
exactly if an instruction of the budget that is reached is that wait, and it halts the machine for a
fault exactly if an instruction that is reached faults so. Once the machine is halted, and until it
is restarted, nothing changes but the keypad and the memory, and the memory only where a load
succeeds. -/
theorem run_states {speed : Int} (hrun : Driven (.powerOn (.dark w h) speed) past m) :
    (m.cpu.mode = .halted ↔ m.cpu.fault.isSome) ∧
    (m.cpu.mode = .halted ∨ m.cpu.mode = .running → m.cpu.keyRegister = none) ∧
    (∀ env op, op.isDriver = true → (m.perform env op).machine.cpu.mode = m.cpu.mode ∨
      ModeChange m.cpu.mode op (m.perform env op).machine.cpu.mode) ∧
    (∀ env, (m.perform env .reset).machine.Runs) ∧
    (m.cpu.mode = .waiting → ∀ env key,
      (m.perform env (.press key)).machine.Runs ∧
        (m.perform env (.keyPressed key)).machine.Runs) ∧
    (m.cpu.mode = .running → ∀ env, let after := (m.perform env .frame).machine
      (∀ x, after.cpu.mode = .waiting ∧ after.cpu.keyRegister = some x ↔
        ∃ j < m.speed.toNat, m.Smooth env.random j ∧
          Instruction.decode? (m.steps env.random j).machine.fetch = some (.waitKey x)) ∧
      ∀ f, after.cpu.mode = .halted ∧ after.cpu.fault = some f ↔
        ∃ j < m.speed.toNat, m.Smooth env.random j ∧
          ((m.steps env.random j).machine.step env.random).error = some (.fault f)) ∧
    (m.cpu.mode = .halted → ∀ later m', Driven m later m' → (∀ e ∈ later, e.op ≠ .reset) →
      (∃ memory keypad, m' = { m with memory := memory, keypad := keypad }) ∧
      ∀ e ∈ later, e.outcome.machine.memory = e.before.memory ∨
        e.op.isLoad = true ∧ e.outcome.error = none ∧
          ∃ p, e.outcome.machine.memory = e.before.memory.withProgram p) := by
  have hkey : m.KeyWait := hrun.keyWait (.powerOn ..)
  have hfault : m.KeepsFault := hrun.keepsFault
  refine ⟨hfault, fun hmode => ?_, fun env op hop => hkey.modeChange env hop,
    fun env => runs_reset m, fun hmode env key => ?_, fun hmode env => ?_,
    fun hmode later m' hlater hreset => hlater.eq_of_halted hkey hmode hreset⟩
  · apply hkey.keyRegister_eq_none
    intro hwaiting
    rw [hwaiting] at hmode
    obtain h | h := hmode <;> cases h
  · exact ⟨hkey.runs_of_key hfault hmode env rfl, hkey.runs_of_key hfault hmode env rfl⟩
  · exact ⟨frame_waits_iff hmode env.random, frame_halts_iff hmode env.random⟩

end Driven

/-- The six changes on one program. The first frame waits for a key; a restart, a press and a key
that the machine is told of each end the wait. After the press the next frame runs into a word that
is no instruction. From then on a key and a frame pass the machine by, and a program goes into
memory; only a restart sets it running. -/
theorem run_states_after_wait_and_fault :
    let env : Environment := ⟨fun _ => 0, fun _ => .error .notFound⟩
    let start : Machine 64 32 Tone := .powerOn (.dark 64 32) 10
    let ready := start.performAll env [.loadNumbers [0xF1, 0x0A, 0xFF, 0xFF]]
    let waiting := start.performAll env [.loadNumbers [0xF1, 0x0A, 0xFF, 0xFF], .frame]
    let answered := start.performAll env [.loadNumbers [0xF1, 0x0A, 0xFF, 0xFF], .frame, .press 7]
    let m := start.performAll env
      [.loadNumbers [0xF1, 0x0A, 0xFF, 0xFF], .frame, .press 7, .frame]
    let m' := m.performAll env [.press 1, .loadNumbers [0x12, 0x00], .frame]
    (ready.cpu.mode = .running ∧ waiting.cpu.mode = .waiting ∧
      waiting.cpu.keyRegister = some 1) ∧
    (waiting.perform env .reset).machine.Runs ∧
    (waiting.perform env (.keyPressed 7)).machine.Runs ∧ answered.Runs ∧
    (m.cpu.mode = .halted ∧ m.cpu.fault = some ⟨.unknownOpcode, 0xFFFF, 0x202⟩ ∧
      m.cpu.keyRegister = none) ∧
    (∃ memory keypad, m' = { m with memory := memory, keypad := keypad }) ∧
    (m.memory.readAt 0x200 = 0xF1 ∧ m'.memory.readAt 0x200 = 0x12) ∧
    (m.perform env .reset).machine.Runs := by
  intro env start ready waiting answered m m'
  have hrun : ∀ ops : List Operation, (∀ op ∈ ops, op.isDriver = true) →
      Driven start (start.record env ops) (start.performAll env ops) := fun _ => .record
  have hready : ready.cpu.mode = .running := by decide +kernel
  obtain ⟨-, -, -, -, -, hfirst, -⟩ := (hrun _ (by decide)).run_states (m := ready)
  -- The first instruction of the first frame waits, and the first of the second one faults.
  have hwaiting := ((hfirst hready env).1 1).mpr ⟨0, by decide +kernel, nofun, by decide +kernel⟩
  obtain ⟨-, -, -, hrestart, hkey, -⟩ := (hrun _ (by decide)).run_states (m := waiting)
  have hanswered : answered.Runs := (hkey hwaiting.1 env 7).1
  obtain ⟨-, -, -, -, -, hsecond, -⟩ := (hrun _ (by decide)).run_states (m := answered)
  have hm := ((hsecond hanswered.mode_eq env).2 ⟨.unknownOpcode, 0xFFFF, 0x202⟩).mpr
    ⟨0, by decide +kernel, nofun, by decide +kernel⟩
  obtain ⟨-, hregister, -, hrestored, -, -, hhalted⟩ := (hrun _ (by decide)).run_states (m := m)
  have hlater : Driven m (m.record env [.press 1, .loadNumbers [0x12, 0x00], .frame]) m' :=
    .record (by decide)
  have hreset : ∀ op ∈ [Operation.press 1, .loadNumbers [0x12, 0x00], .frame], op ≠ .reset := by
    decide
  obtain ⟨hsame, -⟩ := hhalted hm.1 _ m' hlater fun e he => hreset _ (op_mem_of_mem_record he)
  exact ⟨⟨hready, hwaiting⟩, hrestart env, (hkey hwaiting.1 env 7).2, hanswered,
    ⟨hm.1, hm.2, hregister (.inl hm.1)⟩, hsame, by decide +kernel, hrestored env⟩

end Machine

end Chip8
