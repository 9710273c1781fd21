import Chip8.Bench
import Chip8.Proofs.Session

/-!
# Watchers of the keypad

A watcher that asks `again` more times to be told sees the next `again + 1` presses and no others,
whatever happens besides, until another listener is registered or it is withdrawn
(`Machine.toldDuring_eq`). A listener that is replaced or withdrawn before a press might as well not
have been registered (`Machine.toldDuring_register_register`). So a registration is used up by as
many presses as it is good for (`Machine.watchers_told`).
-/

namespace Chip8

/-- The key that the command presses. -/
def Command.pressed? : Command → Option Int
  | operate (.press key) => some key
  | _ => none

theorem Command.eq_press_of_pressed? {c : Command} {key : Int} (hc : c.pressed? = some key) :
    c = .operate (.press key) := by
  cases c with
  | operate op =>
    cases op with
    | press key' =>
      cases hc
      rfl
    | _ => cases hc
  | _ => cases hc

/-- The command puts another listener in place of the one that is registered, or withdraws it. -/
def Command.isRegistration : Command → Bool
  | register _ => true
  | _ => false

/-- The command carries out instructions, one of which may register the machine as the listener. -/
def Command.executes : Command → Bool
  | operate .step | operate .frame => true
  | _ => false

/-- The watcher that is told of a key, and the number of the key. -/
def Event.told? : Event → Option (Int × Int)
  | watcherTold id key => some (id, key.toNat)
  | _ => none

/-- What watchers were told, in order. -/
def Outcome.told {w h : Nat} {τ : Type} (o : Outcome w h τ) : List (Int × Int) :=
  o.events.toList.filterMap Event.told?

namespace Listener

/-- Who listens after the listener was told: it may ask to be told again. -/
def again? : Listener → Option Listener
  | .watcher id (again + 1) => some (.watcher id again)
  | .watcher _ 0 | .machine => none

theorem isSome_bind_again?_iff (l : Option Listener) :
    (l.bind again?).isSome = true ↔ ∃ id again, l = some (.watcher id (again + 1)) := by
  cases l with
  | none => simp
  | some l =>
    cases l with
    | machine => simp [again?]
    | watcher id again => cases again <;> simp [again?]

/-- What watchers are told of a row of presses by the listener that is registered. -/
def tells : Option Listener → List Int → List (Int × Int)
  | some (.watcher id again), keys => (keys.take (again + 1)).map fun key => (id, key % 16)
  | some .machine, _ | none, _ => []

/-- The first press is for the listener, and the others for who listens after it. -/
theorem tells_cons (l : Option Listener) (key : Int) (keys : List Int) :
    tells l (key :: keys) = tells l [key] ++ tells (l.bind again?) keys := by
  cases l with
  | none => rfl
  | some l =>
    cases l with
    | machine => rfl
    | watcher id again =>
      cases again with
      | zero => rfl
      | succ again => rfl

/-- Nobody is told of anything without a press. -/
@[simp] theorem tells_nil (l : Option Listener) : tells l [] = [] := by
  cases l with
  | none => rfl
  | some l => cases l <;> rfl

end Listener

/-- A press leaves whoever its listener asks for. -/
theorem Keypad.listener_press (p : Keypad) (key : Int) :
    (p.press key).1.listener = p.listener.bind Listener.again? := by
  unfold press
  split
  · rename_i hnone
    rw [hnone]
    rfl
  · rename_i l hsome
    rw [hsome]
    cases l with
    | machine => rfl
    | watcher id again => cases again <;> rfl

namespace Machine

variable {w h : Nat} {τ : Type}

/-- The machine with another listener at its keypad. -/
def withListener (m : Machine w h τ) (l : Option Listener) : Machine w h τ :=
  { m with keypad := m.keypad.register l }

/-- A press leaves whoever the listener asks for. -/
theorem listener_press (m : Machine w h τ) (key : Int) :
    (m.press key).machine.keypad.listener = m.keypad.listener.bind Listener.again? := by
  obtain ⟨cpu, hpress⟩ := press_machine m key
  rw [hpress, Keypad.listener_press]

/-- A machine that is told of a key tells no watcher. -/
theorem told_keyPressed (m : Machine w h τ) (key : Int) : (m.keyPressed key).told = [] := by
  unfold keyPressed
  split
  · split <;> rfl
  · rfl

/-- A press tells the watcher that listens, if one does, of the low four bits of the key. -/
theorem told_press (m : Machine w h τ) (key : Int) :
    (m.press key).told = Listener.tells m.keypad.listener [key] := by
  simp only [press, Keypad.press_told]
  cases m.keypad.listener with
  | none => rfl
  | some l =>
    cases l with
    | machine => exact told_keyPressed _ _
    | watcher id again =>
      have hkey : [(id, ((keyOfNumber key).toNat : Int))] = [(id, key % 16)] := by
        rw [toNat_keyOfNumber]
      cases again <;> exact hkey

/-- A press registers the listener again just if that asks for it. -/
theorem listenerSet_mem_press_iff (m : Machine w h τ) (key : Int) :
    .listenerSet ∈ (m.press key).events ↔
      (m.keypad.listener.bind Listener.again?).isSome = true := by
  simp only [press, Keypad.press_told]
  cases m.keypad.listener with
  | none => simp [idle]
  | some l =>
    cases l with
    | machine =>
      simp only [keyPressed]
      split
      · split <;> simp [failed, done, Listener.again?]
      · simp [idle, Listener.again?]
    | watcher id again => cases again <;> simp [done, watcherEvents, Listener.again?]

variable [ToneGenerator τ]

/-- What watchers are told during a list of commands. -/
def toldDuring (env : Environment) (m : Machine w h τ) (cs : List Command) : List (Int × Int) :=
  (m.replies env cs).flatMap fun r => r.2.told

theorem toldDuring_cons (env : Environment) (m : Machine w h τ) (c : Command)
    (cs : List Command) :
    m.toldDuring env (c :: cs) =
      (m.obey env c).told ++ (m.obey env c).machine.toldDuring env cs := rfl

theorem toldDuring_append (env : Environment) (m : Machine w h τ) (cs cs' : List Command) :
    m.toldDuring env (cs ++ cs') =
      m.toldDuring env cs ++ (m.obeyAll env cs).toldDuring env cs' := by
  rw [toldDuring, replies_append, List.flatMap_append]
  rfl

/-- The signals of a tone generator tell nobody of a key. -/
theorem filterMap_told_signal (signals : List Signal) :
    (signals.map Event.signal).filterMap Event.told? = [] := by
  rw [List.filterMap_map]
  exact List.filterMap_eq_nil_iff.mpr fun _ _ => rfl

/-- Only presses and instructions may tell a watcher of a key. -/
theorem told_obey (env : Environment) (m : Machine w h τ) {c : Command}
    (hpress : c.pressed? = none) (hexecutes : c.executes = false) : (m.obey env c).told = [] := by
  cases c with
  | operate op =>
    cases op with
    | step | frame => cases hexecutes
    | press => cases hpress
    | keyPressed key => exact told_keyPressed m key
    | playSound =>
      simp only [obey, perform, playSound]
      split <;> exact filterMap_told_signal _
    | reset => exact filterMap_told_signal _
    | loadNumbers numbers =>
      simp only [obey, perform, loadNumbers]
      split <;> rfl
    | loadFile path =>
      simp only [obey, perform, loadFile]
      split <;> rfl
    | release | updateTimers => rfl
  | togglePixel x y =>
    simp only [obey]
    split <;> rfl
  | readPixel x y =>
    simp only [obey]
    split <;> rfl
  | startTone | stopTone => exact filterMap_told_signal _
  | _ => rfl

/-- A command that neither presses a key, nor registers anybody, nor carries out instructions does
the same whoever listens, and leaves that listener. -/
theorem obey_withListener (env : Environment) (m : Machine w h τ) {c : Command}
    (hpress : c.pressed? = none) (hexecutes : c.executes = false)
    (hregister : c.isRegistration = false) (l : Option Listener) :
    ((m.withListener l).obey env c).machine = (m.obey env c).machine.withListener l := by
  have hscreen : (m.withListener l).screen = m.screen := rfl
  cases c with
  | operate op =>
    cases op with
    | step | frame => cases hexecutes
    | press => cases hpress
    | keyPressed key =>
      have hwaiting : (m.withListener l).isWaiting = m.isWaiting := rfl
      have hkey : (m.withListener l).cpu.keyRegister = m.cpu.keyRegister := rfl
      simp only [obey, perform, keyPressed, hwaiting, hkey]
      split
      · split <;> rfl
      · rfl
    | playSound =>
      have hsound : (m.withListener l).cpu.sound = m.cpu.sound := rfl
      simp only [obey, perform, playSound, hsound]
      split <;> rfl
    | loadNumbers numbers =>
      simp only [obey, perform, loadNumbers]
      split <;> rfl
    | loadFile path =>
      simp only [obey, perform, loadFile]
      split <;> rfl
    | release | updateTimers | reset => rfl
  | register => cases hregister
  | togglePixel x y =>
    simp only [obey, hscreen]
    split <;> rfl
  | readPixel x y =>
    simp only [obey, hscreen]
    split <;> rfl
  | _ => rfl

/-- Such a command leaves whoever listens. -/
theorem listener_obey (env : Environment) (m : Machine w h τ) {c : Command}
    (hpress : c.pressed? = none) (hexecutes : c.executes = false)
    (hregister : c.isRegistration = false) :
    (m.obey env c).machine.keypad.listener = m.keypad.listener := by
  have hsame := obey_withListener env m hpress hexecutes hregister m.keypad.listener
  have hm : m.withListener m.keypad.listener = m := rfl
  rw [hm] at hsame
  rw [hsame]
  rfl

/-- While nobody else is registered and no instructions are carried out, watchers are told of the
presses that the listener is good for. -/
theorem toldDuring_eq (env : Environment) (m : Machine w h τ) {cs : List Command}
    (hcs : ∀ c ∈ cs, c.isRegistration = false ∧ c.executes = false) :
    m.toldDuring env cs = Listener.tells m.keypad.listener (cs.filterMap Command.pressed?) := by
  induction cs generalizing m with
  | nil => simp [toldDuring, replies]
  | cons c cs ih =>
    obtain ⟨hregister, hexecutes⟩ := hcs c (List.mem_cons_self ..)
    have hrest := ih (m.obey env c).machine fun c' hc' => hcs c' (List.mem_cons_of_mem _ hc')
    rw [toldDuring_cons, hrest]
    cases hpress : c.pressed? with
    | none =>
      rw [List.filterMap_cons_none hpress, told_obey env m hpress hexecutes, List.nil_append,
        listener_obey env m hpress hexecutes hregister]
    | some key =>
      obtain rfl := Command.eq_press_of_pressed? hpress
      rw [List.filterMap_cons_some hpress, Listener.tells_cons]
      exact congrArg₂ (· ++ ·) (told_press m key)
        (congrArg (Listener.tells · _) (listener_press m key))

/-- A listener that is replaced or withdrawn before any press is never told. -/
theorem toldDuring_register_register (env : Environment) (m : Machine w h τ)
    (l l' : Option Listener) {waiting : List Command}
    (hwaiting : ∀ c ∈ waiting, c.pressed? = none ∧ c.executes = false) (cs : List Command) :
    m.toldDuring env (.register l :: waiting ++ .register l' :: cs) =
      m.toldDuring env (waiting ++ .register l' :: cs) := by
  -- The two runs differ in who listens, and do so until the next registration.
  suffices hsame : (m.withListener l).toldDuring env (waiting ++ .register l' :: cs) =
      m.toldDuring env (waiting ++ .register l' :: cs) from hsame
  induction waiting generalizing m with
  | nil => rfl
  | cons c waiting ih =>
    obtain ⟨hpress, hexecutes⟩ := hwaiting c (List.mem_cons_self ..)
    have hrest := ih (m.obey env c).machine fun c' hc' => hwaiting c' (List.mem_cons_of_mem _ hc')
    rw [List.cons_append, toldDuring_cons, toldDuring_cons, told_obey env _ hpress hexecutes,
      told_obey env _ hpress hexecutes, List.nil_append, List.nil_append]
    cases hregister : c.isRegistration with
    | true =>
      cases c with
      | register => rfl
      | _ => cases hregister
    | false =>
      rw [obey_withListener env m hpress hexecutes hregister]
      exact hrest

/-- In any run a watcher that is registered to ask `again` more times is told of the next
`again + 1` presses, in order and by the low four bits of the keys, and of none after them, until
somebody else is registered; and nobody is told once the listener was withdrawn. Nothing but a press
tells a watcher. A listener that is replaced or withdrawn before any press might as well not have
been registered. After a press somebody listens exactly if the listener that was told has registered
again. -/
theorem watchers_told (env : Environment) (m : Machine w h τ) (earlier : List Command) :
    (∀ (id : Int) (again : Nat) (cs : List Command),
      (∀ c ∈ cs, c.isRegistration = false ∧ c.executes = false) →
      m.toldDuring env (earlier ++ .register (some (.watcher id again)) :: cs) =
        m.toldDuring env earlier ++
          ((cs.filterMap Command.pressed?).take (again + 1)).map fun key => (id, key % 16)) ∧
    (∀ cs : List Command, (∀ c ∈ cs, c.isRegistration = false ∧ c.executes = false) →
      m.toldDuring env (earlier ++ .register none :: cs) = m.toldDuring env earlier) ∧
    (∀ c : Command, c.pressed? = none → c.executes = false →
      ((m.obeyAll env earlier).obey env c).told = []) ∧
    (∀ (l l' : Option Listener) (waiting cs : List Command),
      (∀ c ∈ waiting, c.pressed? = none ∧ c.executes = false) →
      m.toldDuring env (earlier ++ .register l :: waiting ++ .register l' :: cs) =
        m.toldDuring env (earlier ++ waiting ++ .register l' :: cs)) ∧
    ∀ key : Int, let before := (m.obeyAll env earlier).keypad.listener
      let pressed := (m.obeyAll env earlier).obey env (.operate (.press key))
      (pressed.machine.keypad.listener.isSome = true ↔ .listenerSet ∈ pressed.events) ∧
      (pressed.machine.keypad.listener.isSome = true ↔
        ∃ id again, before = some (.watcher id (again + 1))) := by
  have hregister : ∀ (l : Option Listener) (cs : List Command),
      (∀ c ∈ cs, c.isRegistration = false ∧ c.executes = false) →
      m.toldDuring env (earlier ++ .register l :: cs) =
        m.toldDuring env earlier ++ Listener.tells l (cs.filterMap Command.pressed?) := by
    intro l cs hcs
    rw [toldDuring_append]
    exact congrArg (m.toldDuring env earlier ++ ·)
      (toldDuring_eq env ((m.obeyAll env earlier).withListener l) hcs)
  refine ⟨fun id again cs hcs => hregister _ cs hcs, fun cs hcs => ?_, fun c => told_obey env _,
    fun l l' waiting cs hwaiting => ?_, fun key => ?_⟩
  · rw [hregister none cs hcs]
    exact List.append_nil _
  · rw [List.append_assoc, List.append_assoc, toldDuring_append env m earlier,
      toldDuring_append env m earlier]
    exact congrArg (m.toldDuring env earlier ++ ·)
      (toldDuring_register_register env (m.obeyAll env earlier) l l' hwaiting cs)
  · intro before pressed
    have hlistener : pressed.machine.keypad.listener = before.bind Listener.again? :=
      listener_press _ key
    rw [hlistener]
    exact ⟨(listenerSet_mem_press_iff _ key).symm, Listener.isSome_bind_again?_iff before⟩

/-- A watcher that asks once more to be told sees two of three presses, and one that is withdrawn
before the first press sees none of them. -/
theorem watchers_told_between_releases :
    let env : Environment := ⟨fun _ => 0, fun _ => .error .notFound⟩
    let m : Machine 64 32 Tone := .powerOn (.dark 64 32) 10
    let earlier : List Command := [.register (some (.watcher 5 0)), .operate (.press 17)]
    let cs : List Command := [.operate (.press 3), .operate (.release 3), .heldKeys,
      .operate (.press (-1)), .operate (.press 20)]
    (∀ c ∈ cs, c.isRegistration = false ∧ c.executes = false) ∧
      m.toldDuring env (earlier ++ .register (some (.watcher 7 1)) :: cs) =
        [(5, 1), (7, 3), (7, 15)] ∧
      m.toldDuring env (earlier ++ [.register (some (.watcher 7 1))] ++ .register none :: cs) =
        [(5, 1)] := by
  intro env m earlier cs
  have hcs : ∀ c ∈ cs, c.isRegistration = false ∧ c.executes = false := by decide
  obtain ⟨htold, hwithdrawn, -, hreplaced, -⟩ := watchers_told env m earlier
  have hearlier : m.toldDuring env earlier = [(5, 1)] := by decide
  refine ⟨hcs, ?_, ?_⟩
  · rw [htold 7 1 cs hcs, hearlier]
    decide
  · exact ((hreplaced _ none [] cs (by simp)).trans (hwithdrawn cs hcs)).trans hearlier

end Machine

end Chip8
