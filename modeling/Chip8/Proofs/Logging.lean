import Chip8.Bench
import Chip8.Proofs.Shutdown

/-!
# The activity log

All machines and windows write to one activity log, and all can turn it on and off. What is done to
them is an action in a workspace, with a machine on the bench, a window, and the switch of the log,
which is that of the window. An action that is no turn of the switch does the same in whichever
position that is (`Workspace.act_unlogged`), and a turn of the switch does nothing else
(`Workspace.act_switch`). So a run in which the switch is turned at will goes on, action by action,
like the run without these turns that begins with the log off, and an action that finds the log off
prints nothing to it (`Workspace.log_does_not_interfere`).
-/

namespace Chip8

/-- A machine on the bench and a window. The switch of the log is that of the window. -/
structure Workspace (w h : Nat) (τ : Type) where
  machine : Machine w h τ
  window : Window

/-- Something done in a workspace. -/
inductive Action where
  /-- The machine on the bench carries out a command. -/
  | command (c : Command)
  /-- The machine of the window carries out a command. -/
  | windowCommand (c : Command)
  /-- Something happens to the window. -/
  | event (e : WindowEvent)
  /-- A window is opened in place of the one before, if the numbers are a program. -/
  | openWindow (numbers : List Int) (speed : Int)

/-- The action turns the switch of the log, or leaves it where it should be. -/
def Action.isSwitch : Action → Bool
  | command (.setLogging _) | windowCommand (.setLogging _) | event (.keyDown .f1) => true
  | _ => false

/-- What an action shows besides the lines that are printed. -/
inductive Sight (w h : Nat) (τ : Type) where
  | outcome (o : Outcome w h τ)
  | windowOutcome (o : Outcome screenWidth screenHeight Player)
  | reaction (calls : List HostCall) (error : Option Error)
  | opening (machine : WindowMachine) (calls : List HostCall) (error : Option Error)

/-- There is no answer, no error, no request to the host, and nothing happened in a machine. -/
def Sight.IsEmpty {w h : Nat} {τ : Type} : Sight w h τ → Prop
  | outcome o => o.events = #[] ∧ o.error = none ∧ o.answer = .nothing
  | windowOutcome o => o.events = #[] ∧ o.error = none ∧ o.answer = .nothing
  | reaction calls error => calls = [] ∧ error = none
  | opening _ _ _ => False

/-- What came of an action: the workspace afterwards, what there was to see, and the lines
printed. -/
structure Response (w h : Nat) (τ : Type) where
  action : Action
  workspace : Workspace w h τ
  sight : Sight w h τ
  lines : List String

/-- A command that does not turn the switch leaves it where it is. -/
theorem Bench.switchAfter_eq {c : Command} (hc : ∀ on, c ≠ .setLogging on) (on : Bool) :
    switchAfter on c = on := by
  cases c with
  | setLogging on' => exact absurd rfl (hc on')
  | _ => rfl

namespace Window

/-- The window with the switch of the log off. -/
def unlogged (w : Window) : Window := { w with logging := false }

/-- An event that is no turn of the switch does the same whether or not the log is on. -/
theorem handle_unlogged (random : Nat → Int) (w : Window) {e : WindowEvent}
    (he : e ≠ .keyDown .f1) :
    (w.unlogged.handle random e).window = (w.handle random e).window.unlogged ∧
      (w.unlogged.handle random e).calls = (w.handle random e).calls ∧
      (w.unlogged.handle random e).error = (w.handle random e).error := by
  cases e with
  | tick =>
    obtain ⟨program, machine, image, exiting, logging, canvas⟩ := w
    cases exiting with
    | true => exact ⟨rfl, rfl, rfl⟩
    | false =>
      simp only [handle, tick, unlogged, Bool.false_eq_true, if_false]
      cases (machine.frame random).error with
      | none => exact ⟨rfl, rfl, rfl⟩
      | some e => cases e <;> exact ⟨rfl, rfl, rfl⟩
  | draw =>
    cases hmark : w.machine.screen.shouldDraw <;>
      simp only [handle, draw, unlogged, hmark, Bool.false_eq_true, if_true, if_false, and_self]
  | keyDown k =>
    cases k with
    | f1 => exact absurd rfl he
    | _ => exact ⟨rfl, rfl, rfl⟩
  | keyUp k =>
    simp only [handle, keyUp, unlogged]
    split <;> exact ⟨rfl, rfl, rfl⟩
  | close | startTone | stopTone => exact ⟨rfl, rfl, rfl⟩

/-- The lines that an event prints besides the log: the report of the fault that ends the session,
and the new position of the switch when a key turns it. -/
def reports (random : Nat → Int) (w : Window) : WindowEvent → List String
  | .tick =>
    match (w.act random .tick).error with
    | some (.fault f) => [reportHead ++ f.message]
    | _ => []
  | .keyDown .f1 => ["logs_on: " ++ if w.logging then "False" else "True"]
  | _ => []

/-- An event that finds the log off prints nothing to it. -/
theorem lines_handle_of_not_logging (random : Nat → Int) {w : Window} (hoff : w.logging = false)
    (e : WindowEvent) : (w.handle random e).lines = w.reports random e := by
  have hnone : ∀ events, logLines w.logging events = [] := by
    intro events
    rw [hoff]
    rfl
  cases e with
  | tick =>
    by_cases hexit : w.exiting = true
    · simp only [handle, tick, reports, act, if_pos hexit]
      rfl
    · simp only [handle, tick, reports, act, if_neg hexit, afterOutcome, afterChange, hnone]
      cases (w.machine.frame random).error with
      | none => rfl
      | some e => cases e <;> rfl
  | draw =>
    simp only [handle, draw, reports]
    split <;> rfl
  | keyDown k =>
    cases k with
    | escape | f1 | other => rfl
    | _ => exact hnone _
  | keyUp k =>
    simp only [handle, keyUp, reports]
    split <;> rfl
  | close | startTone | stopTone => exact hnone _

end Window

namespace Workspace

variable {w h : Nat} {τ : Type}

/-- The workspace with the switch of the log off. -/
def unlogged (x : Workspace w h τ) : Workspace w h τ := { x with window := x.window.unlogged }

/-- The lines that an action prints besides the log. -/
def reports (env : Environment) (x : Workspace w h τ) : Action → List String
  | .event e => x.window.reports env.random e
  | .command _ | .windowCommand _ | .openWindow _ _ => []

variable [ToneGenerator τ]

/-- The response to an action. -/
def act (env : Environment) (x : Workspace w h τ) (a : Action) : Response w h τ :=
  match a with
  | .command c =>
    let (bench, o, lines) := Bench.run env ⟨x.machine, x.window.logging⟩ c
    { action := a
      workspace := ⟨bench.machine, { x.window with logging := bench.logging }⟩
      sight := .outcome o
      lines := lines }
  | .windowCommand c =>
    let (bench, o, lines) := Bench.run env ⟨x.window.machine, x.window.logging⟩ c
    { action := a
      workspace := { x with
        window := { x.window with machine := bench.machine, logging := bench.logging } }
      sight := .windowOutcome o
      lines := lines }
  | .event e =>
    let r := x.window.handle env.random e
    { action := a
      workspace := { x with window := r.window }
      sight := .reaction r.calls r.error
      lines := r.lines }
  | .openWindow numbers speed =>
    let opening := Window.start numbers speed x.window.logging
    match opening.window with
    | .error e =>
      { action := a
        workspace := x
        sight := .opening opening.machine opening.calls (some e)
        lines := opening.lines }
    | .ok window =>
      { action := a
        workspace := { x with window := window }
        sight := .opening opening.machine opening.calls none
        lines := opening.lines }

/-- A script: actions, each in an environment of its own. -/
abbrev Script := List (Environment × Action)

/-- The responses to the actions of a script. -/
def responses (x : Workspace w h τ) : Script → List (Response w h τ)
  | [] => []
  | (env, a) :: script => x.act env a :: (x.act env a).workspace.responses script

/-- The workspace after the actions of a script. -/
def after (x : Workspace w h τ) (script : Script) : Workspace w h τ :=
  script.foldl (fun x s => (x.act s.1 s.2).workspace) x

/-- The response records the action. -/
theorem action_act (env : Environment) (x : Workspace w h τ) (a : Action) :
    (x.act env a).action = a := by
  cases a with
  | openWindow numbers speed =>
    simp only [act]
    split <;> rfl
  | _ => rfl

/-- An action that is no turn of the switch does the same whether or not the log is on. -/
theorem act_unlogged (env : Environment) (x : Workspace w h τ) {a : Action}
    (ha : a.isSwitch = false) :
    (x.unlogged.act env a).workspace = (x.act env a).workspace.unlogged ∧
      (x.unlogged.act env a).sight = (x.act env a).sight := by
  cases a with
  | command c | windowCommand c =>
    have hc : Bench.switchAfter false c = false :=
      Bench.switchAfter_eq (by rintro on rfl; cases ha) false
    simp only [act, Bench.run, unlogged, Window.unlogged, hc, and_self]
  | event e =>
    have he : e ≠ .keyDown .f1 := by
      rintro rfl
      cases ha
    obtain ⟨hwindow, hcalls, herror⟩ := Window.handle_unlogged env.random x.window he
    simp only [act, unlogged, hwindow, hcalls, herror, and_self]
  | openWindow numbers speed =>
    simp only [act, Window.start]
    cases Program.ofNumbers numbers <;> exact ⟨rfl, rfl⟩

/-- A turn of the switch does nothing else. -/
theorem act_switch (env : Environment) (x : Workspace w h τ) {a : Action}
    (ha : a.isSwitch = true) :
    (x.act env a).workspace.unlogged = x.unlogged ∧ (x.act env a).sight.IsEmpty := by
  unfold Action.isSwitch at ha
  split at ha
  · exact ⟨rfl, rfl, rfl, rfl⟩
  · exact ⟨rfl, rfl, rfl, rfl⟩
  · exact ⟨rfl, rfl, rfl⟩
  · cases ha

/-- An action that finds the log off prints nothing to it. -/
theorem lines_act_of_not_logging (env : Environment) {x : Workspace w h τ}
    (hoff : x.window.logging = false) (a : Action) : (x.act env a).lines = x.reports env a := by
  cases a with
  | command c | windowCommand c =>
    simp only [act, Bench.run, hoff]
    rfl
  | event e => exact Window.lines_handle_of_not_logging env.random hoff e
  | openWindow numbers speed =>
    simp only [act, Window.start, hoff]
    cases Program.ofNumbers numbers <;> rfl

/-- Action by action, the run of a script is but for the switch the run without the turns of the
switch that begins with the log off. -/
theorem run_unlogged (x : Workspace w h τ) (script : Script) :
    let plain := script.filter fun s => !s.2.isSwitch
    (x.after script).unlogged = x.unlogged.after plain ∧
      ((x.responses script).filter fun r => !r.action.isSwitch).map
          (fun r => (r.workspace.unlogged, r.sight)) =
        (x.unlogged.responses plain).map fun r => (r.workspace, r.sight) := by
  induction script generalizing x with
  | nil => exact ⟨rfl, rfl⟩
  | cons s script ih =>
    obtain ⟨env, a⟩ := s
    obtain ⟨hafter, hresponses⟩ := ih (x.act env a).workspace
    cases ha : a.isSwitch with
    | true =>
      obtain ⟨hsame, -⟩ := act_switch env x ha
      rw [hsame] at hafter hresponses
      simp only [responses, List.filter_cons, action_act, ha]
      exact ⟨hafter, hresponses⟩
    | false =>
      obtain ⟨hworkspace, hsight⟩ := act_unlogged env x ha
      rw [← hworkspace] at hafter hresponses
      simp only [responses, List.filter_cons, action_act, ha, Bool.not_false, if_true,
        List.map_cons, hresponses, hworkspace, hsight, and_true]
      exact hafter

/-- A turn of the switch in a run shows nothing. -/
theorem isEmpty_of_mem_responses {x : Workspace w h τ} {script : Script} {r : Response w h τ}
    (hr : r ∈ x.responses script) (hswitch : r.action.isSwitch = true) : r.sight.IsEmpty := by
  induction script generalizing x with
  | nil => cases hr
  | cons s script ih =>
    obtain hr | hr := List.mem_cons.mp hr
    · subst hr
      rw [action_act] at hswitch
      exact (act_switch s.1 x hswitch).2
    · exact ih hr

/-- The log does not interfere with anything. Compare a run, in which the switch of the log is
turned at will, with the run of the same actions without these turns that begins with the log off.
After both, machine and window are the same but for the switch. They are so after every action on
the way, and every action showed the same: what it gave back, its error, what happened in the
machine, and the requests to the host; in the second run the log stays off. The turns of the switch
show nothing. And an action that finds the log off prints nothing but the report of a fault that
ends the session and the new position of the switch. -/
theorem log_does_not_interfere (x : Workspace w h τ) (script : Script) :
    let plain := script.filter fun s => !s.2.isSwitch
    (x.after script).unlogged = x.unlogged.after plain ∧
    ((x.responses script).filter fun r => !r.action.isSwitch).map
        (fun r => (r.workspace.unlogged, r.sight)) =
      (x.unlogged.responses plain).map (fun r => (r.workspace, r.sight)) ∧
    (∀ r ∈ x.responses script, r.action.isSwitch = true → r.sight.IsEmpty) ∧
    ∀ env a, (x.after script).window.logging = false →
      ((x.after script).act env a).lines = (x.after script).reports env a := by
  intro plain
  obtain ⟨hafter, hresponses⟩ := x.run_unlogged script
  exact ⟨hafter, hresponses, fun r hr => isEmpty_of_mem_responses hr,
    fun env a hoff => lines_act_of_not_logging env hoff a⟩

/-- The first frame is written to the log. Then a key turns the log off, and of the frame that
faults only the report is printed. -/
theorem log_does_not_interfere_turned_off :
    let env : Environment := ⟨fun _ => 0, fun _ => .error .notFound⟩
    let p : Program := ⟨[0x61, 0x05, 0xF1, 0x18, 0xFF, 0xFF], by decide, by decide⟩
    let x : Workspace screenWidth screenHeight Player :=
      ⟨.powerOn (.dark screenWidth screenHeight) 2, .fresh p 2 true⟩
    let turned := x.after [(env, .event .tick), (env, .event (.keyDown .f1))]
    (x.act env (.event .tick)).lines = ["Set V1 = 5"] ∧
      turned.window.logging = false ∧
      turned.unlogged = x.unlogged.after [(env, .event .tick)] ∧
      (turned.act env (.event .tick)).lines =
        ["Emulation error: Unknown opcode: FFFF at 0x204"] := by
  intro env p x turned
  have hoff : turned.window.logging = false := by decide +kernel
  obtain ⟨hafter, -, -, hlines⟩ :=
    x.log_does_not_interfere [(env, .event .tick), (env, .event (.keyDown .f1))]
  refine ⟨by decide +kernel, hoff, hafter, (hlines env (.event .tick) hoff).trans ?_⟩
  decide +kernel

end Workspace

end Chip8
