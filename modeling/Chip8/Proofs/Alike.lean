import Chip8.Proofs.History
import Mathlib.Data.List.Forall2

/-!
# Machines that are alike

Two machines are alike up to a tolerance (`Alike`) if they agree in everything that instructions
can reach, except that some parts need only be related: words by which memory is addressed, the
timers, the keypad, and how many random numbers were drawn. An instruction that reads the same in
both (`ReadsSame`) leaves them alike (`Alike.execute`), so a step carries out the same instruction
in both or fails in both (`Alike.step_cases`). The proof goes through the instructions once, for
every tolerance.
-/

namespace Chip8

/-- How far two machines may be apart. -/
structure Tolerance where
  /-- The words that may stand for each other in the index register, in the program counter and on
  the stack. -/
  word : Word → Word → Prop
  /-- The places that may stand for each other in a fault. -/
  place : Int → Int → Prop
  /-- The timer values that may stand for each other. -/
  timer : Byte → Byte → Prop
  /-- The keypads that may stand for each other. -/
  keypad : Keypad → Keypad → Prop
  /-- The marks of a changed screen that may stand for each other. -/
  mark : Bool → Bool → Prop
  /-- How many more numbers the first machine has drawn. -/
  lead : Nat
  /-- How many more frames the first machine has presented. -/
  presented : Nat
  word_refl : ∀ a, word a a
  word_add : ∀ {a b} c, word a b → word (a + c) (b + c)
  addr_eq : ∀ {a b}, word a b → a.addr = b.addr
  place_refl : ∀ p, place p p
  place_toNat : ∀ {a b}, word a b → place a.toNat b.toNat
  timer_refl : ∀ t, timer t t
  keypad_register : ∀ {p q} l, keypad p q → keypad (p.register l) (q.register l)
  keypad_press : ∀ {p q} key, keypad p q → keypad (p.press key).1 (q.press key).1
  keypad_release : ∀ {p q} key, keypad p q → keypad (p.release key) (q.release key)
  mark_refl : ∀ c, mark c c

namespace Tolerance

/-- No difference at all. -/
def exact : Tolerance where
  word := Eq
  place := Eq
  timer := Eq
  keypad := Eq
  mark := Eq
  lead := 0
  presented := 0
  word_refl _ := rfl
  word_add _ h := congrArg (· + _) h
  addr_eq h := congrArg _ h
  place_refl _ := rfl
  place_toNat h := congrArg (fun a : Word => (a.toNat : Int)) h
  timer_refl _ := rfl
  keypad_register _ h := congrArg (Keypad.register · _) h
  keypad_press key h := congrArg (fun p => (Keypad.press p key).1) h
  keypad_release key h := congrArg (Keypad.release · key) h
  mark_refl _ := rfl

/-- The faults agree, their places as far as the tolerance asks. -/
structure Fault (T : Tolerance) (f g : Chip8.Fault) : Prop where
  cause : f.cause = g.cause
  opcode : f.opcode = g.opcode
  place : T.place f.pc g.pc

/-- The errors agree, the place of a fault as far as the tolerance asks. -/
def Error (T : Tolerance) : Chip8.Error → Chip8.Error → Prop
  | .fault f, .fault g => T.Fault f g
  | e, e' => e = e'

theorem error_refl (T : Tolerance) (e : Chip8.Error) : T.Error e e := by
  cases e with
  | fault f => exact ⟨rfl, rfl, T.place_refl f.pc⟩
  | load | badValue | noPixels | noKeyRegister => rfl

/-- Errors that agree are faults that agree, or they are the same and no faults. -/
theorem Error.cases {T : Tolerance} {e₁ e₂ : Chip8.Error} (he : T.Error e₁ e₂) :
    (∃ f g, e₁ = .fault f ∧ e₂ = .fault g ∧ T.Fault f g) ∨ e₁ = e₂ ∧ e₁.isFault = false := by
  cases e₁ with
  | fault f =>
    cases e₂ with
    | fault g => exact .inl ⟨f, g, rfl, rfl, he⟩
    | load | badValue | noPixels | noKeyRegister => cases he
  | load | badValue | noPixels | noKeyRegister => exact .inr ⟨he, rfl⟩

end Tolerance

/-- Toggling the same pixels of the same picture gives the same picture and the same answers. -/
theorem Screen.toggleAll_congr {w h : Nat} {s t : Screen w h} (hrows : s.rows = t.rows)
    (ps : List (Int × Int)) :
    (s.toggleAll ps).1.rows = (t.toggleAll ps).1.rows ∧
      (s.toggleAll ps).2 = (t.toggleAll ps).2 := by
  induction ps generalizing s t with
  | nil => exact ⟨hrows, rfl⟩
  | cons p ps ih =>
    have hfirst : (s.toggle p.1 p.2).1.rows = (t.toggle p.1 p.2).1.rows ∧
        (s.toggle p.1 p.2).2 = (t.toggle p.1 p.2).2 := by
      unfold toggle
      split
      · simp only [flip, get, hrows, and_self]
      · exact ⟨hrows, rfl⟩
    obtain ⟨hrest, hoff⟩ := ih hfirst.1
    exact ⟨hrest, congrArg₂ List.cons hfirst.2 hoff⟩

namespace Machine

variable {w h : Nat} {τ : Type} {T : Tolerance} {m₁ m₂ : Machine w h τ} {r₁ r₂ : Nat → Int}

/-- The machines agree, up to the tolerance, in everything that instructions can reach. -/
structure Alike (T : Tolerance) (m₁ m₂ : Machine w h τ) : Prop where
  v : m₁.cpu.v = m₂.cpu.v
  i : T.word m₁.cpu.i m₂.cpu.i
  pc : T.word m₁.cpu.pc m₂.cpu.pc
  stack : List.Forall₂ T.word m₁.cpu.stack m₂.cpu.stack
  delay : T.timer m₁.cpu.delay m₂.cpu.delay
  sound : T.timer m₁.cpu.sound m₂.cpu.sound
  mode : m₁.cpu.mode = m₂.cpu.mode
  keyRegister : m₁.cpu.keyRegister = m₂.cpu.keyRegister
  memory : m₁.memory = m₂.memory
  rows : m₁.screen.rows = m₂.screen.rows
  keypad : T.keypad m₁.keypad m₂.keypad
  draws : m₁.draws = T.lead + m₂.draws

/-- An instruction learns the same in both machines where the tolerance leaves a difference: from
the delay timer, from the keys and from the random source, of which only masked bits count. -/
structure ReadsSame (r₁ r₂ : Nat → Int) (m₁ m₂ : Machine w h τ) (i : Instruction) : Prop where
  delay : ∀ x, i = .getDelay x → m₁.cpu.delay = m₂.cpu.delay
  held : ∀ x, i = .skipKey x ∨ i = .skipNoKey x → ∀ key, m₁.keypad.isHeld key = m₂.keypad.isHeld key
  random : ∀ x kk, i = .random x kk →
    BitVec.ofInt 8 (r₁ m₁.draws) &&& kk = BitVec.ofInt 8 (r₂ m₂.draws) &&& kk

namespace Alike

/-- A machine is alike itself if the tolerance allows no lead and the same keypad. -/
theorem refl (m : Machine w h τ) (hlead : T.lead = 0) (hkeypad : T.keypad m.keypad m.keypad) :
    Alike T m m where
  v := rfl
  i := T.word_refl _
  pc := T.word_refl _
  stack := List.forall₂_same.mpr fun a _ => T.word_refl a
  delay := T.timer_refl _
  sound := T.timer_refl _
  mode := rfl
  keyRegister := rfl
  memory := rfl
  rows := rfl
  keypad := hkeypad
  draws := by rw [hlead, Nat.zero_add]

/-- Registers are equal. -/
theorem reg (hm : Alike T m₁ m₂) (x : Nibble) : m₁.reg x = m₂.reg x :=
  congrArg (Bank.get · x) hm.v

/-- The memory is equal from the index register on. -/
theorem read (hm : Alike T m₁ m₂) (k : Nat) :
    m₁.memory.read m₁.cpu.i.addr k = m₂.memory.read m₂.cpu.i.addr k := by
  rw [hm.memory, T.addr_eq hm.i]

/-- The same word is fetched. -/
theorem fetch (hm : Alike T m₁ m₂) : m₁.fetch = m₂.fetch := by
  rw [Machine.fetch, Machine.fetch, hm.memory, T.addr_eq hm.pc]

/-- Program counters that are advanced become equal. -/
theorem pc_advance (hm : Alike T m₁ m₂) (k : Addr) :
    m₁.cpu.pc.advance k = m₂.cpu.pc.advance k := by
  rw [Word.advance, Word.advance, T.addr_eq hm.pc]

/-- The same pixels are toggled. -/
theorem spritePoints (hm : Alike T m₁ m₂) (x y n : Nibble) :
    m₁.spritePoints x y n = m₂.spritePoints x y n := by
  rw [Machine.spritePoints, Machine.spritePoints, hm.reg, hm.reg, hm.read]

theorem goto (hm : Alike T m₁ m₂) (pc : Word) : Alike T (m₁.goto pc) (m₂.goto pc) :=
  { hm with pc := T.word_refl pc }

theorem advance (hm : Alike T m₁ m₂) : Alike T m₁.advance m₂.advance := by
  rw [Machine.advance, Machine.advance, hm.pc_advance]
  exact hm.goto _

theorem skipIf (hm : Alike T m₁ m₂) (c : Bool) : Alike T (m₁.skipIf c) (m₂.skipIf c) := by
  cases c with
  | false => exact hm
  | true => exact hm.advance

theorem setReg (hm : Alike T m₁ m₂) (x : Nibble) (b : Byte) :
    Alike T (m₁.setReg x b) (m₂.setReg x b) :=
  { hm with v := congrArg (Bank.set · x b) hm.v }

theorem setFlagged (hm : Alike T m₁ m₂) (x : Nibble) (flag result : Byte) :
    Alike T (m₁.setFlagged x flag result) (m₂.setFlagged x flag result) :=
  (hm.setReg 0xF flag).setReg x result

/-- The same row is stored at the index register. -/
theorem store (hm : Alike T m₁ m₂) (row : List Byte) :
    Alike T { m₁ with memory := m₁.memory.writeAll m₁.cpu.i.addr row }
      { m₂ with memory := m₂.memory.writeAll m₂.cpu.i.addr row } := by
  have hmemory : m₁.memory.writeAll m₁.cpu.i.addr row = m₂.memory.writeAll m₂.cpu.i.addr row := by
    rw [hm.memory, T.addr_eq hm.i]
  exact { hm with memory := hmemory }

/-- The same instructions are refused, with the same error. -/
theorem refusal? (hm : Alike T m₁ m₂) (i : Instruction) : m₁.refusal? i = m₂.refusal? i := by
  have hfault : ∀ cause, m₁.faultOf cause i = m₂.faultOf cause i := by
    intro cause
    rw [faultOf, faultOf, hm.pc_advance]
  have hlength := hm.stack.length_eq
  cases i with
  | ret =>
    simp only [Machine.refusal?, ← List.length_eq_zero_iff, List.isEmpty_iff, hlength, hfault]
  | call => simp only [Machine.refusal?, hlength, hfault]
  | draw => simp only [Machine.refusal?, hm.spritePoints]; rfl
  | _ => rfl

/-- An instruction that reads the same in both machines leaves them alike. -/
theorem execute (hm : Alike T m₁ m₂) {i : Instruction} (hi : ReadsSame r₁ r₂ m₁ m₂ i) :
    Alike T (m₁.execute r₁ i).1 (m₂.execute r₂ i).1 := by
  cases i with
  | sys => exact hm
  | cls => exact { hm with rows := rfl }
  | ret =>
    cases h₁ : m₁.cpu.stack with
    | nil =>
      have h₂ : m₂.cpu.stack = [] := List.forall₂_nil_left_iff.mp (h₁ ▸ hm.stack)
      simp only [Machine.execute, h₁, h₂]
      exact hm
    | cons pc₁ rest₁ =>
      obtain ⟨pc₂, rest₂, hpc, hrest, h₂⟩ := List.forall₂_cons_left_iff.mp (h₁ ▸ hm.stack)
      simp only [Machine.execute, h₁, h₂]
      exact { hm with pc := hpc, stack := hrest }
  | jump => exact hm.goto _
  | jumpFrom =>
    simp only [Machine.execute, hm.reg]
    exact hm.goto _
  | call => exact { hm with pc := T.word_refl _, stack := .cons hm.pc hm.stack }
  | skipEqByte | skipNeByte | skipEq | skipNe =>
    simp only [Machine.execute, hm.reg]
    exact hm.skipIf _
  | skipKey x =>
    simp only [Machine.execute, hm.reg, hi.held x (.inl rfl)]
    exact hm.skipIf _
  | skipNoKey x =>
    simp only [Machine.execute, hm.reg, hi.held x (.inr rfl)]
    exact hm.skipIf _
  | setByte | addByte | copy | or | and | xor =>
    simp only [Machine.execute, hm.reg]
    exact hm.setReg _ _
  | add | sub | subFrom | shiftRight | shiftLeft =>
    simp only [Machine.execute, hm.reg]
    exact hm.setFlagged _ _ _
  | setIndex => exact { hm with i := T.word_refl _ }
  | addIndex =>
    simp only [Machine.execute, hm.reg]
    exact { hm with i := T.word_add _ hm.i }
  | glyph =>
    simp only [Machine.execute, hm.reg]
    exact { hm with i := T.word_refl _ }
  | random x kk =>
    simp only [Machine.execute, hi.random x kk rfl]
    exact { hm.setReg x _ with draws := congrArg (· + 1) hm.draws }
  | draw x y n =>
    obtain ⟨hrows, hoff⟩ := Screen.toggleAll_congr hm.rows (m₂.spritePoints x y n)
    simp only [Machine.execute, hm.spritePoints, hoff]
    exact { hm.setReg 0xF _ with rows := hrows }
  | getDelay x =>
    simp only [Machine.execute, hi.delay x rfl]
    exact hm.setReg _ _
  | waitKey =>
    exact { hm with mode := rfl, keyRegister := rfl, keypad := T.keypad_register _ hm.keypad }
  | setDelay =>
    simp only [Machine.execute, hm.reg]
    exact { hm with delay := T.timer_refl _ }
  | setSound =>
    simp only [Machine.execute, hm.reg]
    exact { hm with sound := T.timer_refl _ }
  | decimal =>
    simp only [Machine.execute, hm.reg]
    exact hm.store _
  | store =>
    simp only [Machine.execute, hm.v]
    exact hm.store _
  | load =>
    simp only [Machine.execute, hm.read]
    exact { hm with v := congrArg (Bank.writeAll · 0 _) hm.v }

/-- Alike machines whose next instruction reads the same carry out that instruction and stay
alike, or both fail past the same word, in the same way. -/
theorem step_cases (hm : Alike T m₁ m₂)
    (hread : ∀ i, Instruction.decode? m₁.fetch = some i →
      ReadsSame r₁ r₂ m₁.advance m₂.advance i) :
    (∃ e₁ e₂, T.Error e₁ e₂ ∧ m₁.step r₁ = m₁.advance.failed e₁ ∧
      m₂.step r₂ = m₂.advance.failed e₂) ∨
    ∃ i, Instruction.decode? m₁.fetch = some i ∧
      Alike T (m₁.advance.execute r₁ i).1 (m₂.advance.execute r₂ i).1 ∧
      m₁.step r₁ = done ((m₁.advance.execute r₁ i).1,
        .executed m₁.cpu.pc i :: (m₁.advance.execute r₁ i).2) ∧
      m₂.step r₂ = done ((m₂.advance.execute r₂ i).1,
        .executed m₂.cpu.pc i :: (m₂.advance.execute r₂ i).2) := by
  unfold Machine.step
  rw [← hm.fetch]
  cases hi : Instruction.decode? m₁.fetch with
  | none =>
    refine .inl ⟨_, _, ?_, rfl, rfl⟩
    exact ⟨rfl, rfl, T.place_toNat hm.pc⟩
  | some i =>
    simp only [← hm.advance.refusal? i]
    cases he : m₁.advance.refusal? i with
    | some e => exact .inl ⟨e, e, T.error_refl e, rfl, rfl⟩
    | none => exact .inr ⟨i, rfl, hm.advance.execute (hread i hi), rfl, rfl⟩

end Alike

end Machine

end Chip8
