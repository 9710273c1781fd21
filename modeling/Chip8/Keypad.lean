import Chip8.Bank
import Chip8.Word

/-!
# The keypad

Sixteen keys that are held or not, and at most one listener that is told of the next press. A
press forgets its listener before telling it, so that a listener may ask to be told again.
-/

namespace Chip8

/-- Who is told of the next key press. -/
inductive Listener where
  /-- The machine, which waits for a key. -/
  | machine
  /-- A watcher that notes the key, and asks `again` more times to be told of the next one. -/
  | watcher (id : Int) (again : Nat)
  deriving DecidableEq, Repr

/-- The state of the keys and the pending listener. -/
structure Keypad where
  held : Bank 4 Bool
  listener : Option Listener
  deriving DecidableEq

/-- The key that an integer names through its low four bits. -/
def keyOfNumber (key : Int) : Nibble := BitVec.ofInt 4 key

@[simp] theorem keyOfNumber_toNat (key : Nibble) : keyOfNumber key.toNat = key := by
  rw [keyOfNumber, BitVec.ofInt_natCast, BitVec.ofNat_toNat, BitVec.setWidth_eq]

/-- The key that an integer names has the number of its low four bits. -/
theorem toNat_keyOfNumber (key : Int) : ((keyOfNumber key).toNat : Int) = key % 16 := by
  rw [keyOfNumber, BitVec.toNat_ofInt]
  omega

namespace Keypad

/-- No key held and nobody listening. -/
def idle : Keypad := ⟨Bank.fill 4 false, none⟩

/-- Replaces the listener; `none` withdraws it. -/
def register (p : Keypad) (l : Option Listener) : Keypad := { p with listener := l }

/-- What a listener does to the keypad when it is told: a watcher may register again. -/
def rearm (p : Keypad) : Listener → Keypad
  | .watcher id (again + 1) => p.register (some (.watcher id again))
  | .watcher _ 0 | .machine => p

/-- Holds a key down and tells the listener, which is forgotten first; the result names the
listener that was told. -/
def press (p : Keypad) (key : Int) : Keypad × Option Listener :=
  let pressed : Keypad := ⟨p.held.set (keyOfNumber key) true, none⟩
  match p.listener with
  | none => (pressed, none)
  | some l => (pressed.rearm l, some l)

/-- Lets a key go. -/
def release (p : Keypad) (key : Int) : Keypad :=
  { p with held := p.held.set (keyOfNumber key) false }

/-- Whether a key is held; numbers outside `0..15` are no keys and never held. -/
def isHeld (p : Keypad) (key : Int) : Bool :=
  decide (0 ≤ key ∧ key ≤ 15) && p.held.get (keyOfNumber key)

/-- The keys that are held, in ascending order. -/
def heldKeys (p : Keypad) : List Nat := (List.range 16).filter fun k => p.isHeld k

/-- A keypad key is asked for by its number. -/
theorem isHeld_toNat (p : Keypad) (k : Nibble) : p.isHeld k.toNat = p.held.get k := by
  have hk : (k.toNat : Int) ≤ 15 := by
    have := k.isLt
    omega
  rw [isHeld, keyOfNumber_toNat, decide_eq_true ⟨Int.natCast_nonneg _, hk⟩, Bool.true_and]

/-- A number that is not negative is asked for: only one up to fifteen may be held. -/
theorem isHeld_natCast (p : Keypad) (n : Nat) :
    p.isHeld n = (decide (n ≤ 15) && p.held.get (keyOfNumber n)) := by
  have hrange : (0 ≤ (n : Int) ∧ (n : Int) ≤ 15) ↔ n ≤ 15 := by omega
  simp only [isHeld, hrange]

/-- Only numbers of keypad keys are held. -/
theorem isHeld_eq_true_iff (p : Keypad) (number : Int) :
    p.isHeld number = true ↔ ∃ k : Nibble, (k.toNat : Int) = number ∧ p.held.get k = true := by
  constructor
  · intro hheld
    rw [isHeld, Bool.and_eq_true, decide_eq_true_iff] at hheld
    obtain ⟨hrange, hget⟩ := hheld
    refine ⟨keyOfNumber number, ?_, hget⟩
    rw [toNat_keyOfNumber]
    omega
  · rintro ⟨k, rfl, hget⟩
    rw [isHeld_toNat, hget]

end Keypad

end Chip8
