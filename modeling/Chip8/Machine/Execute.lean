import Chip8.Machine
import Chip8.Instruction.Encoding

/-!
# Carrying out an instruction

`execute` says what each instruction does to a machine whose program counter has already moved
past it, and what can be observed of it. It is total; `refusal?` says beforehand which
instructions cannot be carried out: a call on a full stack, a return on an empty one, and drawing
on a screen without pixels.
-/

namespace Chip8.Machine

variable {w h : Nat} {τ : Type}

/-- The coordinates that a draw instruction toggles. -/
def spritePoints (m : Machine w h τ) (x y n : Nibble) : List (Int × Int) :=
  Sprite.points (m.reg x) (m.reg y) (m.memory.read m.cpu.i.addr n.toNat)

/-- The fault of an instruction that the program counter has just moved past. -/
def faultOf (m : Machine w h τ) (cause : Fault.Cause) (i : Instruction) : Error :=
  .fault ⟨cause, i.encode.toNat, (m.cpu.pc.advance (-2)).toNat⟩

/-- Why an instruction cannot be carried out, if so. -/
def refusal? (m : Machine w h τ) (i : Instruction) : Option Error :=
  match i with
  | .ret => if m.cpu.stack.isEmpty then some (m.faultOf .stackUnderflow i) else none
  | .call _ =>
    if stackDepth ≤ m.cpu.stack.length then some (m.faultOf .stackOverflow i) else none
  | .draw x y n =>
    if !m.screen.hasPixels && !(m.spritePoints x y n).isEmpty then some .noPixels else none
  | _ => none

/-- The machine after an instruction that is not refused, and the events of carrying it out. The
random source gives the number of each draw. -/
def execute (random : Nat → Int) (m : Machine w h τ) :
    Instruction → Machine w h τ × List Event
  | .sys nnn => (m, [.note (.sysIgnored nnn.toWord)])
  | .cls => ({ m with screen := m.screen.clear }, [.cleared])
  | .ret =>
    match m.cpu.stack with
    | [] => (m, [])
    | pc :: rest => ({ m with cpu.pc := pc, cpu.stack := rest }, [.note (.returned pc)])
  | .jump nnn => (m.goto nnn.toWord, [.note (.jumped nnn)])
  | .call nnn =>
    ({ m with cpu.pc := nnn.toWord, cpu.stack := m.cpu.pc :: m.cpu.stack },
      [.note (.called nnn)])
  | .skipEqByte x kk => (m.skipIf (m.reg x == kk), [])
  | .skipNeByte x kk => (m.skipIf (m.reg x != kk), [])
  | .skipEq x y => (m.skipIf (m.reg x == m.reg y), [])
  | .setByte x kk => (m.setReg x kk, [.note (.registerSet x kk)])
  | .addByte x kk => (m.setReg x (m.reg x + kk), [])
  | .copy x y => (m.setReg x (m.reg y), [])
  | .or x y => (m.setReg x (m.reg x ||| m.reg y), [])
  | .and x y => (m.setReg x (m.reg x &&& m.reg y), [])
  | .xor x y => (m.setReg x (m.reg x ^^^ m.reg y), [])
  | .add x y =>
    (m.setFlagged x (.ofBool (255 < (m.reg x).toNat + (m.reg y).toNat)) (m.reg x + m.reg y), [])
  | .sub x y => (m.setFlagged x (.ofBool (m.reg y < m.reg x)) (m.reg x - m.reg y), [])
  | .shiftRight x _ => (m.setFlagged x (m.reg x &&& 0x01) (m.reg x >>> 1), [])
  | .subFrom x y => (m.setFlagged x (.ofBool (m.reg x < m.reg y)) (m.reg y - m.reg x), [])
  | .shiftLeft x _ => (m.setFlagged x (m.reg x &&& 0x80) (m.reg x <<< 1), [])
  | .skipNe x y => (m.skipIf (m.reg x != m.reg y), [])
  | .setIndex nnn => ({ m with cpu.i := nnn.toWord }, [.note (.indexSet nnn)])
  | .jumpFrom nnn =>
    let pc := (nnn + (m.reg 0).setWidth 12).toWord
    (m.goto pc, [.note (.jumpedFrom nnn pc)])
  | .random x kk =>
    ({ m.setReg x (BitVec.ofInt 8 (random m.draws) &&& kk) with draws := m.draws + 1 },
      [.randomDrawn])
  | .draw x y n =>
    let points := m.spritePoints x y n
    let drawn := m.screen.toggleAll points
    let collision := Byte.ofBool (drawn.2.any id)
    ({ m.setReg 0xF collision with screen := drawn.1 },
      points.zipWith (fun p off => .toggled p.1 p.2 off) drawn.2
        ++ [.note (.spriteDrawn collision)])
  | .skipKey x =>
    let key := (m.reg x).toNat
    (m.skipIf (m.keypad.isHeld key), [.keyQueried key (m.keypad.isHeld key)])
  | .skipNoKey x =>
    let key := (m.reg x).toNat
    (m.skipIf (!m.keypad.isHeld key), [.keyQueried key (m.keypad.isHeld key)])
  | .getDelay x => (m.setReg x m.cpu.delay, [])
  | .waitKey x =>
    ({ m with
        cpu.mode := .waiting, cpu.keyRegister := some x,
        keypad := m.keypad.register (some .machine) },
      [.listenerSet, .note (.awaitingKey x)])
  | .setDelay x => ({ m with cpu.delay := m.reg x }, [.delaySet (m.reg x)])
  | .setSound x => ({ m with cpu.sound := m.reg x }, [.soundSet (m.reg x)])
  | .addIndex x => ({ m with cpu.i := m.cpu.i + (m.reg x).setWidth 16 }, [])
  | .glyph x => ({ m with cpu.i := BitVec.ofInt 16 (Glyph.address (m.reg x).toNat) }, [])
  | .decimal x =>
    ({ m with memory := m.memory.writeAll m.cpu.i.addr (m.reg x).decimalDigits }, [])
  | .store x =>
    ({ m with memory := m.memory.writeAll m.cpu.i.addr (m.cpu.v.read 0 (x.toNat + 1)) }, [])
  | .load x =>
    ({ m with cpu.v := m.cpu.v.writeAll 0 (m.memory.read m.cpu.i.addr (x.toNat + 1)) }, [])

/-! ## One instruction

A step fetches the word at the program counter, moves past it and carries the instruction out. If
the word is no instruction, or the instruction is refused, the step ends in an error and only the
program counter has moved. -/

/-- One instruction. It looks neither at the mode nor at an earlier fault. -/
def step (random : Nat → Int) (m : Machine w h τ) : Outcome w h τ :=
  let next := m.advance
  match Instruction.decode? m.fetch with
  | none => next.failed (.fault ⟨.unknownOpcode, m.fetch.toNat, m.cpu.pc.toNat⟩)
  | some i =>
    match next.refusal? i with
    | some e => next.failed e
    | none =>
      let after := next.execute random i
      done (after.1, .executed m.cpu.pc i :: after.2)

end Chip8.Machine
