import Chip8.Memory
import Mathlib.Data.List.Induction

/-!
# Writes to memory

Integers that differ by a multiple of 4096 address the same cell, and all others address different
ones. So what a cell holds after any writes is decided by the last of them at its address, and what
it held at first if there was none (`Memory.readAt_writeEach`). A block is read cell by cell, also
where it is longer than the memory (`Memory.block_eq_map_readAt`).
-/

namespace Chip8

/-- Integers with the same remainder address the same cell. -/
theorem addr_ofInt_eq_iff (a b : Int) :
    (BitVec.ofInt 12 a : Addr) = BitVec.ofInt 12 b ↔ a % 4096 = b % 4096 := by
  rw [← BitVec.toNat_inj, BitVec.toNat_ofInt, BitVec.toNat_ofInt]
  omega

/-- The byte that an integer is stored as. -/
theorem byte_ofInt_eq (value : Int) :
    (BitVec.ofInt 8 value : Byte) = BitVec.ofNat 8 (value % 256).toNat := by
  apply BitVec.eq_of_toNat_eq
  rw [BitVec.toNat_ofInt, BitVec.toNat_ofNat]
  omega

/-- The cells are listed by their addresses. -/
theorem Bank.getElem?_toList {w : Nat} {α : Type} (b : Bank w α) (a : BitVec w) :
    b.toList[a.toNat]? = some (b.get a) := by
  have ha : a.toNat < b.toList.length := by
    rw [toList, Vector.length_toList]
    exact a.isLt
  rw [List.getElem?_eq_getElem ha]
  rfl

/-- Different cells may be replaced in either order. -/
theorem Bank.set_comm {w : Nat} {α : Type} (b : Bank w α) {a c : BitVec w} (hac : a ≠ c)
    (x y : α) : (b.set a x).set c y = (b.set c y).set a x := by
  refine Bank.ext fun d => ?_
  simp only [get_set]
  by_cases hc : c = d
  · subst hc
    rw [if_pos rfl, if_neg hac, if_pos rfl]
  · rw [if_neg hc, if_neg hc]

namespace Memory

/-- The memory after a list of writes, each of a value at an address. -/
def writeEach (m : Memory) (writes : List (Int × Int)) : Memory :=
  writes.foldl (fun m write => m.writeAt write.1 write.2) m

/-- The value of the last write that means the same cell as an address. -/
def lastWritten? (address : Int) (writes : List (Int × Int)) : Option Int :=
  (writes.reverse.find? fun write => write.1 % 4096 = address % 4096).map Prod.snd

theorem writeEach_concat (m : Memory) (writes : List (Int × Int)) (write : Int × Int) :
    m.writeEach (writes ++ [write]) = (m.writeEach writes).writeAt write.1 write.2 := by
  rw [writeEach, List.foldl_append]
  rfl

theorem lastWritten?_concat (address : Int) (writes : List (Int × Int)) (write : Int × Int) :
    lastWritten? address (writes ++ [write]) =
      if write.1 % 4096 = address % 4096 then some write.2 else lastWritten? address writes := by
  rw [lastWritten?, List.reverse_concat, List.find?_cons]
  split <;> rename_i h <;> simp only [decide_eq_true_eq, decide_eq_false_iff_not] at h
  · rw [if_pos h]
    rfl
  · rw [if_neg h]
    rfl

/-- A write is read back at its own cell only. -/
theorem readAt_writeAt (m : Memory) (a address value : Int) :
    (m.writeAt a value).readAt address =
      if a % 4096 = address % 4096 then BitVec.ofInt 8 value else m.readAt address := by
  rw [readAt, writeAt, Bank.get_set]
  simp only [addr_ofInt_eq_iff]
  rfl

/-- After any writes a cell holds what the last of them at its address has left. -/
theorem readAt_writeEach (m : Memory) (writes : List (Int × Int)) (address : Int) :
    (m.writeEach writes).readAt address =
      ((lastWritten? address writes).map (BitVec.ofInt 8)).getD (m.readAt address) := by
  induction writes using List.reverseRecOn with
  | nil => rfl
  | append_singleton writes write ih =>
    rw [writeEach_concat, readAt_writeAt, lastWritten?_concat, ih]
    split <;> rfl

/-- A block is read cell by cell. -/
theorem block_eq_map_readAt (m : Memory) (address length : Int) :
    m.block address length = (List.range length.toNat).map fun i : Nat => m.readAt (address + i) := by
  rw [block, Bank.read]
  apply List.map_congr_left
  intro i _
  rw [readAt, BitVec.ofInt_add]
  rfl

/-- A row of values is written one after the other. -/
theorem writeRow_eq_writeEach (m : Memory) (address : Int) (values : List Int) :
    m.writeRow address values =
      m.writeEach (values.zipIdx.map fun p => (address + p.2, p.1)) := by
  -- The row has to be followed from its place `k` on, where the addresses have wrapped already.
  have hfrom : ∀ (k : Nat) (m : Memory),
      Bank.writeAll m (BitVec.ofInt 12 (address + k)) (values.map (BitVec.ofInt 8)) =
        m.writeEach ((values.zipIdx k).map fun p => (address + p.2, p.1)) := by
    induction values with
    | nil => exact fun _ _ => rfl
    | cons value values ih =>
      intro k m
      have hnext : BitVec.ofInt 12 (address + k) + 1 =
          BitVec.ofInt 12 (address + (k + 1 : Nat)) := by
        rw [Int.natCast_add, ← Int.add_assoc, BitVec.ofInt_add (address + k)]
        rfl
      rw [List.map_cons, Bank.writeAll, hnext, ih (k + 1)]
      rfl
  have hrow := hfrom 0 m
  rw [Int.natCast_zero, Int.add_zero] at hrow
  exact hrow

/-- Writes that mean different cells may be done in either order. -/
theorem writeAt_comm (m : Memory) {a b : Int} (hab : a % 4096 ≠ b % 4096) (u v : Int) :
    (m.writeAt a u).writeAt b v = (m.writeAt b v).writeAt a u :=
  Bank.set_comm m ((addr_ofInt_eq_iff a b).not.mpr hab) _ _

/-- A block that is read after any writes has as many bytes as were asked for, none if a negative
number was. Each of them is the value of the last write that means its cell, or what the memory held
there at first if there is none. The block is the same as so many single reads, also where it laps
the memory. Writes that mean different cells may be done in either order, and a row of values is as
many single writes. -/
theorem last_write_wins (m : Memory) (writes : List (Int × Int)) (a n : Int) :
    let block := (m.writeEach writes).block a n
    (block.length : Int) = max n 0 ∧
    (∀ i : Nat, (i : Int) < n → block[i]? =
      match lastWritten? (a + i) writes with
      | some value => some (BitVec.ofNat 8 (value % 256).toNat)
      | none => m.toList[((a + i) % 4096).toNat]?) ∧
    block = ((List.range n.toNat).map fun i : Nat => (m.writeEach writes).readAt (a + i)) ∧
    (∀ b c u v : Int, b % 4096 ≠ c % 4096 →
      (m.writeAt b u).writeAt c v = (m.writeAt c v).writeAt b u) ∧
    ∀ (b : Int) (values : List Int),
      m.writeRow b values = m.writeEach (values.zipIdx.map fun p => (b + p.2, p.1)) := by
  intro block
  have hblock : block = _ := block_eq_map_readAt (m.writeEach writes) a n
  refine ⟨?_, fun i hi => ?_, hblock, fun b c u v hbc => m.writeAt_comm hbc u v,
    m.writeRow_eq_writeEach⟩
  · rw [hblock, List.length_map, List.length_range]
    omega
  · rw [hblock, List.getElem?_map, List.getElem?_range (by omega), Option.map_some,
      readAt_writeEach]
    cases lastWritten? (a + i) writes with
    | some value => exact congrArg some (byte_ofInt_eq value)
    | none =>
      have hcell := Bank.getElem?_toList m (BitVec.ofInt 12 (a + i))
      rw [BitVec.toNat_ofInt] at hcell
      exact hcell.symm

/-- Four writes around the end of a blank memory, two of them at one cell, and a block that laps the
memory: the later of the two is read twice. -/
theorem last_write_wins_over_end :
    let writes : List (Int × Int) := [(-1, 300), (4096, 7), (0x1FFF, -2), (-4095, 256)]
    let block := (blank.writeEach writes).block (-2) 4099
    ((4097 : Nat) : Int) < 4099 ∧ block.length = 4099 ∧ block[0]? = some 0 ∧
      block[1]? = some 254 ∧ block[2]? = some 7 ∧ block[3]? = some 0 ∧ block[4097]? = some 254 := by
  intro writes block
  obtain ⟨hlength, hbyte, -⟩ := last_write_wins blank writes (-2) 4099
  have hcount : (block.length : Int) = 4099 := hlength
  have hblank : blank.toList[4094]? = some 0 := by
    rw [← Bank.get_fill (0 : Byte) (4094 : Addr)]
    exact Bank.getElem?_toList blank 4094
  exact ⟨by decide, by omega, (hbyte 0 (by decide)).trans hblank, hbyte 1 (by decide),
    hbyte 2 (by decide), hbyte 3 (by decide), hbyte 4097 (by decide)⟩

end Memory

end Chip8
