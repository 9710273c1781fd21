import Chip8.Proofs.Reachable

/-!
# Loading programs

A row of numbers is a program if each of them is a byte and there are between 1 and 3584 of them
(`Program.exists_ofNumbers_eq_ok_iff`). A program that is put into memory fills its window from
`0x200` on and leaves every other cell alone (`Memory.readAt_withProgram`,
`Memory.get_withProgram_of_outside`). What is no program, or cannot be read from its file, leaves
the whole machine as it was (`Machine.load_all_or_nothing`).
-/

namespace Chip8

namespace Program

/-- A row of bytes is a program if it is neither empty nor longer than the room for it. -/
theorem exists_ofBytes_eq_ok_iff {bytes : List Byte} :
    (∃ p, ofBytes bytes = .ok p) ↔ 1 ≤ bytes.length ∧ bytes.length ≤ 3584 := by
  constructor
  · rintro ⟨p, hp⟩
    rw [← bytes_eq_of_ofBytes hp]
    exact ⟨List.length_pos_iff.mpr p.ne_nil, p.length_le⟩
  · rintro ⟨hpos, hle⟩
    have hne : bytes ≠ [] := List.length_pos_iff.mp hpos
    exact ⟨⟨bytes, hne, hle⟩, ofBytes_bytes ⟨bytes, hne, hle⟩⟩

/-- The numbers of a row of bytes are checked like the bytes. -/
theorem ofNumbers_toNat (bytes : List Byte) :
    ofNumbers (bytes.map fun b => (b.toNat : Int)) = ofBytes bytes := by
  unfold ofNumbers
  rw [mapM_byteOfNumber?_eq_some_iff.mpr rfl]

/-- Numbers are those of bytes if they lie between 0 and 255. -/
theorem exists_eq_map_toNat_iff {numbers : List Int} :
    (∃ bytes : List Byte, numbers = bytes.map fun b => (b.toNat : Int)) ↔
      ∀ v ∈ numbers, 0 ≤ v ∧ v ≤ 255 := by
  constructor
  · rintro ⟨bytes, rfl⟩ v hv
    obtain ⟨b, -, rfl⟩ := List.mem_map.mp hv
    have hlt := b.isLt
    omega
  · intro hrange
    have hsame : ∀ v ∈ numbers, v = ((BitVec.ofInt 8 v).toNat : Int) := by
      intro v hv
      obtain ⟨hpos, hle⟩ := hrange v hv
      rw [BitVec.toNat_ofInt]
      omega
    refine ⟨numbers.map (BitVec.ofInt 8), ?_⟩
    rw [List.map_map]
    exact (List.map_id numbers).symm.trans (List.map_congr_left hsame)

/-- A row of numbers is a program if each of them is a byte and they are neither none nor more than
there is room for. -/
theorem exists_ofNumbers_eq_ok_iff {numbers : List Int} :
    (∃ p, ofNumbers numbers = .ok p) ↔
      (∀ v ∈ numbers, 0 ≤ v ∧ v ≤ 255) ∧ 1 ≤ numbers.length ∧ numbers.length ≤ 3584 := by
  rw [← exists_eq_map_toNat_iff]
  constructor
  · rintro ⟨p, hp⟩
    obtain rfl := ofNumbers_eq_ok_iff.mp hp
    rw [List.length_map]
    exact ⟨⟨p.bytes, rfl⟩, exists_ofBytes_eq_ok_iff.mp ⟨p, ofBytes_bytes p⟩⟩
  · rintro ⟨⟨bytes, rfl⟩, hlength⟩
    rw [List.length_map] at hlength
    rw [ofNumbers_toNat]
    exact exists_ofBytes_eq_ok_iff.mpr hlength

end Program

namespace Memory

/-- A cell of the window of a program holds the byte at its place, and any other cell what it held
before. -/
theorem get_withProgram (m : Memory) (p : Program) (a : Addr) :
    (m.withProgram p).get a =
      (if 0x200 ≤ a.toNat then p.bytes[a.toNat - 0x200]? else none).getD (m.get a) := by
  have hlength : p.bytes.length ≤ 3584 := p.length_le
  have ha := a.isLt
  have hoffset : (a - programStart).toNat = (a.toNat + 3584) % 4096 := by
    rw [BitVec.toNat_sub, show programStart.toNat = 0x200 from rfl]
    omega
  rw [withProgram, Bank.get_writeAll _ _ _ _ (Nat.le_trans hlength (by decide)), hoffset]
  split
  · rw [show (a.toNat + 3584) % 4096 = a.toNat - 0x200 by omega]
  · rw [List.getElem?_eq_none (by omega)]

/-- The window of a program holds its bytes. -/
theorem readAt_withProgram (m : Memory) (p : Program) {i : Nat} (hi : i < p.size) :
    p.bytes[i]? = some ((m.withProgram p).readAt (0x200 + i)) := by
  have hlength : p.size ≤ 3584 := p.length_le
  have haddr : (BitVec.ofInt 12 (0x200 + (i : Int))).toNat = 0x200 + i := by
    rw [BitVec.toNat_ofInt]
    omega
  rw [readAt, get_withProgram, haddr, if_pos (Nat.le_add_right ..), Nat.add_sub_cancel_left,
    List.getElem?_eq_getElem hi]
  rfl

/-- Outside the window of a program the memory is as before. -/
theorem get_withProgram_of_outside (m : Memory) (p : Program) {a : Addr}
    (ha : ∀ i < p.size, a.toNat ≠ 0x200 + i) : (m.withProgram p).get a = m.get a := by
  rw [get_withProgram]
  split
  · rename_i hstart
    have hout : p.size ≤ a.toNat - 0x200 := by
      refine Nat.le_of_not_lt fun hlt => ha _ hlt ?_
      omega
    rw [List.getElem?_eq_none hout]
    rfl
  · rfl

end Memory

/-- A program file is read if its path can be opened at all and the file is handed over and not
empty. -/
theorem Rom.read_eq_ok_iff {files : FileSystem} {path : String} {bytes : List Byte} :
    Rom.read files path = .ok bytes ↔
      Char.ofNat 0 ∉ path.toList ∧ files (Path.ofText path) = .ok bytes ∧ bytes ≠ [] := by
  unfold Rom.read
  by_cases hnul : Char.ofNat 0 ∈ path.toList
  · rw [if_pos (List.contains_iff_mem.mpr hnul)]
    exact iff_of_false (by rintro ⟨⟩) fun h => h.1 hnul
  · rw [if_neg fun h => hnul (List.contains_iff_mem.mp h)]
    simp only [hnul, not_false_eq_true, true_and]
    cases hfile : files (Path.ofText path) with
    | error e => exact iff_of_false (by rintro ⟨⟩) fun h => by cases h.1
    | ok contents =>
      cases contents with
      | nil =>
        refine iff_of_false (by rintro ⟨⟩) ?_
        rintro ⟨⟨⟩, hne⟩
        exact hne rfl
      | cons b contents =>
        simp only [Except.ok.injEq, iff_self_and]
        rintro rfl ⟨⟩

namespace Machine

variable {w h : Nat} {τ : Type}

/-- Loading numbers succeeds if they are a program. -/
theorem loadNumbers_error_eq_none_iff (m : Machine w h τ) (numbers : List Int) :
    (m.loadNumbers numbers).error = none ↔ ∃ p, Program.ofNumbers numbers = .ok p := by
  unfold loadNumbers
  cases Program.ofNumbers numbers with
  | error e => exact iff_of_false (by rintro ⟨⟩) (by rintro ⟨_, ⟨⟩⟩)
  | ok p => exact iff_of_true rfl ⟨p, rfl⟩

/-- Numbers that are not loaded leave the machine as it was. -/
theorem loadNumbers_of_error {m : Machine w h τ} {numbers : List Int}
    (he : (m.loadNumbers numbers).error ≠ none) : (m.loadNumbers numbers).machine = m := by
  unfold loadNumbers at he ⊢
  split
  · rfl
  · rename_i p hp
    rw [hp] at he
    exact absurd rfl he

/-- Numbers that are loaded are answered with their count. They fill their window of the memory, and
nothing else changes. -/
theorem loadNumbers_of_ok (m : Machine w h τ) {numbers : List Int} {p : Program}
    (hp : Program.ofNumbers numbers = .ok p) :
    (m.loadNumbers numbers).answer = .number numbers.length ∧
      ∃ memory, (m.loadNumbers numbers).machine = { m with memory := memory } ∧
        (∀ i < numbers.length, numbers[i]? = some ((memory.readAt (0x200 + i)).toNat : Int)) ∧
        ∀ a : Addr, (∀ i < numbers.length, a.toNat ≠ 0x200 + i) →
          memory.get a = m.memory.get a := by
  have hloaded : m.loadNumbers numbers = { done (m.load p) with answer := .number p.size } := by
    simp only [loadNumbers, hp]
  obtain rfl := Program.ofNumbers_eq_ok_iff.mp hp
  rw [hloaded, List.length_map]
  refine ⟨rfl, m.memory.withProgram p, rfl, fun i hi => ?_, fun a ha => ?_⟩
  · rw [List.getElem?_map, Memory.readAt_withProgram m.memory p hi]
    rfl
  · exact Memory.get_withProgram_of_outside m.memory p ha

/-- Loading a file succeeds if the file is read and is a program. -/
theorem loadFile_error_eq_none_iff (files : FileSystem) (m : Machine w h τ) (path : String) :
    (m.loadFile files path).error = none ↔
      Char.ofNat 0 ∉ path.toList ∧ ∃ bytes, files (Path.ofText path) = .ok bytes ∧
        1 ≤ bytes.length ∧ bytes.length ≤ 3584 := by
  have hloaded : (m.loadFile files path).error = none ↔
      ∃ bytes, Rom.read files path = .ok bytes ∧ ∃ p, Program.ofBytes bytes = .ok p := by
    unfold loadFile
    cases hread : Rom.read files path with
    | error e => simp [failed, bind, Except.bind]
    | ok bytes =>
      cases hp : Program.ofBytes bytes <;> simp [failed, done, bind, Except.bind, hp]
  rw [hloaded]
  constructor
  · rintro ⟨bytes, hread, hp⟩
    obtain ⟨hnul, hfile, -⟩ := Rom.read_eq_ok_iff.mp hread
    exact ⟨hnul, bytes, hfile, Program.exists_ofBytes_eq_ok_iff.mp hp⟩
  · rintro ⟨hnul, bytes, hfile, hlength⟩
    have hne : bytes ≠ [] := List.length_pos_iff.mp hlength.1
    exact ⟨bytes, Rom.read_eq_ok_iff.mpr ⟨hnul, hfile, hne⟩,
      Program.exists_ofBytes_eq_ok_iff.mpr hlength⟩

/-- A file that is not loaded leaves the machine as it was. -/
theorem loadFile_of_error {files : FileSystem} {m : Machine w h τ} {path : String}
    (he : (m.loadFile files path).error ≠ none) : (m.loadFile files path).machine = m := by
  unfold loadFile at he ⊢
  split
  · rfl
  · rename_i p hp
    rw [hp] at he
    exact absurd rfl he

/-- Numbers are loaded exactly if each of them is a byte and there are between 1 and 3584 of them.
They are then answered with their count and lie in memory from `0x200` on, one to a cell; every
other cell and everything outside the memory is as before. A file is loaded exactly if its path can
be opened at all and it is handed over with between 1 and 3584 bytes. What is not loaded, from
numbers or from a file, leaves the whole machine as it was. -/
theorem load_all_or_nothing (m : Machine w h τ) :
    (∀ numbers : List Int,
      ((m.loadNumbers numbers).error = none ↔
        (∀ v ∈ numbers, 0 ≤ v ∧ v ≤ 255) ∧ 1 ≤ numbers.length ∧ numbers.length ≤ 3584) ∧
      ((m.loadNumbers numbers).error = none →
        (m.loadNumbers numbers).answer = .number numbers.length ∧
        ∃ memory, (m.loadNumbers numbers).machine = { m with memory := memory } ∧
          (∀ i < numbers.length, numbers[i]? = some ((memory.readAt (0x200 + i)).toNat : Int)) ∧
          ∀ a : Addr, (∀ i < numbers.length, a.toNat ≠ 0x200 + i) →
            memory.get a = m.memory.get a) ∧
      ((m.loadNumbers numbers).error ≠ none → (m.loadNumbers numbers).machine = m)) ∧
    ∀ (files : FileSystem) (path : String),
      ((m.loadFile files path).error = none ↔
        Char.ofNat 0 ∉ path.toList ∧ ∃ bytes, files (Path.ofText path) = .ok bytes ∧
          1 ≤ bytes.length ∧ bytes.length ≤ 3584) ∧
      ((m.loadFile files path).error ≠ none → (m.loadFile files path).machine = m) := by
  refine ⟨fun numbers => ⟨?_, fun he => ?_, loadNumbers_of_error⟩, fun files path =>
    ⟨loadFile_error_eq_none_iff files m path, loadFile_of_error⟩⟩
  · rw [loadNumbers_error_eq_none_iff]
    exact Program.exists_ofNumbers_eq_ok_iff
  · obtain ⟨p, hp⟩ := (m.loadNumbers_error_eq_none_iff numbers).mp he
    exact m.loadNumbers_of_ok hp

/-- A machine with a program of four bytes. The longest program that fits fills the memory up to its
last cell, and one byte more, or a number that is no byte, changes nothing. A shorter program leaves
the end of the old one behind. -/
theorem load_all_or_nothing_at_boundary :
    let env : Environment := ⟨fun _ => 0, fun _ => .error .notFound⟩
    let m : Machine 64 32 Tone :=
      (Machine.powerOn (.dark 64 32) 10).performAll env [.loadNumbers [1, 2, 3, 4]]
    let full : List Int := List.replicate 3584 7
    ((m.loadNumbers full).error = none ∧
      (m.loadNumbers full).machine.memory.readAt 0xFFF = 7) ∧
    (m.loadNumbers (7 :: full)).machine = m ∧
    ((m.loadNumbers [9, 256]).error = some (.badValue .notByte) ∧
      (m.loadNumbers [9, 256]).machine = m) ∧
    ((m.loadNumbers [9, 8]).answer = .number 2 ∧
      (m.loadNumbers [9, 8]).machine.memory.readAt 0x201 = 8 ∧
      (m.loadNumbers [9, 8]).machine.memory.readAt 0x202 = 3) ∧
    (m.loadFile env.files "game").machine = m := by
  intro env m full
  obtain ⟨hnumbers, hfile⟩ := m.load_all_or_nothing
  have hlength : full.length = 3584 := List.length_replicate
  have hfull : (m.loadNumbers full).error = none := by
    refine (hnumbers full).1.mpr ⟨fun v hv => ?_, by omega, by omega⟩
    rw [List.eq_of_mem_replicate hv]
    decide
  have hlast : (m.loadNumbers full).machine.memory.readAt 0xFFF = 7 := by
    obtain ⟨-, memory, hmachine, hbytes, -⟩ := (hnumbers full).2.1 hfull
    have hbyte := hbytes 3583 (by omega)
    rw [List.getElem?_replicate_of_lt (by decide)] at hbyte
    rw [hmachine]
    exact BitVec.eq_of_toNat_eq (Int.ofNat.inj (Option.some.inj hbyte)).symm
  have hlonger : (m.loadNumbers (7 :: full)).error ≠ none := by
    intro he
    have hle := ((hnumbers (7 :: full)).1.mp he).2.2
    rw [List.length_cons, hlength] at hle
    omega
  have hshort : (m.loadNumbers [9, 8]).error = none := by
    rw [(hnumbers [9, 8]).1]
    decide
  obtain ⟨hanswer, memory, hmachine, hbytes, hrest⟩ := (hnumbers [9, 8]).2.1 hshort
  have hbehind : memory.readAt 0x202 = m.memory.readAt 0x202 := hrest 0x202 (by decide)
  refine ⟨⟨hfull, hlast⟩, (hnumbers _).2.2 hlonger,
    ⟨rfl, (hnumbers [9, 256]).2.2 (by rintro ⟨⟩)⟩, ⟨hanswer, ?_, ?_⟩,
    (hfile env.files "game").2 (by rintro ⟨⟩)⟩
  · rw [hmachine]
    exact BitVec.eq_of_toNat_eq (Int.ofNat.inj (Option.some.inj (hbytes 1 (by decide)))).symm
  · rw [hmachine]
    exact hbehind.trans (by decide +kernel)

end Machine

end Chip8
