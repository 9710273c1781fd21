import Chip8.Proofs.Sprites
import Chip8.Proofs.Step

/-!
# Drawing sprites

Drawing never fails on a screen with pixels and, apart from the program counter, changes pixels and
the collision flag only (`Machine.step_draw`). On a standard screen it flips just the pixels that a
set bit of the sprite falls on, and the flag tells whether one of these was lit before
(`Machine.draw_flips_sprite`). On a screen of any other size several bits may fall on one pixel,
which is flipped then if they are odd in number. So drawing the same sprites twice restores the
pixels, and the order of sprites does not matter (`Machine.draws_cancel_and_commute`).
-/

namespace Chip8

/-- A cell counted from where a word points to. -/
theorem Memory.readAt_add (m : Memory) (i : Word) (k : Nat) :
    m.readAt (i.toNat + k) = m.get (i.addr + BitVec.ofNat 12 k) := by
  rw [readAt, BitVec.ofInt_add]
  rfl

namespace Machine

variable {w h : Nat} {τ : Type}

/-- The sprite at the index register with the corner that two registers give. -/
def sprite (m : Machine w h τ) (x y n : Nibble) : PlacedSprite :=
  ⟨m.reg x, m.reg y, m.memory.read m.cpu.i.addr n.toNat⟩

/-- The set bits of the sprite at the index register. -/
theorem mem_bits_sprite_iff (m : Machine w h τ) (x y n : Nibble) {r c : Nat} :
    (r, c) ∈ Sprite.bits (m.sprite x y n).rows ↔
      r < n.toNat ∧ c < 8 ∧ m.memory.readAt (m.cpu.i.toNat + r) &&& (0x80#8 >>> c) ≠ 0 := by
  rw [Sprite.mem_bits, Memory.readAt_add, Byte.and_mask_ne_zero_iff, sprite, Bank.getElem?_read]
  constructor
  · rintro ⟨row, hrow, hc⟩
    split at hrow
    · rename_i hr
      obtain rfl := Option.some.inj hrow
      exact ⟨hr, BitVec.lt_of_getMsbD hc, hc⟩
    · cases hrow
  · rintro ⟨hr, -, hc⟩
    exact ⟨_, if_pos hr, hc⟩

/-- Drawing on a screen with pixels succeeds. It toggles the points of the sprite, puts the
collision in `VF` and moves past the instruction. -/
theorem step_draw (hw : 0 < w) (hh : 0 < h) {m : Machine w h τ} {x y n : Nibble}
    (hword : m.fetch = 0xD#4 ++ x ++ y ++ n) (random : Nat → Int) :
    let drawn := m.screen.toggleAll (m.sprite x y n).points
    (m.step random).error = none ∧
      (m.step random).machine =
        { m with
          cpu.pc := m.cpu.pc.advance 2
          cpu.v := m.cpu.v.set 0xF (.ofBool (drawn.2.any id))
          screen := drawn.1 } := by
  have hi : Instruction.decode? m.fetch = some (.draw x y n) := by
    have hencode : m.fetch = (Instruction.draw x y n).encode := hword
    rw [hencode]
    exact Instruction.decode?_encode (by rintro ⟨⟩) (by rintro ⟨⟩)
  have hr : m.advance.refusal? (.draw x y n) = none := by
    simp [refusal?, Screen.hasPixels, hw, hh]
  simp only [step, hi, hr]
  exact ⟨rfl, rfl⟩

/-- Drawing on a standard screen. A pixel is flipped just if a set bit of the sprite falls on it,
and `VF` tells whether some flipped pixel was lit; the corner is what `Vx` and `Vy` hold before `VF`
is written. Nothing else changes but the program counter. -/
theorem draw_flips_sprite {m : Machine 64 32 τ} {x y n : Nibble}
    (hword : m.fetch = 0xD#4 ++ x ++ y ++ n) (random : Nat → Int) :
    let falls (a : Fin 64) (b : Fin 32) : Prop := ∃ r < n.toNat, ∃ c < 8,
      m.memory.readAt (m.cpu.i.toNat + r) &&& (0x80#8 >>> c) ≠ 0 ∧
        a.val = ((m.reg x).toNat + c) % 64 ∧ b.val = ((m.reg y).toNat + r) % 32
    let after := (m.step random).machine
    (m.step random).error = none ∧
    (∀ a b, after.screen.get a b ≠ m.screen.get a b ↔ falls a b) ∧
    (after.reg 0xF = 1 ∧ (∃ a b, falls a b ∧ m.screen.get a b = true) ∨
      after.reg 0xF = 0 ∧ ∀ a b, falls a b → m.screen.get a b = false) ∧
    after = { m with
      cpu.pc := m.cpu.pc.advance 2
      cpu.v := m.cpu.v.set 0xF (after.reg 0xF)
      screen.rows := after.screen.rows } := by
  intro falls after
  obtain ⟨herror, hafter⟩ := step_draw (by decide) (by decide) hword random
  have hlength : (m.sprite x y n).rows.length ≤ 32 := by
    have hn := n.isLt
    rw [sprite, Bank.length_read]
    omega
  have hnodup := (m.sprite x y n).nodup_place_points hlength
  have hmet : ∀ a b, (a, b) ∈ (m.sprite x y n).points.map (Screen.place (by decide) (by decide)) ↔
      falls a b := by
    intro a b
    simp only [PlacedSprite.mem_place_points_iff, mem_bits_sprite_iff, Nat.mod_mod]
    constructor
    · rintro ⟨r, c, ⟨hr, hc, hbit⟩, ha, hb⟩
      exact ⟨r, hr, c, hc, hbit, ha.symm, hb.symm⟩
    · rintro ⟨r, hr, c, hc, hbit, ha, hb⟩
      exact ⟨r, c, ⟨hr, hc, hbit⟩, ha.symm, hb.symm⟩
  have hcollision := Screen.any_toggleAll_iff _ _ m.screen hnodup
  simp only [hmet] at hcollision
  have hflag : after.reg 0xF =
      .ofBool ((m.screen.toggleAll (m.sprite x y n).points).2.any id) := by
    simp only [after, hafter, reg, Bank.get_set_self]
  obtain ⟨hdraw, hframes⟩ := m.screen.marks_toggleAll (m.sprite x y n).points
  refine ⟨herror, fun a b => ?_, ?_, ?_⟩
  · rw [← hmet, ← Screen.get_toggleAll_ne_iff _ _ m.screen hnodup]
    simp only [after, hafter]
  · cases hany : (m.screen.toggleAll (m.sprite x y n).points).2.any id with
    | true => exact .inl ⟨by rw [hflag, hany]; rfl, hcollision.mp hany⟩
    | false =>
      refine .inr ⟨by rw [hflag, hany]; rfl, fun a b hfalls => ?_⟩
      rw [← Bool.not_eq_true]
      intro hlit
      rw [hcollision.mpr ⟨a, b, hfalls, hlit⟩] at hany
      cases hany
  · rw [hflag]
    simp only [after, hafter]
    rw [← hdraw, ← hframes]

/-- A sprite that lies across the end of memory is drawn across the right and the lower edge for the
second time: the pixel at the upper left goes dark again, and the flag tells so. -/
theorem draw_flips_sprite_over_edges :
    let random : Nat → Int := fun _ => 0
    let m : Machine 64 32 Tone := (Machine.powerOn (.dark 64 32) 10).performAll
      ⟨random, fun _ => .error .notFound⟩
      [.loadNumbers [0x60, 0x3E, 0x61, 0x1F, 0xAF, 0xFF, 0xD0, 0x13, 0xD0, 0x13],
        .step, .step, .step, .step]
    m.fetch = 0xD#4 ++ 0x0#4 ++ 0x1#4 ++ 0x3#4 ∧ m.reg 0xF = 0 ∧ m.screen.get 0 0 = true ∧
      (m.step random).machine.screen.get 0 0 = false ∧ (m.step random).machine.reg 0xF = 1 := by
  intro random m
  obtain ⟨hword, hflag₀, hlit⟩ : m.fetch = 0xD#4 ++ 0x0#4 ++ 0x1#4 ++ 0x3#4 ∧ m.reg 0xF = 0 ∧
      m.screen.get 0 0 = true := by
    decide +kernel
  have hbit : m.memory.readAt (m.cpu.i.toNat + 1) &&& (0x80#8 >>> 2) ≠ 0 ∧
      (0 : Fin 64).val = ((m.reg 0x0).toNat + 2) % 64 ∧
      (0 : Fin 32).val = ((m.reg 0x1).toNat + 1) % 32 := by
    decide +kernel
  obtain ⟨-, hflips, hflag, -⟩ := draw_flips_sprite hword random
  have hfalls : ∃ r < (0x3 : Nibble).toNat, ∃ c < 8,
      m.memory.readAt (m.cpu.i.toNat + r) &&& (0x80#8 >>> c) ≠ 0 ∧
        (0 : Fin 64).val = ((m.reg 0x0).toNat + c) % 64 ∧
        (0 : Fin 32).val = ((m.reg 0x1).toNat + r) % 32 :=
    ⟨1, by decide, 2, by decide, hbit⟩
  refine ⟨hword, hflag₀, hlit, ?_, ?_⟩
  · have hne := (hflips 0 0).mpr hfalls
    rw [hlit] at hne
    exact Bool.eq_false_iff.mpr hne
  · rcases hflag with ⟨hone, -⟩ | ⟨-, hdark⟩
    · exact hone
    · have hcontra := hdark 0 0 hfalls
      rw [hlit] at hcontra
      cases hcontra

/-- The instruction at the program counter draws this sprite. -/
def Draws (m : Machine w h τ) (d : PlacedSprite) : Prop :=
  ∃ x y n : Nibble, m.fetch = 0xD#4 ++ x ++ y ++ n ∧ m.sprite x y n = d

/-- A drawn sprite flips the pixels that an odd number of its set bits falls on. -/
theorem Draws.get_step {m : Machine w h τ} {d : PlacedSprite} (hm : m.Draws d) (hw : 0 < w)
    (hh : 0 < h) (random : Nat → Int) (a : Fin w) (b : Fin h) :
    (m.step random).machine.screen.get a b =
      (m.screen.get a b ^^ decide (Odd (d.hits w h a b))) := by
  obtain ⟨x, y, n, hword, rfl⟩ := hm
  rw [(step_draw hw hh hword random).2, ← PlacedSprite.count_place_points hw hh]
  exact Screen.get_toggleAll hw hh m.screen _ a b

/-- Sprites drawn one after the other, from the pixels of one screen to those of another. Each is
drawn on the pixels that the one before it has left; anything else may change in between. -/
inductive Drawn : Screen w h → List PlacedSprite → Screen w h → Prop where
  | nil {s t : Screen w h} (hrows : s.rows = t.rows) : Drawn s [] t
  | cons {s t : Screen w h} {τ : Type} {m : Machine w h τ} {d : PlacedSprite}
      {ds : List PlacedSprite} (hrows : s.rows = m.screen.rows) (hm : m.Draws d)
      (random : Nat → Int) (rest : Drawn (m.step random).machine.screen ds t) : Drawn s (d :: ds) t

/-- Sprites drawn one after the other flip the pixels that an odd number of all their set bits falls
on. -/
theorem Drawn.get_eq {s t : Screen w h} {ds : List PlacedSprite} (hdrawn : Drawn s ds t)
    (hw : 0 < w) (hh : 0 < h) (a : Fin w) (b : Fin h) :
    t.get a b = (s.get a b ^^ decide (Odd (PlacedSprite.totalHits w h a b ds))) := by
  induction hdrawn with
  | nil hrows => simp [PlacedSprite.totalHits, Screen.get, hrows]
  | @cons s t _ m d ds hrows hm random _ ih =>
    have hstart : m.screen.get a b = s.get a b := by rw [Screen.get, ← hrows, Screen.get]
    rw [ih, hm.get_step hw hh, hstart, Bool.xor_assoc, PlacedSprite.totalHits, decide_odd_add]

/-- Drawing on a screen of any size. A sprite flips the pixels that an odd number of its set bits
falls on, and so do several sprites together. Hence drawing the same sprites twice restores every
pixel, and drawing them in another order leaves the same pixels. -/
theorem draws_cancel_and_commute (hw : 0 < w) (hh : 0 < h) :
    (∀ (m : Machine w h τ) d random, m.Draws d → (m.step random).error = none ∧
      ∀ a b, (m.step random).machine.screen.get a b =
        (m.screen.get a b ^^ decide (Odd (d.hits w h a b)))) ∧
    (∀ (s t : Screen w h) ds, Drawn s ds t →
      ∀ a b, t.get a b = (s.get a b ^^ decide (Odd (PlacedSprite.totalHits w h a b ds)))) ∧
    (∀ (s t : Screen w h) ds, Drawn s (ds ++ ds) t → t.rows = s.rows) ∧
    (∀ (s t t' : Screen w h) ds ds', ds.Perm ds' → Drawn s ds t → Drawn s ds' t' →
      t.rows = t'.rows) := by
  refine ⟨fun m d random hm => ⟨?_, hm.get_step hw hh random⟩,
    fun s t ds hdrawn => hdrawn.get_eq hw hh, fun s t ds hdrawn => ?_,
    fun s t t' ds ds' hperm hdrawn hdrawn' => ?_⟩
  · obtain ⟨x, y, n, hword, -⟩ := hm
    exact (step_draw hw hh hword random).1
  · apply Screen.rows_eq_of_get_eq
    intro a b
    rw [hdrawn.get_eq hw hh, PlacedSprite.totalHits_append, decide_odd_add, Bool.xor_self,
      Bool.xor_false]
  · apply Screen.rows_eq_of_get_eq
    intro a b
    rw [hdrawn.get_eq hw hh, hdrawn'.get_eq hw hh, PlacedSprite.totalHits_perm w h a b hperm]

/-- On a screen of five by three pixels both glyphs fold onto themselves: two bits of the first meet
the pixel at the upper left. Drawing them in either order leaves the same pixels, and a second
drawing of the first restores what was there. -/
theorem glyphs_cancel_and_commute_on_small_screen :
    let random : Nat → Int := fun _ => 0
    let env : Environment := ⟨random, fun _ => .error .notFound⟩
    let start : Machine 5 3 Tone := .powerOn (.dark 5 3) 10
    let zero : PlacedSprite := ⟨0, 0, [0xF0, 0x90, 0x90, 0x90, 0xF0]⟩
    let one : PlacedSprite := ⟨0, 0, [0x20, 0x60, 0x20, 0x20, 0x70]⟩
    let zeroOne := start.performAll env
      [.loadNumbers [0xD0, 0x15, 0xA0, 0x05, 0xD0, 0x15], .step, .step, .step]
    let oneZero := start.performAll env
      [.loadNumbers [0xA0, 0x05, 0xD0, 0x15, 0xA0, 0x00, 0xD0, 0x15], .step, .step, .step, .step]
    let zeroTwice := start.performAll env [.loadNumbers [0xD0, 0x15, 0xD0, 0x15], .step, .step]
    0 < 5 ∧ 0 < 3 ∧ zero.hits 5 3 0 0 = 2 ∧
      Drawn start.screen [zero, one] zeroOne.screen ∧
      Drawn start.screen [one, zero] oneZero.screen ∧
      Drawn start.screen ([zero] ++ [zero]) zeroTwice.screen ∧
      zeroOne.screen.rows = oneZero.screen.rows ∧ zeroTwice.screen.rows = start.screen.rows := by
  intro random env start zero one zeroOne oneZero zeroTwice
  have hrun : ∀ (m m' : Machine 5 3 Tone) {d d' : PlacedSprite} {t : Screen 5 3},
      (start.screen.rows = m.screen.rows ∧ m.fetch = 0xD015 ∧ m.sprite 0x0 0x1 0x5 = d) ∧
      ((m.step random).machine.screen.rows = m'.screen.rows ∧ m'.fetch = 0xD015 ∧
        m'.sprite 0x0 0x1 0x5 = d') ∧
      (m'.step random).machine.screen.rows = t.rows → Drawn start.screen [d, d'] t := by
    rintro m m' d d' t ⟨⟨hstart, hword, hsprite⟩, ⟨hnext, hword', hsprite'⟩, hend⟩
    exact .cons hstart ⟨0x0, 0x1, 0x5, hword, hsprite⟩ random
      (.cons hnext ⟨0x0, 0x1, 0x5, hword', hsprite'⟩ random (.nil hend))
  have hzeroOne : Drawn start.screen [zero, one] zeroOne.screen :=
    hrun (start.performAll env [.loadNumbers [0xD0, 0x15, 0xA0, 0x05, 0xD0, 0x15]])
      (start.performAll env [.loadNumbers [0xD0, 0x15, 0xA0, 0x05, 0xD0, 0x15], .step, .step])
      (by decide +kernel)
  have honeZero : Drawn start.screen [one, zero] oneZero.screen :=
    hrun (start.performAll env
        [.loadNumbers [0xA0, 0x05, 0xD0, 0x15, 0xA0, 0x00, 0xD0, 0x15], .step])
      (start.performAll env
        [.loadNumbers [0xA0, 0x05, 0xD0, 0x15, 0xA0, 0x00, 0xD0, 0x15], .step, .step, .step])
      (by decide +kernel)
  have hzeroTwice : Drawn start.screen ([zero] ++ [zero]) zeroTwice.screen :=
    hrun (start.performAll env [.loadNumbers [0xD0, 0x15, 0xD0, 0x15]])
      (start.performAll env [.loadNumbers [0xD0, 0x15, 0xD0, 0x15], .step])
      (by decide +kernel)
  have hw : 0 < 5 := by decide
  have hh : 0 < 3 := by decide
  obtain ⟨-, -, hcancel, hcommute⟩ := draws_cancel_and_commute (τ := Tone) hw hh
  exact ⟨hw, hh, by decide +kernel, hzeroOne, honeZero, hzeroTwice,
    hcommute _ _ _ _ _ (.swap one zero []) hzeroOne honeZero, hcancel _ _ [zero] hzeroTwice⟩

end Machine

end Chip8
