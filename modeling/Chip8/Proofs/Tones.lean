import Chip8.Tone
import Mathlib.Data.List.Induction

/-!
# The two tone generators

Asked for tones and for silence in any order, the player is alive exactly while the silent generator
plays, and it repeats the frequency that this one remembers: the first one asked for since silence
was. What the player has the host do is made of whole blocks, of which every other one creates a
player and the ones between give it up (`PlayerTrace`). So the host never has two players alive, not
even within a block, and gives up none of them twice (`ToneGenerator.generators_agree`).
-/

namespace Chip8

/-- Something asked of a tone generator. -/
inductive ToneRequest where
  | start (frequency : Int)
  | stop
  deriving DecidableEq, Repr

/-- The frequencies asked for since silence was, the earliest first. -/
def sinceSilence (requests : List ToneRequest) : List Int :=
  requests.foldl
    (fun frequencies request =>
      match request with
      | .start f => frequencies ++ [f]
      | .stop => [])
    []

theorem sinceSilence_start (requests : List ToneRequest) (f : Int) :
    sinceSilence (requests ++ [.start f]) = sinceSilence requests ++ [f] := by
  rw [sinceSilence, List.foldl_append]
  rfl

theorem sinceSilence_stop (requests : List ToneRequest) :
    sinceSilence (requests ++ [.stop]) = [] := by
  rw [sinceSilence, List.foldl_append]
  rfl

/-- The signal comes with a new player. -/
def Signal.isQueued : Signal → Bool
  | queued _ => true
  | _ => false

/-- Traces in which players are created and given up by turns, and the frequency of the player that
is alive at the end. -/
inductive PlayerTrace : List Signal → Option Int → Prop where
  | empty : PlayerTrace [] none
  | created {trace : List Signal} (htrace : PlayerTrace trace none) (f : Int) :
      PlayerTrace (trace ++ [.queued f, .looped, .played]) (some f)
  | givenUp {trace : List Signal} {f : Int} (htrace : PlayerTrace trace (some f)) :
      PlayerTrace (trace ++ [.paused, .deleted]) none

/-- A player that the host has created. -/
structure HostPlayer where
  /-- The frequency of the wave that was queued. -/
  frequency : Int
  /-- How often the player was given up. -/
  deletions : Nat
  deriving DecidableEq, Repr

namespace HostPlayer

/-- The player was never given up. -/
def isAlive (p : HostPlayer) : Bool := p.deletions == 0

/-- The players after one more signal, which is for the latest of them if it creates none. -/
def hear (players : List HostPlayer) : Signal → List HostPlayer
  | .queued f => ⟨f, 0⟩ :: players
  | .deleted => players.modifyHead fun p => { p with deletions := p.deletions + 1 }
  | _ => players

/-- The players that a trace has created, the latest first. -/
def ofTrace (trace : List Signal) : List HostPlayer := trace.foldl hear []

/-- No players but the latest are alive, and each of them was given up once. -/
def Orderly (players : List HostPlayer) (wave : Option Int) : Prop :=
  ∃ gone : List HostPlayer, (∀ p ∈ gone, p.deletions = 1) ∧
    players = (wave.map fun f => ⟨f, 0⟩).toList ++ gone

theorem ofTrace_concat (trace : List Signal) (s : Signal) :
    ofTrace (trace ++ [s]) = hear (ofTrace trace) s := by
  rw [ofTrace, List.foldl_append]
  rfl

/-- A player is created once the one before it was given up. -/
theorem Orderly.queued {players : List HostPlayer} (h : Orderly players none) (f : Int) :
    Orderly (hear players (.queued f)) (some f) := by
  obtain ⟨gone, hgone, hplayers⟩ := h
  exact ⟨gone, hgone, congrArg (hear · (.queued f)) hplayers⟩

/-- The player that is alive is given up. -/
theorem Orderly.deleted {players : List HostPlayer} {f : Int} (h : Orderly players (some f)) :
    Orderly (hear players .deleted) none := by
  obtain ⟨gone, hgone, rfl⟩ := h
  refine ⟨⟨f, 1⟩ :: gone, ?_, rfl⟩
  intro p hp
  rcases List.mem_cons.mp hp with rfl | hp
  · rfl
  · exact hgone p hp

/-- The player of the wave is the one that is alive, and none was given up twice. -/
theorem Orderly.alive {players : List HostPlayer} {wave : Option Int}
    (h : Orderly players wave) :
    (players.filter isAlive).map frequency = wave.toList ∧ ∀ p ∈ players, p.deletions ≤ 1 := by
  obtain ⟨gone, hgone, rfl⟩ := h
  have hnone : gone.filter isAlive = [] := by
    rw [List.filter_eq_nil_iff]
    intro p hp
    simp [isAlive, hgone p hp]
  constructor
  · rw [List.filter_append, hnone, List.append_nil]
    cases wave <;> rfl
  · intro p hp
    rcases List.mem_append.mp hp with hp | hp
    · obtain ⟨f, -, rfl⟩ := Option.map_eq_some_iff.mp (Option.mem_toList.mp hp)
      exact Nat.zero_le 1
    · exact Nat.le_of_eq (hgone p hp)

end HostPlayer

namespace PlayerTrace

open HostPlayer

/-- The host has the player of the trace, and gave up all others. -/
theorem orderly {trace : List Signal} {wave : Option Int} (htrace : PlayerTrace trace wave) :
    Orderly (ofTrace trace) wave := by
  induction htrace with
  | empty => exact ⟨[], by simp, rfl⟩
  | @created trace _ f ih =>
    rw [ofTrace, List.foldl_append]
    exact ih.queued f
  | @givenUp trace f _ ih =>
    rw [ofTrace, List.foldl_append]
    exact ih.deleted

/-- Also within a block the host has at most one player, and gave up all others. -/
theorem orderly_of_prefix {trace : List Signal} {wave : Option Int}
    (htrace : PlayerTrace trace wave) {part : List Signal} (hpart : part <+: trace) :
    ∃ wave', Orderly (ofTrace part) wave' := by
  induction htrace with
  | empty =>
    obtain rfl := List.prefix_nil.mp hpart
    exact ⟨none, empty.orderly⟩
  | @created trace htrace f ih =>
    have hqueued : Orderly (ofTrace (trace ++ [.queued f])) (some f) := by
      rw [ofTrace_concat]
      exact htrace.orderly.queued f
    -- The trace may break off after any signal of the block, and only the first of them counts.
    rw [show trace ++ [.queued f, .looped, .played] =
        trace ++ [.queued f] ++ [.looped] ++ [.played] by simp] at hpart
    rcases List.prefix_concat_iff.mp hpart with rfl | hpart
    · exact ⟨some f, by rwa [ofTrace_concat, ofTrace_concat]⟩
    rcases List.prefix_concat_iff.mp hpart with rfl | hpart
    · exact ⟨some f, by rwa [ofTrace_concat]⟩
    rcases List.prefix_concat_iff.mp hpart with rfl | hpart
    · exact ⟨some f, hqueued⟩
    · exact ih hpart
  | @givenUp trace f htrace ih =>
    -- Up to its last signal the player is still alive.
    rw [show trace ++ [.paused, .deleted] = trace ++ [.paused] ++ [.deleted] by simp] at hpart
    rcases List.prefix_concat_iff.mp hpart with rfl | hpart
    · refine ⟨none, ?_⟩
      rw [ofTrace_concat, ofTrace_concat]
      exact htrace.orderly.deleted
    rcases List.prefix_concat_iff.mp hpart with rfl | hpart
    · refine ⟨some f, ?_⟩
      rw [ofTrace_concat]
      exact htrace.orderly
    · exact ih hpart

end PlayerTrace

namespace ToneGenerator

/-- What a generator becomes by a request, and the signals that it gives off. -/
def answer {τ : Type} [ToneGenerator τ] (t : τ) : ToneRequest → τ × List Signal
  | .start f => start f t
  | .stop => stop t

/-- What a silent generator becomes by a list of requests, and all signals that it gives off. -/
def answerAll (τ : Type) [ToneGenerator τ] (requests : List ToneRequest) : τ × List Signal :=
  requests.foldl (fun r request => ((answer r.1 request).1, r.2 ++ (answer r.1 request).2))
    (silent, [])

theorem answerAll_concat (τ : Type) [ToneGenerator τ] (requests : List ToneRequest)
    (request : ToneRequest) :
    answerAll τ (requests ++ [request]) =
      ((answer (answerAll τ requests).1 request).1,
        (answerAll τ requests).2 ++ (answer (answerAll τ requests).1 request).2) := by
  rw [answerAll, List.foldl_append]
  rfl

/-- After the same requests a silent generator and a player agree, and the trace of the player is
in order. -/
structure Agree (requests : List ToneRequest) (t : Tone) (p : Player) (trace : List Signal) :
    Prop where
  isSounding_eq : p.isSounding = t.playing
  wave_eq : p.wave = (sinceSilence requests).head?
  frequency_eq : t.playing = true → t.frequency = p.wave
  playerTrace : PlayerTrace trace p.wave
  starts_eq : t.starts = trace.countP Signal.isQueued

/-- A further request keeps the generators in agreement. -/
theorem Agree.answer {requests : List ToneRequest} {t : Tone} {p : Player} {trace : List Signal}
    (h : Agree requests t p trace) (request : ToneRequest) :
    Agree (requests ++ [request]) (ToneGenerator.answer t request).1
      (ToneGenerator.answer p request).1 (trace ++ (ToneGenerator.answer p request).2) := by
  obtain ⟨playing, frequency, starts⟩ := t
  obtain ⟨wave⟩ := p
  obtain ⟨hsounding, hwave, hfrequency, htrace, hstarts⟩ := h
  obtain rfl : wave.isSome = playing := hsounding
  -- A tone is answered only in silence, and silence only in a tone; else nothing is given off.
  cases request with
  | start f =>
    have hhead : wave.or (some f) = (sinceSilence (requests ++ [.start f])).head? := by
      rw [sinceSilence_start, List.head?_append, ← hwave]
      rfl
    cases wave with
    | none =>
      refine ⟨rfl, hhead, fun _ => rfl, htrace.created f, ?_⟩
      rw [List.countP_append, ← hstarts]
      rfl
    | some g =>
      have hquiet : ToneGenerator.answer (⟨some g⟩ : Player) (.start f) = (⟨some g⟩, []) := rfl
      rw [hquiet, List.append_nil]
      exact ⟨rfl, hhead, hfrequency, htrace, hstarts⟩
  | stop =>
    have hhead : none = (sinceSilence (requests ++ [.stop])).head? := by
      rw [sinceSilence_stop]
      rfl
    cases wave with
    | none =>
      have hquiet : ToneGenerator.answer (⟨none⟩ : Player) .stop = (⟨none⟩, []) := rfl
      rw [hquiet, List.append_nil]
      exact ⟨rfl, hhead, by rintro ⟨⟩, htrace, hstarts⟩
    | some g =>
      refine ⟨rfl, hhead, by rintro ⟨⟩, htrace.givenUp, ?_⟩
      rw [List.countP_append, ← hstarts]
      rfl

/-- The generators agree after any requests. -/
theorem agree (requests : List ToneRequest) :
    Agree requests (answerAll Tone requests).1 (answerAll Player requests).1
      (answerAll Player requests).2 := by
  induction requests using List.reverseRecOn with
  | nil => exact ⟨rfl, rfl, by rintro ⟨⟩, .empty, rfl⟩
  | append_singleton requests request ih =>
    rw [answerAll_concat, answerAll_concat]
    exact ih.answer request

/-- After any requests the player is alive exactly while the silent generator plays. The host has
that player and no other, and its frequency is the one that the silent generator remembers, the
first asked for since silence was. The trace is made of blocks that create a player and blocks that
give it up, by turns, and as many tones have begun as players were created. At every point of the
trace the host has at most one player that is alive, and no player was given up twice. -/
theorem generators_agree (requests : List ToneRequest) :
    let tone := (answerAll Tone requests).1
    let player := (answerAll Player requests).1
    let trace := (answerAll Player requests).2
    (player.isSounding = true ↔ tone.playing = true) ∧
    (tone.playing = true ↔ sinceSilence requests ≠ []) ∧
    (tone.playing = true → tone.frequency = (sinceSilence requests).head?) ∧
    ((HostPlayer.ofTrace trace).filter HostPlayer.isAlive).map HostPlayer.frequency =
      (if tone.playing then tone.frequency.toList else []) ∧
    PlayerTrace trace player.wave ∧
    tone.starts = trace.countP Signal.isQueued ∧
    ∀ part, part <+: trace → (HostPlayer.ofTrace part).countP HostPlayer.isAlive ≤ 1 ∧
      ∀ p ∈ HostPlayer.ofTrace part, p.deletions ≤ 1 := by
  intro tone player trace
  obtain ⟨hsounding, hwave, hfrequency, htrace, hstarts⟩ := agree requests
  refine ⟨Bool.eq_iff_iff.mp hsounding, ?_, fun hplaying => (hfrequency hplaying).trans hwave, ?_,
    htrace, hstarts, fun part hpart => ?_⟩
  · rw [← hsounding, Player.isSounding, hwave, List.isSome_head?]
  · rw [htrace.orderly.alive.1]
    split
    · rename_i hplaying
      rw [hfrequency hplaying]
    · rename_i hplaying
      rw [← hsounding, Player.isSounding, Bool.not_eq_true, Option.isSome_eq_false_iff,
        Option.isNone_iff_eq_none] at hplaying
      rw [hplaying]
      rfl
  · obtain ⟨wave, horderly⟩ := htrace.orderly_of_prefix hpart
    obtain ⟨halive, hdeletions⟩ := horderly.alive
    refine ⟨?_, hdeletions⟩
    rw [List.countP_eq_length_filter, ← List.length_map, halive]
    exact Option.length_toList_le

/-- Tones that are asked for while another lasts are ignored, and so is silence after silence: two
tones have begun, the one of the last frequency that is not ignored lasts, and after the first two
signals of the trace there is one player. -/
theorem generators_agree_on_repeats :
    let requests : List ToneRequest :=
      [.stop, .start 440, .start 880, .stop, .stop, .start 220, .start 330]
    let tone := (answerAll Tone requests).1
    let trace := (answerAll Player requests).2
    [.queued 440, .looped] <+: trace ∧ tone.playing = true ∧ tone.frequency = some 220 ∧
      tone.starts = 2 ∧
      (HostPlayer.ofTrace [.queued 440, .looped]).countP HostPlayer.isAlive ≤ 1 := by
  intro requests tone trace
  obtain ⟨-, hplaying, hfrequency, -, -, hstarts, hpart⟩ := generators_agree requests
  have hbegin : [.queued 440, .looped] <+: trace := by decide
  have hasked : tone.playing = true := hplaying.mpr (by decide)
  exact ⟨hbegin, hasked, hfrequency hasked, hstarts.trans (by decide), (hpart _ hbegin).1⟩

end ToneGenerator

end Chip8
