import TileDeck.Proofs.Recorder
import TileDeck.Proofs.Run.Visits

set_option autoImplicit false

namespace TileDeck.Presentation

variable {σ : Type} [Surface σ]

theorem kept_waits (first : Remote) :
    Stage.Kept (· ≠ .clear) fun (remote : Remote) (_ : σ) =>
      ∃ answers, Remote.Waits σ first answers remote where
  drawn _ _ _ _ h := h
  waited idle remote surface _ h := by
    obtain ⟨answers, hw⟩ := h
    exact ⟨_, hw.wait idle surface⟩

theorem kept_turns (turns : List Turn) :
    Stage.Kept (· ≠ .clear) fun (remote : Remote) (_ : σ) =>
      remote.heard ++ remote.unheard = turns ∧ remote.pad.Settled where
  drawn _ _ _ _ h := h
  waited idle remote surface _ h :=
    ⟨(Remote.heard_unheard_await idle remote surface).trans h.1,
      Remote.settled_await idle surface h.2⟩

theorem heard_run (deck : Deck) (options : Options) (script : List Buttons) (surface : σ) :
    (run deck options (.ofScript script) surface).remote.heard =
      Turn.ofSamples .released script := by
  have hu : (Remote.ofPad (.ofScript script)).heard ++ (Remote.ofPad (.ofScript script)).unheard =
      Turn.ofSamples .released script := by
    cases script with
    | nil => rfl
    | cons sample rest => rfl
  obtain ⟨hk, hs⟩ := kept_run (kept_turns (Turn.ofSamples .released script)) (fun _ _ h => h)
    deck options (.ofScript script) surface ⟨hu, Pad.settled_ofScript script⟩
  rw [Remote.unheard_eq_nil hs (finished_run deck options _ surface), List.append_nil] at hk
  exact hk

/-- No press is lost, and none is answered twice or out of order. -/
theorem waits_answer_presses (deck : Deck) (options : Options) (script : List Buttons)
    (surface : σ) :
    ∃ answers, Remote.Waits σ (.ofPad (.ofScript script)) answers
        (run deck options (.ofScript script) surface).remote ∧
      answers.reduceOption = (run deck options (.ofScript script) surface).remote.heard ∧
      answers.reduceOption = Turn.ofSamples .released script := by
  obtain ⟨answers, hw⟩ := kept_run (kept_waits (.ofPad (.ofScript script))) (fun _ _ h => h)
    deck options (.ofScript script) surface ⟨[], .start⟩
  have ha : (run deck options (.ofScript script) surface).remote.heard = answers.reduceOption := by
    rw [hw.heard]
    rfl
  exact ⟨answers, hw, ha.symm, ha.symm.trans (heard_run deck options script surface)⟩

theorem heard_visits {deck : Deck} {options : Options} {first stage : Stage σ}
    {stages : List (Stage σ)} (h : Visits deck options first stages stage) :
    first.remote.heard.length + stages.length ≤ stage.remote.heard.length ∧
      (deck.Pauseless →
        stage.remote.heard.length = first.remote.heard.length + stages.length) := by
  induction h with
  | start => exact ⟨Nat.le_refl _, fun _ => rfl⟩
  | @turn stages stage _ _ turned ih =>
    obtain ⟨pauses, hh, hz⟩ := hears_cycle deck options stage
    obtain ⟨turn, ht⟩ := Option.isSome_iff_exists.1 turned
    have hl := congrArg List.length hh.heard
    rw [ht] at hl
    simp only [List.length_append, List.length_replicate, Option.toList_some,
      List.length_singleton] at hl
    rw [List.length_append, List.length_singleton]
    refine ⟨by omega, fun hd => ?_⟩
    have hp := hz hd
    have hs := ih.2 hd
    omega

theorem clears_cycle (deck : Deck) (options : Options) (stage : Stage Recorder) :
    (cycle deck options stage).2.surface.clears = stage.surface.clears + 1 := by
  refine kept_cycle (Recorder.kept_clears (stage.surface.clears + 1)) deck options stage ?_
  rw [Recorder.clears_perform]
  rfl

theorem clears_visits {deck : Deck} {options : Options} {first stage : Stage Recorder}
    {stages : List (Stage Recorder)} (h : Visits deck options first stages stage) :
    stage.surface.clears = first.surface.clears + stages.length := by
  induction h with
  | start => rfl
  | turn _ _ _ ih => rw [clears_cycle, ih, List.length_append, List.length_singleton, Nat.add_assoc]

theorem frames_run (deck : Deck) (options : Options) (script : List Buttons) :
    (run deck options (.ofScript script) Recorder.fresh).surface.frames =
      script.length + (run deck options (.ofScript script) Recorder.fresh).surface.slept := by
  have hi : (Pad.ofScript script).remaining + Recorder.fresh.frames =
      script.length + Recorder.fresh.slept := by
    cases script with
    | nil => rfl
    | cons sample rest => rfl
  have hk := kept_run (Recorder.kept_frames script.length)
    (fun remote r h => by
      rw [Recorder.frames_perform, Recorder.slept_perform]
      omega) deck options (.ofScript script) Recorder.fresh hi
  have hr : (run deck options (.ofScript script) Recorder.fresh).remote.pad.remaining = 0 := by
    rw [Pad.remaining, if_pos (finished_run deck options _ _)]
  rw [hr, Nat.zero_add] at hk
  exact hk

/-- A run ends with the cycle that hears no turn any more; the cycles before it gave one each. -/
theorem run_ends (deck : Deck) (options : Options) (sample : Buttons) (rest : List Buttons) :
    let script := sample :: rest
    let final := run deck options (.ofScript script) Recorder.fresh
    (∃ stages last,
      Visits deck options (opening deck options (.ofScript script) Recorder.fresh)
        stages last ∧
      cycle deck options last = (none, final) ∧ final.surface.clears = stages.length + 1) ∧
    final.surface.frames = script.length + final.surface.slept ∧
    final.surface.clears ≤ 1 + (Turn.ofSamples .released script).length ∧
    (deck.Pauseless → final.surface.clears = 1 + (Turn.ofSamples .released script).length) := by
  intro script final
  obtain ⟨stages, last, hv, _, hc⟩ := run_visits deck options Recorder.fresh
    (Pad.settled_ofScript script) rfl
  have hclears : final.surface.clears = stages.length + 1 := by
    have hl := clears_cycle deck options last
    have hf : (opening deck options (.ofScript script) Recorder.fresh).surface.clears = 0 :=
      rfl
    rw [hc, clears_visits hv, hf, Nat.zero_add] at hl
    exact hl
  -- the last cycle may hear turns forward in its pauses, but gives none itself
  obtain ⟨pauses, hh, hz⟩ := hears_cycle deck options last
  obtain ⟨hle, heq⟩ := heard_visits hv
  have hlast := congrArg List.length hh.heard
  have hfirst : (opening deck options (.ofScript script) Recorder.fresh).remote.heard.length =
      0 := rfl
  rw [hc, heard_run] at hlast
  simp only [List.length_append, List.length_replicate, Option.toList_none, List.length_nil] at hlast
  refine ⟨⟨stages, last, hv, hc, hclears⟩, frames_run deck options script, by omega, fun hd => ?_⟩
  have hp := hz hd
  have hn := heq hd
  omega

theorem run_two_pages :
    let deck := Deck.parse "title: a\n---\ntitle: b"
    let press : Buttons := { Buttons.released with start := true }
    deck.Pauseless ∧
      (run deck .standard (.ofScript [press, .released, press]) Recorder.fresh).surface.clears =
        3 := by
  intro deck press
  have hd : deck.Pauseless := by
    unfold Deck.Pauseless
    decide
  obtain ⟨_, _, _, heq⟩ := run_ends deck .standard press [.released, press]
  exact ⟨hd, heq hd⟩

end TileDeck.Presentation
