import TileDeck.Presentation
import TileDeck.Proofs.Page.Lines

set_option autoImplicit false

/-!
# Visits

A presentation goes from one cycle to the next until the pad asks to stop. What holds of the first
stage and of every cycle holds of the whole run; a pad that has a sample at all asks to stop while
the last page is shown, never between two pages.
-/
namespace TileDeck

def Deck.Pauseless (deck : Deck) : Prop :=
  ∀ page ∈ deck.pages, ∀ line ∈ Page.scriptLines page.text,
    Markup.Line.command? line ≠ some .pause

namespace Presentation

variable {σ : Type} [Surface σ]

def opening (deck : Deck) (options : Options) (pad : Pad) (surface : σ) : Stage σ :=
  start (.ready options deck.size pad surface)

/-- A run from `first` on that has come to the begin of a cycle; each cycle before it began with one
of the stages and gave a turn. -/
inductive Visits (deck : Deck) (options : Options) (first : Stage σ) :
    List (Stage σ) → Stage σ → Prop
  | start : Visits deck options first [] first
  | turn {stages : List (Stage σ)} {stage : Stage σ} (before : Visits deck options first stages stage)
      (going : stage.remote.pad.finished = false) (turned : (cycle deck options stage).1.isSome) :
      Visits deck options first (stages ++ [stage]) (cycle deck options stage).2

def cycles (deck : Deck) (options : Options) : Nat → Stage σ → Stage σ
  | 0, stage => stage
  | n + 1, stage => (cycle deck options (cycles deck options n stage)).2

def visited (deck : Deck) (options : Options) (stage : Stage σ) : List (Stage σ) :=
  if stage.remote.pad.finished then []
  else if _h : (cycle deck options stage).1.isSome then
    stage :: visited deck options (cycle deck options stage).2
  else [stage]
termination_by stage.remote.pending
decreasing_by exact pending_cycle deck options stage _h

section
variable {deck : Deck} {options : Options} {stage : Stage σ}

theorem visited_of_finished (hf : stage.remote.pad.finished = true) :
    visited deck options stage = [] := by
  rw [visited, if_pos hf]

theorem visited_of_turned (hf : stage.remote.pad.finished = false)
    (ht : (cycle deck options stage).1.isSome) :
    visited deck options stage = stage :: visited deck options (cycle deck options stage).2 := by
  rw [visited, if_neg (by simp [hf]), dif_pos ht]

theorem visited_of_ended (hf : stage.remote.pad.finished = false)
    (hn : (cycle deck options stage).1 = none) : visited deck options stage = [stage] := by
  rw [visited, if_neg (by simp [hf]), dif_neg (by simp [hn])]

end

omit [Surface σ] in
theorem mem_pages_of_currentPage? {deck : Deck} {stage : Stage σ} {page : Page}
    (h : currentPage? deck stage = some page) : page ∈ deck.pages := by
  obtain ⟨index, _, hp⟩ := Option.bind_eq_some_iff.1 h
  exact List.mem_of_getElem? hp

/-- A cycle clears the display, shows the page and takes a turn, which only moves the position. -/
theorem cycle_eq (deck : Deck) (options : Options) (stage : Stage σ) :
    cycle deck options stage =
      let shown := showCurrent deck options (stage.draw [.clear])
      let taken := takeTurn shown.1 shown.2
      (taken.1, { taken.2 with
        position := taken.1.elim taken.2.position taken.2.position.apply }) := by
  unfold cycle
  dsimp only
  split <;> rename_i ht <;> rw [ht] <;> rfl

theorem kept_takeTurn {A : Primitive → Prop} {I : Remote → σ → Prop} (K : Stage.Kept A I)
    (turn : Option Turn) (stage : Stage σ) (h : I stage.remote stage.surface) :
    I (takeTurn turn stage).2.remote (takeTurn turn stage).2.surface := by
  cases turn with
  | some turn => exact h
  | none => exact K.waited [] stage.remote stage.surface (by simp) h

section Kept
variable {I : Remote → σ → Prop} (K : Stage.Kept (· ≠ .clear) I) (deck : Deck) (options : Options)
include K

theorem kept_refreshProgress (stage : Stage σ) (h : I stage.remote stage.surface) :
    I (refreshProgress stage).remote (refreshProgress stage).surface := by
  unfold refreshProgress
  split
  · exact Page.kept_draw K (by simp) stage h
  · exact Page.kept_draw K (by simp) stage h
  · exact h

theorem kept_showCurrent (stage : Stage σ) (h : I stage.remote stage.surface) :
    I (showCurrent deck options stage).2.remote (showCurrent deck options stage).2.surface := by
  unfold showCurrent
  split
  · exact kept_refreshProgress K _ (Page.kept_showLines K options 1 _ _ h)
  · exact kept_refreshProgress K stage h

theorem kept_cycle (stage : Stage σ)
    (h : I stage.remote (Surface.perform .clear stage.surface)) :
    I (cycle deck options stage).2.remote (cycle deck options stage).2.surface := by
  rw [cycle_eq]
  exact kept_takeTurn K _ _ (kept_showCurrent K deck options (stage.draw [.clear]) h)

end Kept

theorem hears_showCurrent (deck : Deck) (options : Options) (stage : Stage σ) :
    ∃ pauses, Remote.Hears stage.remote pauses (showCurrent deck options stage).1
        (showCurrent deck options stage).2.remote ∧
      (deck.Pauseless → pauses = 0) := by
  unfold showCurrent
  split
  · rename_i page hp
    simp only [remote_refreshProgress]
    obtain ⟨pauses, hh, hz⟩ := Page.hears_showLines options 1 (Page.scriptLines page.text)
      { stage with cursor := .home, faults := [] }
    exact ⟨pauses, hh, fun hd => hz (hd page (mem_pages_of_currentPage? hp))⟩
  · rw [remote_refreshProgress]
    exact ⟨0, .refl stage.remote, fun _ => rfl⟩

theorem hears_takeTurn (turn : Option Turn) {before : Remote} {pauses : Nat} {stage : Stage σ}
    (h : Remote.Hears before pauses turn stage.remote) :
    Remote.Hears before pauses (takeTurn turn stage).1 (takeTurn turn stage).2.remote := by
  cases turn with
  | some turn => exact h
  | none => exact h.trans (Remote.hears_await [] stage.remote stage.surface)

theorem hears_cycle (deck : Deck) (options : Options) (stage : Stage σ) :
    ∃ pauses, Remote.Hears stage.remote pauses (cycle deck options stage).1
        (cycle deck options stage).2.remote ∧
      (deck.Pauseless → pauses = 0) := by
  obtain ⟨pauses, hh, hz⟩ := hears_showCurrent deck options (stage.draw [.clear])
  rw [cycle_eq]
  exact ⟨pauses, hears_takeTurn _ hh, hz⟩

theorem finished_of_cycle_none {deck : Deck} {options : Options} {stage : Stage σ}
    (h : (cycle deck options stage).1 = none) :
    (cycle deck options stage).2.remote.pad.finished = true := by
  rw [cycle_eq] at h ⊢
  dsimp only at h ⊢
  cases hs : (showCurrent deck options (stage.draw [.clear])).1 with
  | some turn => simp [hs, takeTurn] at h
  | none =>
    rw [hs] at h
    exact Remote.finished_of_await_none h

theorem proceed_visits {deck : Deck} {options : Options} {first stage : Stage σ}
    {stages : List (Stage σ)} (h : Visits deck options first stages stage) :
    ∃ stages' last, Visits deck options first stages' last ∧
      (last.remote.pad.finished = true ∧ proceed deck options stage = last ∨
        last.remote.pad.finished = false ∧
          cycle deck options last = (none, proceed deck options stage)) := by
  fun_induction proceed deck options stage generalizing stages with
  | case1 stage hf => exact ⟨stages, stage, h, .inl ⟨hf, rfl⟩⟩
  | case2 stage hf hs ih => exact ih (h.turn (by simpa using hf) hs)
  | case3 stage hf hn =>
    refine ⟨stages, stage, h, .inr ⟨by simpa using hf, ?_⟩⟩
    exact Prod.ext (by simpa using hn) rfl

theorem run_last (deck : Deck) (options : Options) (pad : Pad) (surface : σ) :
    ∃ stages last, Visits deck options (opening deck options pad surface) stages last ∧
      (last.remote.pad.finished = true ∧ run deck options pad surface = last ∨
        last.remote.pad.finished = false ∧
          cycle deck options last = (none, run deck options pad surface)) :=
  proceed_visits .start

theorem settled_visits {deck : Deck} {options : Options} {first stage : Stage σ}
    {stages : List (Stage σ)} (h : Visits deck options first stages stage)
    (hs : first.remote.pad.Settled) : stage.remote.pad.Settled := by
  induction h with
  | start => exact hs
  | @turn stages stage _ _ _ ih =>
    obtain ⟨pauses, hh, _⟩ := hears_cycle deck options stage
    exact hh.settled ih

theorem going_visits {deck : Deck} {options : Options} {first stage : Stage σ}
    {stages : List (Stage σ)} (h : Visits deck options first stages stage)
    (hs : first.remote.pad.Settled) (hf : first.remote.pad.finished = false) :
    stage.remote.pad.finished = false := by
  cases h with
  | start => exact hf
  | @turn stages stage before _ turned =>
    obtain ⟨pauses, hh, _⟩ := hears_cycle deck options stage
    exact hh.going (settled_visits before hs) turned

theorem run_visits (deck : Deck) (options : Options) {pad : Pad} (surface : σ) (hs : pad.Settled)
    (hf : pad.finished = false) :
    ∃ stages last, Visits deck options (opening deck options pad surface) stages last ∧
      last.remote.pad.finished = false ∧
      cycle deck options last = (none, run deck options pad surface) := by
  obtain ⟨stages, last, hv, hl⟩ := run_last deck options pad surface
  have hg := going_visits hv hs hf
  rcases hl with ⟨hl, _⟩ | hl
  · rw [hg] at hl
    simp at hl
  · exact ⟨stages, last, hv, hl⟩

theorem kept_visits {I : Remote → σ → Prop} (K : Stage.Kept (· ≠ .clear) I)
    (cleared : ∀ remote surface, I remote surface → I remote (Surface.perform .clear surface))
    {deck : Deck} {options : Options} {first stage : Stage σ} {stages : List (Stage σ)}
    (h : Visits deck options first stages stage) (hi : I first.remote first.surface) :
    I stage.remote stage.surface := by
  induction h with
  | start => exact hi
  | turn _ _ _ ih => exact kept_cycle K deck options _ (cleared _ _ ih)

theorem kept_run {I : Remote → σ → Prop} (K : Stage.Kept (· ≠ .clear) I)
    (cleared : ∀ remote surface, I remote surface → I remote (Surface.perform .clear surface))
    (deck : Deck) (options : Options) (pad : Pad) (surface : σ) (hi : I (.ofPad pad) surface) :
    I (run deck options pad surface).remote (run deck options pad surface).surface := by
  obtain ⟨stages, last, hv, hl⟩ := run_last deck options pad surface
  have hk := kept_visits K cleared hv hi
  rcases hl with ⟨_, hp⟩ | ⟨_, hc⟩
  · rw [hp]
    exact hk
  · have hn := kept_cycle K deck options last (cleared _ _ hk)
    rw [hc] at hn
    exact hn

theorem finished_run (deck : Deck) (options : Options) (pad : Pad) (surface : σ) :
    (run deck options pad surface).remote.pad.finished = true := by
  obtain ⟨stages, last, _, hl⟩ := run_last deck options pad surface
  rcases hl with ⟨hf, hp⟩ | ⟨_, hc⟩
  · rw [hp]
    exact hf
  · have hn := finished_of_cycle_none (congrArg Prod.fst hc)
    rw [hc] at hn
    exact hn

end Presentation

end TileDeck
