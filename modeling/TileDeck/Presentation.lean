import TileDeck.Deck
import TileDeck.Page.Showing

set_option autoImplicit false

/-!
# Presentations

Clear the display, show the page, take the turn that the page or else the viewer gives, and begin
again. A presentation always ends: each turn uses up a press of the pad.
-/
namespace TileDeck.Presentation

variable {σ : Type} [Surface σ]

def currentPage? (deck : Deck) (stage : Stage σ) : Option Page :=
  stage.position.index.bind deck.page?

/-- Tell the display how far the deck has come, if a part of it is marked. -/
def refreshProgress (stage : Stage σ) : Stage σ :=
  match stage.position.progress?, stage.position.start with
  | some (done, total), _ => stage.draw [.progress done total]
  | none, some _ => stage.draw [.hideProgress]
  | none, none => stage

def showCurrent (deck : Deck) (options : Options) (stage : Stage σ) : Option Turn × Stage σ :=
  match currentPage? deck stage with
  | some page =>
    let (flow, stage) := Page.showPage options page.text stage
    (flow.turn?, refreshProgress stage)
  | none => (none, refreshProgress stage)

def takeTurn (turn : Option Turn) (stage : Stage σ) : Option Turn × Stage σ :=
  match turn with
  | some turn => (some turn, stage)
  | none => stage.await []

/-- Show one page and turn it; without a turn the position stays. -/
def cycle (deck : Deck) (options : Options) (stage : Stage σ) : Option Turn × Stage σ :=
  let (turn, stage) := showCurrent deck options (stage.draw [.clear])
  match takeTurn turn stage with
  | (some turn, stage) => (some turn, { stage with position := stage.position.apply turn })
  | (none, stage) => (none, stage)

def start (stage : Stage σ) : Stage σ := { stage with position := stage.position.begin }

theorem remote_refreshProgress (stage : Stage σ) : (refreshProgress stage).remote = stage.remote := by
  unfold refreshProgress
  split <;> rfl

theorem pending_showCurrent (deck : Deck) (options : Options) (stage : Stage σ) :
    (showCurrent deck options stage).2.remote.pending ≤ stage.remote.pending ∧
      ((showCurrent deck options stage).1.isSome →
        (showCurrent deck options stage).2.remote.pending < stage.remote.pending) := by
  unfold showCurrent
  split
  · simp only [remote_refreshProgress]
    exact Page.pending_showLines options 1 _ _
  · simp [remote_refreshProgress]

theorem pending_takeTurn (turn : Option Turn) (stage : Stage σ) :
    (takeTurn turn stage).2.remote.pending ≤ stage.remote.pending ∧
      ((takeTurn turn stage).1.isSome → turn.isNone →
        (takeTurn turn stage).2.remote.pending < stage.remote.pending) := by
  cases turn with
  | some turn => simp [takeTurn]
  | none =>
    have h := stage.pending_await []
    exact ⟨h.1, fun hs _ => h.2 hs⟩

theorem pending_cycle (deck : Deck) (options : Options) (stage : Stage σ)
    (h : (cycle deck options stage).1.isSome) :
    (cycle deck options stage).2.remote.pending < stage.remote.pending := by
  have hc := pending_showCurrent deck options (stage.draw [.clear])
  have ht := pending_takeTurn (showCurrent deck options (stage.draw [.clear])).1
    (showCurrent deck options (stage.draw [.clear])).2
  have hd : (stage.draw [.clear]).remote.pending = stage.remote.pending := rfl
  unfold cycle at h ⊢
  cases hf : (showCurrent deck options (stage.draw [.clear])).1 with
  | some turn =>
    rw [hf] at hc ht
    have := hc.2 rfl
    simp only [hf, takeTurn]
    omega
  | none =>
    simp only [hf] at h ht ⊢
    split at h
    · rename_i turn stage' hs
      rw [hs] at ht
      have := ht.2 rfl rfl
      simp only at this ⊢
      omega
    · simp at h

def proceed (deck : Deck) (options : Options) (stage : Stage σ) : Stage σ :=
  if stage.remote.pad.finished then stage
  else if _h : (cycle deck options stage).1.isSome then
    proceed deck options (cycle deck options stage).2
  else (cycle deck options stage).2
termination_by stage.remote.pending
decreasing_by exact pending_cycle deck options stage _h

section
variable {deck : Deck} {options : Options} {stage : Stage σ}

theorem proceed_of_finished (hf : stage.remote.pad.finished = true) :
    proceed deck options stage = stage := by
  rw [proceed, if_pos hf]

theorem proceed_of_turned (hf : stage.remote.pad.finished = false)
    (ht : (cycle deck options stage).1.isSome) :
    proceed deck options stage = proceed deck options (cycle deck options stage).2 := by
  rw [proceed, if_neg (by simp [hf]), dif_pos ht]

theorem proceed_of_ended (hf : stage.remote.pad.finished = false)
    (hn : (cycle deck options stage).1 = none) :
    proceed deck options stage = (cycle deck options stage).2 := by
  rw [proceed, if_neg (by simp [hf]), dif_neg (by simp [hn])]

end

def run (deck : Deck) (options : Options) (pad : Pad) (surface : σ) : Stage σ :=
  proceed deck options (start (.ready options deck.size pad surface))

end TileDeck.Presentation
