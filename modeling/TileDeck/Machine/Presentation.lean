import TileDeck.Machine.Showing
import TileDeck.Presentation

set_option autoImplicit false

namespace TileDeck.Machine

variable {σ : Type} [Surface σ] (m : Machine σ)

def refreshProgress (stage : Stage σ) : Option (Stage σ) :=
  match stage.position.progress?, stage.position.start with
  | some (done, total), _ => m.draw [.progress done total] stage
  | none, some _ => m.draw [.hideProgress] stage
  | none, none => some stage

def showCurrent (deck : Deck) (options : Options) (stage : Stage σ) :
    Option (Option Turn × Stage σ) :=
  match Presentation.currentPage? deck stage with
  | some page => do
    let (flow, stage) ← m.showPage options page.text stage
    return (flow.turn?, ← m.refreshProgress stage)
  | none => do return (none, ← m.refreshProgress stage)

def takeTurn (turn : Option Turn) (stage : Stage σ) : Option (Option Turn × Stage σ) :=
  match turn with
  | some turn => some (some turn, stage)
  | none => m.await [] stage

def cycle (deck : Deck) (options : Options) (stage : Stage σ) :
    Option (Option Turn × Stage σ) := do
  let (turn, stage) ← m.showCurrent deck options (← m.draw [.clear] stage)
  match ← m.takeTurn turn stage with
  | (some turn, stage) =>
    return (some turn, { stage with position := stage.position.apply turn })
  | (none, stage) => return (none, stage)

theorem agrees_refreshProgress (stage : Stage σ) :
    Agrees (m.refreshProgress stage) (Presentation.refreshProgress stage) := by
  unfold refreshProgress Presentation.refreshProgress
  rcases stage.position.progress? with _ | ⟨done, total⟩
  · cases stage.position.start with
    | none => exact .always stage
    | some start => exact m.agrees_draw _ stage
  · exact m.agrees_draw _ stage

theorem agrees_showCurrent (deck : Deck) (options : Options) (stage : Stage σ) :
    Agrees (m.showCurrent deck options stage) (Presentation.showCurrent deck options stage) := by
  unfold showCurrent Presentation.showCurrent
  cases Presentation.currentPage? deck stage with
  | none => exact (m.agrees_refreshProgress stage).bind (.always _)
  | some page =>
    exact (m.agrees_showPage options page.text stage).bind
      ((m.agrees_refreshProgress _).bind (.always _))

theorem agrees_takeTurn (turn : Option Turn) (stage : Stage σ) :
    Agrees (m.takeTurn turn stage) (Presentation.takeTurn turn stage) := by
  cases turn with
  | some turn => exact .always _
  | none => exact m.agrees_await [] stage

theorem agrees_cycle (deck : Deck) (options : Options) (stage : Stage σ) :
    Agrees (m.cycle deck options stage) (Presentation.cycle deck options stage) := by
  let shown := Presentation.showCurrent deck options (stage.draw [.clear])
  have hshown := m.agrees_showCurrent deck options (stage.draw [.clear])
  have htaken := m.agrees_takeTurn shown.1 shown.2
  refine (m.agrees_draw [.clear] stage).bind (hshown.bind (htaken.bind ?_))
  change Agrees _ (match Presentation.takeTurn shown.1 shown.2 with
    | (some turn, stage) => (some turn, { stage with position := stage.position.apply turn })
    | (none, stage) => (none, stage))
  generalize Presentation.takeTurn shown.1 shown.2 = taken
  obtain ⟨_ | turn, next⟩ := taken <;> exact .always _

theorem pending_cycle {deck : Deck} {options : Options} {stage next : Stage σ} {turn : Turn}
    (h : m.cycle deck options stage = some (some turn, next)) :
    next.remote.pending < stage.remote.pending := by
  have hc := m.agrees_cycle deck options stage _ h
  have hp := Presentation.pending_cycle deck options stage
  rw [← hc] at hp
  exact hp rfl

def goOn (deck : Deck) (options : Options) (stage : Stage σ) : Option (Stage σ) :=
  if stage.remote.pad.finished then some stage
  else
    match _h : m.cycle deck options stage with
    | some (some _, next) => goOn deck options next
    | some (none, next) => some next
    | none => none
termination_by stage.remote.pending
decreasing_by exact m.pending_cycle _h

section
variable {deck : Deck} {options : Options} {stage next : Stage σ}
  (hf : ¬ stage.remote.pad.finished = true)
include hf

theorem goOn_of_turned {turn : Turn} (h : m.cycle deck options stage = some (some turn, next)) :
    m.goOn deck options stage = m.goOn deck options next := by
  rw [goOn, if_neg hf]
  split <;> rename_i hc <;> rw [h] at hc <;> cases hc
  rfl

theorem goOn_of_ended (h : m.cycle deck options stage = some (none, next)) :
    m.goOn deck options stage = some next := by
  rw [goOn, if_neg hf]
  split <;> rename_i hc <;> rw [h] at hc <;> cases hc
  rfl

end

def run (deck : Deck) (options : Options) (pad : Pad) (surface : σ) : Option (Stage σ) :=
  m.goOn deck options (Presentation.start (.ready options deck.size pad surface))

theorem agrees_goOn (deck : Deck) (options : Options) (stage : Stage σ) :
    Agrees (m.goOn deck options stage) (Presentation.proceed deck options stage) := by
  fun_induction goOn m deck options stage with
  | case1 stage hf =>
    rw [Presentation.proceed_of_finished hf]
    exact .always stage
  | case2 stage hf turn next h ih =>
    have hc := m.agrees_cycle deck options stage _ h
    rw [Presentation.proceed_of_turned (by simpa using hf) (by rw [← hc]; rfl), ← hc]
    exact ih
  | case3 stage hf next h =>
    have hc := m.agrees_cycle deck options stage _ h
    rw [Presentation.proceed_of_ended (by simpa using hf) (by rw [← hc]), ← hc]
    exact .always next
  | case4 => exact .never _

/-- Where a machine comes to the end of a show, it has shown what its display shows. -/
theorem agrees_run (deck : Deck) (options : Options) (pad : Pad) (surface : σ) :
    Agrees (m.run deck options pad surface) (Presentation.run deck options pad surface) :=
  m.agrees_goOn deck options _

end TileDeck.Machine
