import TileDeck.Proofs.Page.Exact

set_option autoImplicit false

namespace TileDeck

open Presentation

/-- Every line of the deck has less than half as many characters as there are coordinates after
zero. -/
def Deck.Moderate (deck : Deck) : Prop :=
  ∀ page ∈ deck.pages, ∀ line ∈ Page.scriptLines page.text, Coordinate.Moderate line.length

namespace Machine.Goes

variable {σ : Type} [Surface σ] {m : Machine σ} {I : σ → Prop} (hm : m.Goes Primitive.Modest I)
  {deck : Deck} {options : Options} {stage : Stage σ}
include hm

theorem refreshProgress (hi : I stage.surface) :
    m.refreshProgress stage = some (Presentation.refreshProgress stage) ∧
      I (Presentation.refreshProgress stage).surface := by
  have htold : ∀ done total, ∀ p ∈ [Primitive.progress done total], p.Modest :=
    fun _ _ => List.forall_mem_singleton.2 trivial
  have hhidden : ∀ p ∈ [Primitive.hideProgress], p.Modest := List.forall_mem_singleton.2 trivial
  unfold Machine.refreshProgress Presentation.refreshProgress
  rcases stage.position.progress? with _ | ⟨done, total⟩
  · cases stage.position.start with
    | none => exact ⟨rfl, hi⟩
    | some start => exact ⟨hm.draw hhidden hi, Page.kept_draw hm.kept hhidden stage hi⟩
  · exact ⟨hm.draw (htold done total) hi, Page.kept_draw hm.kept (htold done total) stage hi⟩

theorem takeTurn (turn : Option Turn) (hi : I stage.surface) :
    m.takeTurn turn stage = some (Presentation.takeTurn turn stage) ∧
      I (Presentation.takeTurn turn stage).2.surface := by
  cases turn with
  | some turn => exact ⟨rfl, hi⟩
  | none =>
    exact ⟨hm.await (List.forall_mem_nil _) hi,
      hm.kept.waited [] stage.remote stage.surface (List.forall_mem_nil _) hi⟩

variable (hw : Page.Wide options) (hd : deck.Moderate)
include hw hd

theorem showCurrent (hi : I stage.surface) :
    m.showCurrent deck options stage = some (Presentation.showCurrent deck options stage) ∧
      I (Presentation.showCurrent deck options stage).2.surface := by
  unfold Machine.showCurrent Presentation.showCurrent
  cases hp : currentPage? deck stage with
  | none =>
    obtain ⟨heq, hnext⟩ := hm.refreshProgress hi
    exact ⟨congrArg (Option.bind · _) heq, hnext⟩
  | some page =>
    obtain ⟨hpage, hshown⟩ := Page.goes_showPage hm hw hi (hd page (mem_pages_of_currentPage? hp))
    obtain ⟨heq, hnext⟩ := hm.refreshProgress hshown
    dsimp only
    rw [hpage, Option.bind_eq_bind, Option.bind_some]
    exact ⟨congrArg (Option.bind · _) heq, hnext⟩

theorem cycle (hi : I stage.surface) :
    m.cycle deck options stage = some (Presentation.cycle deck options stage) ∧
      I (Presentation.cycle deck options stage).2.surface := by
  have hclear : ∀ p ∈ [Primitive.clear], p.Modest := List.forall_mem_singleton.2 trivial
  have hcleared : I (stage.draw [.clear]).surface := Page.kept_draw hm.kept hclear stage hi
  obtain ⟨hshown, hs⟩ := hm.showCurrent hw hd hcleared
  generalize hc : Presentation.showCurrent deck options (stage.draw [.clear]) = shown at hshown hs
  obtain ⟨htaken, ht⟩ := hm.takeTurn shown.1 hs
  rw [cycle_eq, hc]
  refine ⟨?_, ht⟩
  rw [Machine.cycle, hm.draw hclear hi]
  simp only [Option.bind_eq_bind, Option.bind_some, hshown, htaken]
  generalize Presentation.takeTurn shown.1 shown.2 = taken
  obtain ⟨_ | turn, next⟩ := taken <;> rfl

theorem goOn (hi : I stage.surface) :
    m.goOn deck options stage = some (Presentation.proceed deck options stage) := by
  fun_induction Presentation.proceed deck options stage with
  | case1 stage hf => rw [Machine.goOn, if_pos hf]
  | case2 stage hf ht ih =>
    obtain ⟨hcycle, hnext⟩ := hm.cycle hw hd hi
    have hgoes := ih hnext
    obtain ⟨turn, hturn⟩ := Option.isSome_iff_exists.1 ht
    rw [m.goOn_of_turned hf (hcycle.trans (congrArg some (Prod.ext hturn rfl)))]
    exact hgoes
  | case3 stage hf ht =>
    obtain ⟨hcycle, -⟩ := hm.cycle hw hd hi
    exact m.goOn_of_ended hf (hcycle.trans (congrArg some (Prod.ext (by simpa using ht) rfl)))

end Machine.Goes

theorem Recorder.goes_machine : Recorder.machine.Goes Primitive.Modest fun _ => True :=
  ⟨fun _ _ => rfl, fun _ => rfl, fun _ _ => trivial, fun _ => trivial⟩

/-- What is shown of a deck of short lines in the width of a plane, a recorder's machine writes down
to the end. -/
theorem Recorder.run_machine {deck : Deck} {options : Options} (hd : deck.Moderate)
    (hw : Page.Wide options) (pad : Pad) (surface : Recorder) :
    Recorder.machine.run deck options pad surface = some (run deck options pad surface) :=
  Recorder.goes_machine.goOn hw hd trivial

end TileDeck
