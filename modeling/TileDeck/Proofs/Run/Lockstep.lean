import TileDeck.Proofs.Page.Lockstep
import TileDeck.Proofs.Run.Visits

set_option autoImplicit false

namespace TileDeck

open Markup

def Deck.SamePages (deck deck' : Deck) : Prop :=
  List.Forall₂ (fun page page' => Page.SameLines page.text page'.text) deck.pages deck'.pages

theorem Deck.page?_forall₂ {R : Page → Page → Prop} {deck deck' : Deck}
    (h : List.Forall₂ R deck.pages deck'.pages) (index : Nat) :
    deck.page? index = none ∧ deck'.page? index = none ∨
      ∃ page page', deck.page? index = some page ∧ deck'.page? index = some page' ∧
        R page page' := by
  have hlen : deck.pages.length = deck'.pages.length := List.Forall₂.length_eq h
  by_cases hi : index < deck.pages.length
  · have hi' : index < deck'.pages.length := by omega
    exact .inr ⟨_, _, List.getElem?_eq_getElem hi, List.getElem?_eq_getElem hi',
      List.Forall₂.get h hi hi'⟩
  · exact .inl ⟨List.getElem?_eq_none (by omega), List.getElem?_eq_none (by omega)⟩

variable {σ τ : Type}

def Comparison.SameDeck (c : Comparison σ τ) (deck deck' : Deck) : Prop :=
  List.Forall₂ (fun page page' => c.SameText page.text page'.text) deck.pages deck'.pages

theorem Comparison.sameDeck_self (c : Comparison σ τ) (deck : Deck) : c.SameDeck deck deck :=
  List.forall₂_same.2 fun _ _ => .inl rfl

namespace Presentation

variable [Surface σ] [Surface τ]

/-- What the cycles of a run answer, one after the other. -/
def answers (deck : Deck) (options : Options) (stage : Stage σ) : List (Option Turn) :=
  (visited deck options stage).map fun stage => (cycle deck options stage).1

theorem visited_together {deck deck' : Deck} {options : Options} (R : Stage σ → Stage τ → Prop)
    (hfinished : ∀ s t, R s t → s.remote.pad.finished = t.remote.pad.finished)
    (hcycle : ∀ s t, R s t → (cycle deck options s).1 = (cycle deck' options t).1 ∧
      R (cycle deck options s).2 (cycle deck' options t).2) {s : Stage σ} {t : Stage τ} (h : R s t) :
    List.Forall₂ R (visited deck options s) (visited deck' options t) ∧
      R (proceed deck options s) (proceed deck' options t) := by
  -- along the first run; what the second asks of its pad and of its turn has the same answer
  fun_induction proceed deck options s generalizing t with
  | case1 s hf =>
    have hf' : t.remote.pad.finished = true := hfinished s t h ▸ hf
    rw [visited_of_finished hf, visited_of_finished hf', proceed_of_finished hf']
    exact ⟨.nil, h⟩
  | case2 s hf hs ih =>
    have hf : s.remote.pad.finished = false := by simpa using hf
    have hf' : t.remote.pad.finished = false := hfinished s t h ▸ hf
    obtain ⟨ht, hr⟩ := hcycle s t h
    have hs' : (cycle deck' options t).1.isSome := ht ▸ hs
    obtain ⟨hv, hp⟩ := ih hr
    rw [visited_of_turned hf hs, visited_of_turned hf' hs', proceed_of_turned hf' hs']
    exact ⟨.cons h hv, hp⟩
  | case3 s hf hn =>
    have hf : s.remote.pad.finished = false := by simpa using hf
    have hf' : t.remote.pad.finished = false := hfinished s t h ▸ hf
    obtain ⟨ht, hr⟩ := hcycle s t h
    have hn : (cycle deck options s).1 = none := by simpa using hn
    have hn' : (cycle deck' options t).1 = none := ht ▸ hn
    rw [visited_of_ended hf hn, visited_of_ended hf' hn', proceed_of_ended hf' hn']
    exact ⟨.cons h .nil, hr⟩

omit [Surface σ] [Surface τ] in
theorem map_eq_of_together {R : Stage σ → Stage τ → Prop} {α : Type} {f : Stage σ → α}
    {g : Stage τ → α} (hfg : ∀ s t, R s t → f s = g t) {stages : List (Stage σ)}
    {stages' : List (Stage τ)} (h : List.Forall₂ R stages stages') : stages.map f = stages'.map g := by
  induction h with
  | nil => rfl
  | cons hr _ ih => rw [List.map_cons, List.map_cons, hfg _ _ hr, ih]

section Agree
variable {c : Comparison σ τ} (C : c.Lawful) {deck deck' : Deck} (options : Options) {s : Stage σ}
  {t : Stage τ}
include C

theorem agree_refreshProgress (h : c.Agree s t) :
    c.Agree (refreshProgress s) (refreshProgress t) := by
  have hp : s.position.progress? = t.position.progress? := by
    rw [← Position.progress?_untimed, h.untimed, Position.progress?_untimed]
  have hs : s.position.start = t.position.start := congrArg (·.start) h.untimed
  unfold refreshProgress
  rw [← hp, ← hs]
  split
  · exact Comparison.agree_draw_self C h _
  · exact Comparison.agree_draw_self C h _
  · exact h

theorem agree_takeTurn (h : c.Agree s t) (turn : Option Turn) :
    (takeTurn turn s).1 = (takeTurn turn t).1 ∧
      c.Agree (takeTurn turn s).2 (takeTurn turn t).2 := by
  cases turn with
  | some turn => exact ⟨rfl, h⟩
  | none => exact Comparison.agree_await C h (List.forall_mem_nil _)

theorem agree_showCurrent (hd : c.SameDeck deck deck') (h : c.Agree s t) :
    (showCurrent deck options s).1 = (showCurrent deck' options t).1 ∧
      c.Agree (showCurrent deck options s).2 (showCurrent deck' options t).2 := by
  have hindex : s.position.index = t.position.index := congrArg (·.index) h.untimed
  have hpage : currentPage? deck s = none ∧ currentPage? deck' t = none ∨
      ∃ page page', currentPage? deck s = some page ∧ currentPage? deck' t = some page' ∧
        c.SameText page.text page'.text := by
    unfold currentPage?
    rw [← hindex]
    cases s.position.index with
    | none => exact .inl ⟨rfl, rfl⟩
    | some index => exact Deck.page?_forall₂ hd index
  unfold showCurrent
  rcases hpage with ⟨hs, ht⟩ | ⟨page, page', hs, ht, htext⟩
  · rw [hs, ht]
    exact ⟨rfl, agree_refreshProgress C h⟩
  · obtain ⟨hf, ha⟩ := Comparison.agree_showPage C options htext h
    rw [hs, ht]
    exact ⟨congrArg Page.Flow.turn? hf, agree_refreshProgress C ha⟩

theorem agree_cycle (hd : c.SameDeck deck deck') (h : c.Agree s t) :
    (cycle deck options s).1 = (cycle deck' options t).1 ∧
      c.Agree (cycle deck options s).2 (cycle deck' options t).2 := by
  obtain ⟨hs, ha⟩ := agree_showCurrent C options hd (Comparison.agree_draw_self C h [.clear])
  obtain ⟨ht, ha⟩ := agree_takeTurn C ha (showCurrent deck options (s.draw [.clear])).1
  rw [cycle_eq, cycle_eq]
  dsimp only
  rw [← hs, ← ht]
  refine ⟨rfl, ?_⟩
  cases (takeTurn (showCurrent deck options (s.draw [.clear])).1
      (showCurrent deck options (s.draw [.clear])).2).1 with
  | none => exact ha
  | some turn =>
    rw [Option.elim_some, Option.elim_some]
    refine ha.withPosition ?_ ?_
    · rw [Position.untimed_apply, ha.untimed, Position.untimed_apply]
    · rw [Position.timerBaseline_apply, Position.timerBaseline_apply]
      exact ha.baseline

theorem agree_visited (hd : c.SameDeck deck deck') (h : c.Agree s t) :
    List.Forall₂ c.Agree (visited deck options s) (visited deck' options t) ∧
      c.Agree (proceed deck options s) (proceed deck' options t) :=
  visited_together c.Agree (fun _ _ h => C.finished _ _ _ _ h.joined)
    (fun _ _ h => agree_cycle C options hd h) h

theorem agree_proceed (hd : c.SameDeck deck deck') (h : c.Agree s t) :
    answers deck options s = answers deck' options t ∧
      c.Agree (proceed deck options s) (proceed deck' options t) := by
  obtain ⟨hv, hp⟩ := agree_visited C options hd h
  refine ⟨?_, hp⟩
  exact map_eq_of_together (R := c.Agree) (fun _ _ h => (agree_cycle C options hd h).1) hv

omit C [Surface σ] [Surface τ] in
theorem agree_opening (hd : c.SameDeck deck deck') (hzero : c.times 0 0) {pad pad' : Pad}
    {surface : σ} {surface' : τ} (h : c.joined (.ofPad pad) surface (.ofPad pad') surface') :
    c.Agree (opening deck options pad surface) (opening deck' options pad' surface') := by
  have hsize : deck.size = deck'.size := List.Forall₂.length_eq hd
  have hbegin : ∀ pages, (Position.before pages).begin.timerBaseline = 0 := by
    intro pages
    rw [Position.begin_eq]
    rfl
  refine ⟨h, ?_, ?_, rfl, rfl, rfl⟩
  · change (Position.before deck.size).begin.untimed = (Position.before deck'.size).begin.untimed
    rw [hsize]
  · change c.times (Position.before deck.size).begin.timerBaseline
      (Position.before deck'.size).begin.timerBaseline
    rw [hbegin, hbegin]
    exact hzero

theorem agree_run (hd : c.SameDeck deck deck') (hzero : c.times 0 0) {pad pad' : Pad} {surface : σ}
    {surface' : τ} (h : c.joined (.ofPad pad) surface (.ofPad pad') surface') :
    answers deck options (opening deck options pad surface) =
        answers deck' options (opening deck' options pad' surface') ∧
      c.Agree (run deck options pad surface) (run deck' options pad' surface') :=
  agree_proceed C options hd (agree_opening options hd hzero h)

end Agree

end Presentation

section Lockstep
variable [Surface σ] [Surface τ]

/-- Two pads, each with a display, go on together: they show the same count of frames, stop
together and answer every wait alike, whatever is drawn on both. -/
structure Lockstep (J : Remote → σ → Remote → τ → Prop) : Prop where
  drawn : ∀ (p : Primitive) (r : Remote) (s : σ) (r' : Remote) (s' : τ), J r s r' s' →
    J r (Surface.perform p s) r' (Surface.perform p s')
  waited : ∀ (idle : List Primitive) (r : Remote) (s : σ) (r' : Remote) (s' : τ), J r s r' s' →
    (r.await idle s).1 = (r'.await idle s').1 ∧
      J (r.await idle s).2.1 (r.await idle s).2.2 (r'.await idle s').2.1 (r'.await idle s').2.2
  frames : ∀ (r : Remote) (s : σ) (r' : Remote) (s' : τ), J r s r' s' →
    Surface.frames s = Surface.frames s'
  finished : ∀ (r : Remote) (s : σ) (r' : Remote) (s' : τ), J r s r' s' →
    r.pad.finished = r'.pad.finished

theorem lockstep_eq : Lockstep fun r (s : σ) r' s' => r = r' ∧ s = s' where
  drawn := by
    rintro p r s _ _ ⟨rfl, rfl⟩
    exact ⟨rfl, rfl⟩
  waited := by
    rintro idle r s _ _ ⟨rfl, rfl⟩
    exact ⟨rfl, rfl, rfl⟩
  frames := by
    rintro r s _ _ ⟨rfl, rfl⟩
    rfl
  finished := by
    rintro r s _ _ ⟨rfl, rfl⟩
    rfl

/-- Two stages that differ in their pads and displays at most, which go on together, and in the
numbers of their faults. -/
structure Stage.Alike (J : Remote → σ → Remote → τ → Prop) (s : Stage σ) (t : Stage τ) : Prop where
  joined : J s.remote s.surface t.remote t.surface
  position : s.position = t.position
  cursor : s.cursor = t.cursor
  ink : s.ink = t.ink
  faults : s.faults.map Fault.unnumbered = t.faults.map Fault.unnumbered

def Comparison.unnumbered (J : Remote → σ → Remote → τ → Prop) : Comparison σ τ :=
  ⟨J, Eq, Fault.unnumbered⟩

theorem Lockstep.lawful {J : Remote → σ → Remote → τ → Prop} (K : Lockstep J) :
    (Comparison.unnumbered J).Lawful where
  drawn p p' r s r' s' hp h := by
    rw [hp.eq]
    exact K.drawn p' r s r' s' h
  waited idle r s r' s' _ h := K.waited idle r s r' s' h
  frames := K.frames
  finished := K.finished

theorem Presentation.alike_run {J : Remote → σ → Remote → τ → Prop} (K : Lockstep J)
    {deck deck' : Deck} (hd : deck.SamePages deck') (options : Options) {pad pad' : Pad}
    {surface : σ} {surface' : τ} (h : J (.ofPad pad) surface (.ofPad pad') surface') :
    Stage.Alike J (run deck options pad surface) (run deck' options pad' surface') := by
  have hsame : (Comparison.unnumbered J).SameDeck deck deck' :=
    hd.imp fun _ _ hp => .inr ⟨fun _ _ => rfl, hp⟩
  obtain ⟨_, ha⟩ := agree_run K.lawful options hsame rfl h
  exact ⟨ha.joined, Position.eq_of_untimed ha.untimed ha.baseline, ha.cursor, ha.ink, ha.faults⟩

end Lockstep

end TileDeck
