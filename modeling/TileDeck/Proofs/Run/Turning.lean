import TileDeck.Proofs.Page.Reach
import TileDeck.Proofs.Position
import TileDeck.Proofs.Recorder
import TileDeck.Proofs.Run.Visits

set_option autoImplicit false

namespace TileDeck

open Markup

variable {σ : Type} [Surface σ]

namespace Page

variable {pages index : Nat} {stage : Stage σ}

theorem onDisplay_execute (options : Options) (command : Command)
    (h : stage.position.OnDisplay pages index) :
    (execute options stage command).2.position.OnDisplay pages index := by
  cases command with
  | pause =>
    change (pause stage).2.position.OnDisplay pages index
    rw [pause_await]
    exact h
  | initProgress => exact ⟨h.pages_eq, h.index_eq, h.lt⟩
  | hideProgress => exact ⟨h.pages_eq, h.index_eq, h.lt⟩
  | resetTimer => exact ⟨h.pages_eq, h.index_eq, h.lt⟩
  | hideTimer => exact ⟨h.pages_eq, h.index_eq, h.lt⟩
  | _ => exact h

theorem position_proceed (options : Options) (text : String) (stage : Stage σ) :
    (proceed options text stage).position = stage.position := by
  unfold proceed
  split <;> rfl

theorem onDisplay_showLine (options : Options) (number : Nat) (line : String)
    (h : stage.position.OnDisplay pages index) :
    (showLine options number line stage).2.position.OnDisplay pages index := by
  unfold showLine
  split
  · exact h
  · rw [position_proceed]
    exact h
  · exact onDisplay_execute options _ h
  · exact h

theorem onDisplay_showLines (options : Options) (number : Nat) (lines : List String)
    (h : stage.position.OnDisplay pages index) :
    (showLines options number stage lines).2.position.OnDisplay pages index := by
  induction lines generalizing number stage with
  | nil => exact h
  | cons line rest ih =>
    have hl := onDisplay_showLine options number line h
    rcases showLine_cases options number line stage with ⟨next, hn⟩ | ⟨turn, next, hn⟩
    · rw [hn] at hl
      rw [showLines_onward hn]
      exact ih (number + 1) hl
    · rw [hn] at hl
      rw [showLines_ended hn]
      exact hl

end Page

namespace Presentation

theorem position_refreshProgress (stage : Stage σ) :
    (refreshProgress stage).position = stage.position := by
  unfold refreshProgress
  split <;> rfl

theorem position_takeTurn (turn : Option Turn) (stage : Stage σ) :
    (takeTurn turn stage).2.position = stage.position := by
  cases turn <;> rfl

theorem position_cycle (deck : Deck) (options : Options) (stage : Stage σ) :
    (cycle deck options stage).2.position =
      (cycle deck options stage).1.elim
        (showCurrent deck options (stage.draw [.clear])).2.position
        (showCurrent deck options (stage.draw [.clear])).2.position.apply := by
  rw [cycle_eq]
  simp only [position_takeTurn]

omit [Surface σ] in
theorem exists_currentPage {deck : Deck} {stage : Stage σ} {index : Nat}
    (h : stage.position.OnDisplay deck.size index) :
    ∃ page, deck.page? index = some page ∧ currentPage? deck stage = some page := by
  have hlt : index < deck.pages.length := h.lt
  have hp : deck.page? index = some deck.pages[index] := List.getElem?_eq_getElem hlt
  refine ⟨_, hp, ?_⟩
  unfold currentPage?
  rw [h.index_eq]
  exact hp

theorem onDisplay_showCurrent (deck : Deck) (options : Options) {stage : Stage σ} {index : Nat}
    (h : stage.position.OnDisplay deck.size index) :
    (showCurrent deck options stage).2.position.OnDisplay deck.size index := by
  obtain ⟨page, _, hc⟩ := exists_currentPage h
  unfold showCurrent
  rw [hc]
  dsimp only
  rw [position_refreshProgress]
  exact Page.onDisplay_showLines options 1 _ h

theorem onDisplay_cycle (deck : Deck) (options : Options) {stage : Stage σ} {index : Nat}
    (h : stage.position.OnDisplay deck.size index) :
    (cycle deck options stage).2.position.OnDisplay deck.size
      ((cycle deck options stage).1.toList.foldl (Turn.move deck.size) index) := by
  have hs : (showCurrent deck options (stage.draw [.clear])).2.position.OnDisplay deck.size index :=
    onDisplay_showCurrent deck options h
  rw [position_cycle]
  cases (cycle deck options stage).1 with
  | none => exact hs
  | some turn => exact hs.apply turn

/-- The turns that the first cycles gave. -/
def given (deck : Deck) (options : Options) (n : Nat) (stage : Stage σ) : List Turn :=
  (List.range n).filterMap fun k => (cycle deck options (cycles deck options k stage)).1

theorem given_succ (deck : Deck) (options : Options) (n : Nat) (stage : Stage σ) :
    given deck options (n + 1) stage =
      given deck options n stage ++
        (cycle deck options (cycles deck options n stage)).1.toList := by
  unfold given
  rw [List.range_succ, List.filterMap_append]
  rfl

theorem onDisplay_cycles (deck : Deck) (options : Options) {stage : Stage σ} {index : Nat}
    (h : stage.position.OnDisplay deck.size index) (n : Nat) :
    (cycles deck options n stage).position.OnDisplay deck.size
      ((given deck options n stage).foldl (Turn.move deck.size) index) := by
  induction n with
  | zero => exact h
  | succ n ih =>
    rw [given_succ, List.foldl_append]
    exact onDisplay_cycle deck options ih

omit [Surface σ] in
theorem onDisplay_opening {deck : Deck} (hd : deck.size ≠ 0) (options : Options) (pad : Pad)
    (surface : σ) : (opening deck options pad surface).position.OnDisplay deck.size 0 :=
  Position.onDisplay_begin hd

omit [Surface σ] in
theorem position_opening_empty {deck : Deck} (hd : deck.size = 0) (options : Options) (pad : Pad)
    (surface : σ) : (opening deck options pad surface).position = .before 0 := by
  change (Position.before deck.size).begin = _
  rw [hd]
  rfl

theorem showCurrent_empty (deck : Deck) (options : Options) {stage : Stage σ}
    (h : stage.position = .before 0) : showCurrent deck options stage = (none, stage) := by
  have hc : currentPage? deck stage = none := by
    unfold currentPage?
    rw [h]
    rfl
  have hr : refreshProgress stage = stage := by
    unfold refreshProgress
    rw [h]
    rfl
  unfold showCurrent
  rw [hc, hr]

theorem position_cycle_empty (deck : Deck) (options : Options) {stage : Stage σ}
    (h : stage.position = .before 0) : (cycle deck options stage).2.position = .before 0 := by
  have hd : (stage.draw [.clear]).position = .before 0 := h
  rw [position_cycle, showCurrent_empty deck options hd]
  cases (cycle deck options stage).1 with
  | none => exact hd
  | some turn =>
    rw [Option.elim_some, hd]
    exact Position.apply_before_zero turn

theorem position_cycles_empty (deck : Deck) (options : Options) {stage : Stage σ}
    (h : stage.position = .before 0) (n : Nat) :
    (cycles deck options n stage).position = .before 0 := by
  induction n with
  | zero => exact h
  | succ n ih => exact position_cycle_empty deck options ih

theorem kept_calls (calls : List Call) :
    Stage.Kept (fun _ => False) fun (_ : Remote) (r : Recorder) => r.calls.toList = calls :=
  .of_frames (fun _ _ _ h => h.elim) (fun _ _ h => h) (fun _ _ _ h => h)

theorem calls_cycle_empty (deck : Deck) (options : Options) {stage : Stage Recorder}
    (h : stage.position = .before 0) :
    (cycle deck options stage).2.surface.calls.toList =
      stage.surface.calls.toList ++ [.plain .clear] := by
  have hd : (stage.draw [.clear]).position = .before 0 := h
  rw [cycle_eq, showCurrent_empty deck options hd]
  exact (kept_calls _).waited [] stage.remote (stage.draw [.clear]).surface (by simp)
    (Recorder.calls_perform .clear stage.surface)

theorem calls_refreshProgress (stage : Stage Recorder) :
    ∃ told, (refreshProgress stage).surface.calls.toList = stage.surface.calls.toList ++ told ∧
      ∀ call ∈ told, call.tellsProgress := by
  unfold refreshProgress
  split
  · exact ⟨_, Recorder.calls_perform _ stage.surface, by simp [Call.of?, Call.tellsProgress]⟩
  · exact ⟨_, Recorder.calls_perform _ stage.surface, by simp [Call.of?, Call.tellsProgress]⟩
  · exact ⟨[], (List.append_nil _).symm, List.forall_mem_nil _⟩

theorem faults_refreshProgress (stage : Stage σ) :
    (refreshProgress stage).faults = stage.faults := by
  unfold refreshProgress
  split <;> rfl

theorem faults_takeTurn (turn : Option Turn) (stage : Stage σ) :
    (takeTurn turn stage).2.faults = stage.faults := by
  cases turn <;> rfl

theorem calls_takeTurn (turn : Option Turn) (stage : Stage Recorder) :
    (takeTurn turn stage).2.surface.calls.toList = stage.surface.calls.toList :=
  kept_takeTurn (kept_calls stage.surface.calls.toList) turn stage rfl

/-- A cycle renders the page of its position: on the cleared display it draws what the page draws,
and nothing after it but the progress. The turn that the page ends with is the cycle's. -/
structure Renders (options : Options) (page : Page) (stage : Stage Recorder)
    (turn : Option Turn) (next : Stage Recorder) : Prop where
  calls : ∃ drawn told,
    (Page.showPage options page.text (stage.draw [.clear])).2.surface.calls.toList =
      stage.surface.calls.toList ++ .plain .clear :: drawn ∧
    next.surface.calls.toList = stage.surface.calls.toList ++ .plain .clear :: drawn ++ told ∧
    .plain .clear ∉ drawn ∧ ∀ call ∈ told, call.tellsProgress
  faults : next.faults = (Page.showPage options page.text (stage.draw [.clear])).2.faults
  turn : ∀ taken, (Page.showPage options page.text (stage.draw [.clear])).1 = .ended (some taken) →
    turn = some taken

theorem Renders.calls_of_page {options : Options} {page : Page} {stage next : Stage Recorder}
    {turn : Option Turn} {drawn : List Call} (h : Renders options page stage turn next)
    (hdrawn : (Page.showPage options page.text (stage.draw [.clear])).2.surface.calls.toList =
      stage.surface.calls.toList ++ .plain .clear :: drawn) :
    ∃ told, next.surface.calls.toList =
        stage.surface.calls.toList ++ .plain .clear :: drawn ++ told ∧
      ∀ call ∈ told, call.tellsProgress := by
  obtain ⟨drawn', told, hdrawn', hcalls, _, htold⟩ := h.calls
  have hsame : drawn' = drawn :=
    (List.cons.inj (List.append_cancel_left (hdrawn'.symm.trans hdrawn))).2
  subst hsame
  exact ⟨told, hcalls, htold⟩

theorem renders_cycle (deck : Deck) (options : Options) {stage : Stage Recorder} {page : Page}
    (h : currentPage? deck (stage.draw [.clear]) = some page) :
    Renders options page stage (cycle deck options stage).1 (cycle deck options stage).2 := by
  have hshow : showCurrent deck options (stage.draw [.clear]) =
      ((Page.showPage options page.text (stage.draw [.clear])).1.turn?,
        refreshProgress (Page.showPage options page.text (stage.draw [.clear])).2) := by
    rw [showCurrent, h]
  have hclear : (stage.draw [.clear]).surface.calls.toList =
      stage.surface.calls.toList ++ [.plain .clear] := Recorder.calls_perform .clear stage.surface
  rw [cycle_eq, hshow]
  refine ⟨?_, ?_, fun taken ht => ?_⟩
  · obtain ⟨drawn, hdrawn, hunclear⟩ := Page.kept_showLines
      (Recorder.kept_drawn (stage.surface.calls.toList ++ [.plain .clear])) options 1
      (Page.scriptLines page.text) (Page.opened (stage.draw [.clear]))
      ⟨[], hclear.trans (List.append_nil _).symm, List.not_mem_nil⟩
    obtain ⟨told, htold, hprogress⟩ :=
      calls_refreshProgress (Page.showPage options page.text (stage.draw [.clear])).2
    have hdrawn' : (Page.showPage options page.text (stage.draw [.clear])).2.surface.calls.toList =
        stage.surface.calls.toList ++ .plain .clear :: drawn := by
      rw [List.append_cons]
      exact hdrawn
    refine ⟨drawn, told, hdrawn', ?_, hunclear, hprogress⟩
    rw [← hdrawn', ← htold]
    exact calls_takeTurn _ _
  · exact (faults_takeTurn _ _).trans (faults_refreshProgress _)
  · rw [ht]
    rfl

/-- In every cycle a page is shown, the one that the turns given so far lead to from the first. A
deck without pages is never left, and all that is drawn of it is the clear screen. -/
theorem index_follows_turns (deck : Deck) (options : Options) (pad : Pad) (surface : Recorder)
    (n : Nat) :
    let first := opening deck options pad surface
    let stage := cycles deck options n first
    let after := cycle deck options stage
    let index := (given deck options n first).foldl (Turn.move deck.size) 0
    (deck.size ≠ 0 →
      stage.position.index = some index ∧
      (∃ page, deck.page? index = some page ∧ Renders options page stage after.1 after.2) ∧
      (∀ lines, (Page.showLines options 1 (Page.opened (stage.draw [.clear]))
        lines).2.position.index = some index) ∧
      (after.1 = none → after.2.position.index = some index)) ∧
    (deck.size = 0 →
      stage.position.index = none ∧ after.2.position.index = none ∧
      after.2.surface.calls.toList = stage.surface.calls.toList ++ [.plain .clear]) := by
  intro first stage after index
  constructor
  · intro hd
    have h : stage.position.OnDisplay deck.size index :=
      onDisplay_cycles deck options (onDisplay_opening hd options pad surface) n
    have ho : (Page.opened (stage.draw [.clear])).position.OnDisplay deck.size index := h
    obtain ⟨page, hpage, hcurrent⟩ := exists_currentPage h
    refine ⟨h.index_eq, ⟨page, hpage, renders_cycle deck options hcurrent⟩, fun lines => ?_,
      fun hn => ?_⟩
    · exact (Page.onDisplay_showLines options 1 lines ho).index_eq
    · have hc := (onDisplay_cycle deck options h).index_eq
      change (cycle deck options stage).1 = none at hn
      rw [hn] at hc
      exact hc
  · intro hd
    have h : stage.position = .before 0 :=
      position_cycles_empty deck options (position_opening_empty hd options pad surface) n
    refine ⟨?_, ?_, calls_cycle_empty deck options h⟩
    · rw [h]
      rfl
    · change (cycle deck options stage).2.position.index = none
      rw [position_cycle_empty deck options h]
      rfl

def paused : Deck := .parse "title: a\n---\npause:\ntitle: b\n---\nscroll:"

def leafing : Pad :=
  let forward := { Buttons.released with confirm := true }
  let back := { Buttons.released with cancel := true }
  .ofScript [forward, .released, forward, .released, forward, back]

/-- The second cycle draws the title of the second page, and the fourth one, which ends in the pause
of that page, does not. -/
theorem paused_index :
    let first := opening paused .standard leafing Recorder.fresh
    let second := cycles paused .standard 1 first
    let fourth := cycles paused .standard 3 first
    paused.size ≠ 0 ∧ given paused .standard 3 first = [.forward, .forward, .back] ∧
      (∃ told, (cycle paused .standard second).2.surface.calls.toList =
          second.surface.calls.toList ++ [.plain .clear, .inked (.text 19 1 "b") 0] ++ told ∧
        ∀ call ∈ told, call.tellsProgress) ∧
      (∃ told, (cycle paused .standard fourth).2.surface.calls.toList =
          fourth.surface.calls.toList ++ [.plain .clear] ++ told ∧
        ∀ call ∈ told, call.tellsProgress) ∧
      (cycle paused .standard fourth).1 = none ∧
      (cycle paused .standard fourth).2.position.index = some 1 ∧
      (cycle ⟨[]⟩ .standard (cycles ⟨[]⟩ .standard 1
        (opening ⟨[]⟩ .standard leafing Recorder.fresh))).2.position.index = none := by
  intro first second fourth
  have hn : (cycle paused .standard fourth).1 = none := by decide +kernel
  have hg : given paused .standard 3 first = [.forward, .forward, .back] := by decide +kernel
  have hgiven : given paused .standard 1 first = [.forward] := by decide +kernel
  have hd : paused.size ≠ 0 := by decide
  have hpage : paused.page? 1 = some ⟨"pause:\ntitle: b"⟩ := by decide
  obtain ⟨_, ⟨page, hp, hrenders⟩, _, _⟩ :=
    (index_follows_turns paused .standard leafing .fresh 1).1 hd
  obtain ⟨_, ⟨page', hp', hrenders'⟩, _, hi⟩ :=
    (index_follows_turns paused .standard leafing .fresh 3).1 hd
  obtain ⟨_, hempty, _⟩ := (index_follows_turns ⟨[]⟩ .standard leafing .fresh 1).2 rfl
  have hsecond : page = ⟨"pause:\ntitle: b"⟩ := by
    rw [hgiven] at hp
    exact Option.some.inj (hp.symm.trans hpage)
  have hfourth : page' = ⟨"pause:\ntitle: b"⟩ := by
    rw [hg] at hp'
    exact Option.some.inj (hp'.symm.trans hpage)
  subst hsecond hfourth
  have htitle : (Page.showPage .standard "pause:\ntitle: b"
      (second.draw [.clear])).2.surface.calls.toList =
        second.surface.calls.toList ++ [.plain .clear, .inked (.text 19 1 "b") 0] := by
    decide +kernel
  have hnothing : (Page.showPage .standard "pause:\ntitle: b"
      (fourth.draw [.clear])).2.surface.calls.toList =
        fourth.surface.calls.toList ++ [.plain .clear] := by
    decide +kernel
  refine ⟨hd, hg, hrenders.calls_of_page htitle, hrenders'.calls_of_page hnothing, hn, ?_, hempty⟩
  have hindex := hi hn
  rw [hg] at hindex
  exact hindex

end Presentation

end TileDeck
