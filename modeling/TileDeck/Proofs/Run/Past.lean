import TileDeck.Proofs.Page.Reach
import TileDeck.Proofs.Run.Visits

set_option autoImplicit false

namespace TileDeck

open Markup

variable {σ : Type}

namespace Presentation

variable [Surface σ]

/-- The commands that the cycle of a stage carries out. -/
def carriedOut (deck : Deck) (options : Options) (stage : Stage σ) : List Command :=
  match currentPage? deck stage with
  | some page =>
    let lines := Page.scriptLines page.text
    let reached := Page.reach options 1 (Page.opened (stage.draw [.clear])) lines
    (lines.take reached).filterMap Line.command?
  | none => []

/-- A run from `first` on stands between two lines of a page: `past` are the commands carried out,
in earlier cycles and on this page, and `rest` are the lines to come, from `number` on. -/
inductive Between (deck : Deck) (options : Options) (first : Stage σ) :
    List Command → Stage σ → Nat → List String → Prop
  | intro {stages : List (Stage σ)} {stage shown : Stage σ} {page : Page} {done rest : List String}
      (visits : Visits deck options first stages stage)
      (going : stage.remote.pad.finished = false)
      (page_eq : currentPage? deck stage = some page)
      (lines_eq : Page.scriptLines page.text = done ++ rest)
      (shown_eq : Page.showLines options 1 (Page.opened (stage.draw [.clear])) done =
        (.onward, shown)) :
      Between deck options first
        (stages.flatMap (carriedOut deck options) ++ done.filterMap Line.command?) shown
        (1 + done.length) rest

/-- Something that is true of the commands carried out and of the stage stays true from line to line
and from page to page. -/
structure Steady (options : Options) (P : List Command → Stage σ → Prop) : Prop where
  cleared : ∀ (past : List Command) (stage : Stage σ), P past stage → P past (stage.draw [.clear])
  opened : ∀ (past : List Command) (stage : Stage σ), P past stage → P past (Page.opened stage)
  line : ∀ (past : List Command) (stage : Stage σ) (number : Nat) (line : String), P past stage →
    P (past ++ (Line.command? line).toList) (Page.showLine options number line stage).2
  refreshed : ∀ (past : List Command) (stage : Stage σ), P past stage →
    P past (refreshProgress stage)
  waited : ∀ (past : List Command) (stage : Stage σ), P past stage → P past (stage.await []).2
  turned : ∀ (past : List Command) (stage : Stage σ) (turn : Turn), P past stage →
    P past { stage with position := stage.position.apply turn }

section Steady
variable {options : Options} {P : List Command → Stage σ → Prop} (S : Steady options P)
include S

theorem steady_showLines {past : List Command} {stage : Stage σ} (number : Nat)
    (lines : List String) (h : P past stage) :
    P (past ++ (lines.take (Page.reach options number stage lines)).filterMap Line.command?)
      (Page.showLines options number stage lines).2 := by
  induction lines generalizing past number stage with
  | nil => simpa [Page.showLines] using h
  | cons line rest ih =>
    have hl := S.line past stage number line h
    have hc : ∀ m, ((line :: rest).take (m + 1)).filterMap Line.command? =
        (Line.command? line).toList ++ (rest.take m).filterMap Line.command? := by
      intro m
      rw [List.take_succ_cons, List.filterMap_cons]
      cases Line.command? line <;> rfl
    rcases Page.showLine_cases options number line stage with ⟨next, hn⟩ | ⟨turn, next, hn⟩
    · rw [hn] at hl
      rw [Page.showLines_onward hn, Page.reach_onward hn, hc, ← List.append_assoc]
      exact ih (number + 1) hl
    · rw [hn] at hl
      rw [Page.showLines_ended hn, Page.reach_ended hn, ← Nat.zero_add 1, hc, List.take_zero,
        List.filterMap_nil, List.append_nil]
      exact hl

theorem steady_takeTurn {past : List Command} {stage : Stage σ} (turn : Option Turn)
    (h : P past stage) : P past (takeTurn turn stage).2 := by
  cases turn with
  | some turn => exact h
  | none => exact S.waited past stage h

theorem steady_before_refresh (deck : Deck) (past : List Command) {stage : Stage σ}
    (h : P past stage) :
    ∃ before, P (past ++ carriedOut deck options stage) before ∧
      (showCurrent deck options (stage.draw [.clear])).2 = refreshProgress before := by
  unfold showCurrent carriedOut
  cases hp : currentPage? deck stage with
  | some page =>
    have hc : currentPage? deck (stage.draw [.clear]) = some page := hp
    rw [hc]
    exact ⟨_, steady_showLines S 1 _ (S.opened _ _ (S.cleared _ _ h)), rfl⟩
  | none =>
    have hc : currentPage? deck (stage.draw [.clear]) = none := hp
    rw [hc, List.append_nil]
    exact ⟨_, S.cleared _ _ h, rfl⟩

theorem steady_showCurrent {deck : Deck} {past : List Command} {stage : Stage σ}
    (h : P past stage) :
    P (past ++ carriedOut deck options stage)
      (showCurrent deck options (stage.draw [.clear])).2 := by
  obtain ⟨before, hb, heq⟩ := steady_before_refresh S deck past h
  rw [heq]
  exact S.refreshed _ _ hb

theorem steady_cycle {deck : Deck} (past : List Command) {stage : Stage σ} (h : P past stage) :
    P (past ++ carriedOut deck options stage) (cycle deck options stage).2 := by
  have hs : P (past ++ carriedOut deck options stage)
      (showCurrent deck options (stage.draw [.clear])).2 := steady_showCurrent S h
  have ht := steady_takeTurn S (showCurrent deck options (stage.draw [.clear])).1 hs
  rw [cycle_eq]
  dsimp only
  cases hc : (takeTurn (showCurrent deck options (stage.draw [.clear])).1
      (showCurrent deck options (stage.draw [.clear])).2).1 with
  | some turn => exact S.turned _ _ turn ht
  | none => exact ht

theorem steady_visits {deck : Deck} {first stage : Stage σ} {stages : List (Stage σ)}
    (h : Visits deck options first stages stage) (hf : P [] first) :
    P (stages.flatMap (carriedOut deck options)) stage := by
  induction h with
  | start => exact hf
  | turn _ _ _ ih =>
    rw [List.flatMap_append, List.flatMap_singleton]
    exact steady_cycle S _ ih

theorem steady_between {deck : Deck} {first shown : Stage σ} {past : List Command} {number : Nat}
    {rest : List String} (h : Between deck options first past shown number rest) (hf : P [] first) :
    P past shown := by
  cases h with
  | @intro stages stage _ page done _ visits _ _ _ shown_eq =>
    have ho := S.opened _ _ (S.cleared _ _ (steady_visits S visits hf))
    have hr := Page.reach_of_onward (congrArg Prod.fst shown_eq)
    have hd := steady_showLines S 1 done ho
    rw [hr, List.take_length, shown_eq] at hd
    exact hd

end Steady

end Presentation

end TileDeck
