import Mathlib.Data.List.Forall2
import TileDeck.Proofs.Page.Lines
import TileDeck.Proofs.Position

set_option autoImplicit false

/-!
# Pages in lockstep

Two stages on which the same is drawn and every wait has the same answer stay alike through a page.
A comparison says which pads and displays go together, how far their frame counts may be apart, and
what of a fault counts. The texts may differ where no reader sees it, and the numbers of faults with
them.
-/
namespace TileDeck

open Markup

def Markup.Fault.unnumbered (fault : Fault) : Fault := { fault with line := 0 }

namespace Primitive

inductive Like (times : Nat → Nat → Prop) : Primitive → Primitive → Prop
  | same (p : Primitive) : Like times p p
  | timer {frame frame' : Nat} (h : times frame frame') : Like times (.timer frame) (.timer frame')

theorem like_self (times : Nat → Nat → Prop) (ps : List Primitive) :
    List.Forall₂ (Like times) ps ps :=
  List.forall₂_same.2 fun p _ => .same p

theorem Like.eq {p p' : Primitive} (h : Like Eq p p') : p = p' := by
  cases h with
  | same => rfl
  | timer h => rw [h]

end Primitive

variable {σ τ : Type}

theorem Surface.performAll_alike [Surface σ] [Surface τ] {times : Nat → Nat → Prop}
    {R : σ → τ → Prop}
    (hdrawn : ∀ p p' s s', p.Like times p' → R s s' → R (perform p s) (perform p' s'))
    {ps ps' : List Primitive} (hp : List.Forall₂ (Primitive.Like times) ps ps') {s : σ} {s' : τ}
    (h : R s s') : R (performAll ps s) (performAll ps' s') := by
  induction hp generalizing s s' with
  | nil => exact h
  | cons hlike _ ih => exact ih (hdrawn _ _ _ _ hlike h)

/-- How two shows are compared, each with its own pad and display. -/
structure Comparison (σ τ : Type) where
  /-- The pads and displays that go together. -/
  joined : Remote → σ → Remote → τ → Prop
  /-- The frame counts that go together. -/
  times : Nat → Nat → Prop
  /-- What is seen of a fault. -/
  look : Fault → Fault

namespace Comparison

def Blind (c : Comparison σ τ) : Prop := ∀ fault n, c.look { fault with line := n } = c.look fault

/-- Two stages that differ in their pads and displays, which go together, and in frames and faults
as far as the comparison lets them. -/
structure Agree (c : Comparison σ τ) (s : Stage σ) (t : Stage τ) : Prop where
  joined : c.joined s.remote s.surface t.remote t.surface
  untimed : s.position.untimed = t.position.untimed
  baseline : c.times s.position.timerBaseline t.position.timerBaseline
  cursor : s.cursor = t.cursor
  ink : s.ink = t.ink
  faults : s.faults.map c.look = t.faults.map c.look

theorem parse_looks (c : Comparison σ τ) {line line' : String}
    (hl : ∀ n, Line.parse n line = Line.parse n line') {m n : Nat} (hn : m = n ∨ c.Blind) :
    (∃ fault fault', Line.parse m line = .error fault ∧ Line.parse n line' = .error fault' ∧
      c.look fault = c.look fault') ∨
    ∃ read, Line.parse m line = .ok read ∧ Line.parse n line' = .ok read := by
  cases hp : Line.parse n line' with
  | ok read => exact .inr ⟨read, by rw [hl, Line.parse_ok_number m hp], rfl⟩
  | error fault =>
    left
    -- the number of a line goes into the fault only, where a blind comparison does not see it
    rcases hn with rfl | hb
    · exact ⟨fault, fault, by rw [hl, hp], rfl, rfl⟩
    · refine ⟨{ fault with line := m }, fault, ?_, rfl, hb fault m⟩
      rw [hl, Line.parse_number n m, hp]
      rfl

variable [Surface σ] [Surface τ]

/-- What goes together goes on together: the pads stop together and answer every wait alike, whatever
is drawn on both displays. The only thing drawn while waiting is the background, scrolling. -/
structure Lawful (c : Comparison σ τ) : Prop where
  drawn : ∀ (p p' : Primitive) (r : Remote) (s : σ) (r' : Remote) (s' : τ), p.Like c.times p' →
    c.joined r s r' s' → c.joined r (Surface.perform p s) r' (Surface.perform p' s')
  waited : ∀ (idle : List Primitive) (r : Remote) (s : σ) (r' : Remote) (s' : τ),
    (∀ p ∈ idle, p = .scrollBackground 1) → c.joined r s r' s' →
      (r.await idle s).1 = (r'.await idle s').1 ∧
        c.joined (r.await idle s).2.1 (r.await idle s).2.2 (r'.await idle s').2.1
          (r'.await idle s').2.2
  frames : ∀ (r : Remote) (s : σ) (r' : Remote) (s' : τ), c.joined r s r' s' →
    c.times (Surface.frames s) (Surface.frames s')
  finished : ∀ (r : Remote) (s : σ) (r' : Remote) (s' : τ), c.joined r s r' s' →
    r.pad.finished = r'.pad.finished

theorem Lawful.of_displays {R : σ → τ → Prop} {times : Nat → Nat → Prop} {look : Fault → Fault}
    (hdrawn : ∀ p p' s s', p.Like times p' → R s s' →
      R (Surface.perform p s) (Surface.perform p' s'))
    (hframe : ∀ s s', R s s' → R (Surface.nextFrame s) (Surface.nextFrame s'))
    (htimes : ∀ s s', R s s' → times (Surface.frames s) (Surface.frames s')) :
    Lawful ⟨fun r s r' s' => r' = r ∧ R s s', times, look⟩ where
  drawn := by
    rintro p p' r s _ s' hp ⟨rfl, h⟩
    exact ⟨rfl, hdrawn p p' s s' hp h⟩
  waited := by
    rintro idle r s _ s' _ ⟨rfl, h⟩
    refine Remote.await_alike R (fun s s' h => hframe _ _ ?_) _ h
    exact Surface.performAll_alike hdrawn (Primitive.like_self times idle) h
  frames := by
    rintro r s _ s' ⟨_, h⟩
    exact htimes s s' h
  finished := by
    rintro r s _ s' ⟨rfl, _⟩
    rfl

section Agree
variable {c : Comparison σ τ} (C : c.Lawful) {s : Stage σ} {t : Stage τ}

omit [Surface σ] [Surface τ] in
theorem Agree.withCursor (h : c.Agree s t) (cursor : Page.Cursor) :
    c.Agree { s with cursor := cursor } { t with cursor := cursor } :=
  ⟨h.joined, h.untimed, h.baseline, rfl, h.ink, h.faults⟩

omit [Surface σ] [Surface τ] in
theorem Agree.withPosition (h : c.Agree s t) {p q : Position} (hu : p.untimed = q.untimed)
    (hb : c.times p.timerBaseline q.timerBaseline) :
    c.Agree { s with position := p } { t with position := q } :=
  ⟨h.joined, hu, hb, h.cursor, h.ink, h.faults⟩

include C

theorem agree_draw (h : c.Agree s t) {ps ps' : List Primitive}
    (hp : List.Forall₂ (Primitive.Like c.times) ps ps') : c.Agree (s.draw ps) (t.draw ps') := by
  refine ⟨?_, h.untimed, h.baseline, h.cursor, h.ink, h.faults⟩
  exact Surface.performAll_alike (R := fun a b => c.joined s.remote a t.remote b)
    (fun p p' a b hlike hj => C.drawn p p' _ a _ b hlike hj) hp h.joined

theorem agree_draw_self (h : c.Agree s t) (ps : List Primitive) : c.Agree (s.draw ps) (t.draw ps) :=
  agree_draw C h (Primitive.like_self c.times ps)

theorem agree_await (h : c.Agree s t) {idle : List Primitive}
    (hi : ∀ p ∈ idle, p = .scrollBackground 1) :
    (s.await idle).1 = (t.await idle).1 ∧ c.Agree (s.await idle).2 (t.await idle).2 := by
  obtain ⟨ht, hj⟩ := C.waited idle _ _ _ _ hi h.joined
  exact ⟨ht, hj, h.untimed, h.baseline, h.cursor, h.ink, h.faults⟩

theorem agree_endOnTurn (h : c.Agree s t) {idle : List Primitive}
    (hi : ∀ p ∈ idle, p = .scrollBackground 1) :
    (Page.endOnTurn idle s).1 = (Page.endOnTurn idle t).1 ∧
      c.Agree (Page.endOnTurn idle s).2 (Page.endOnTurn idle t).2 := by
  obtain ⟨ht, ha⟩ := agree_await C h hi
  exact ⟨congrArg Page.Flow.ended ht, ha⟩

theorem agree_pause (h : c.Agree s t) :
    (Page.pause s).1 = (Page.pause t).1 ∧ c.Agree (Page.pause s).2 (Page.pause t).2 := by
  obtain ⟨ht, ha⟩ := agree_await C h (List.forall_mem_nil _)
  rw [Page.pause_flow, Page.pause_flow, Page.pause_await, Page.pause_await, ht]
  exact ⟨rfl, ha⟩

theorem agree_initProgress (h : c.Agree s t) :
    c.Agree (Page.initProgress s) (Page.initProgress t) := by
  have hu : s.position.markStart.untimed = t.position.markStart.untimed :=
    congrArg Position.markStart h.untimed
  have hp : s.position.markStart.progress? = t.position.markStart.progress? := by
    rw [← Position.progress?_untimed, hu, Position.progress?_untimed]
  unfold Page.initProgress
  dsimp only
  rw [hp]
  exact (agree_draw_self C h _).withPosition hu h.baseline

theorem agree_resetTimer (h : c.Agree s t) : c.Agree (Page.resetTimer s) (Page.resetTimer t) := by
  have hf : c.times (Surface.frames s.surface) (Surface.frames t.surface) :=
    C.frames _ _ _ _ h.joined
  have hd : c.Agree (s.draw [.timer (Surface.frames s.surface)])
      (t.draw [.timer (Surface.frames t.surface)]) := agree_draw C h (.cons (.timer hf) .nil)
  have hu : (s.position.untimed.resetTimer 0) = (t.position.untimed.resetTimer 0) := by
    rw [h.untimed]
  exact hd.withPosition hu hf

theorem agree_execute (options : Options) (h : c.Agree s t) (command : Command) :
    (Page.execute options s command).1 = (Page.execute options t command).1 ∧
      c.Agree (Page.execute options s command).2 (Page.execute options t command).2 := by
  have hdraw := fun ps => agree_draw_self C h ps
  cases command with
  | pause => exact agree_pause C h
  | titleScreen => exact agree_endOnTurn C (hdraw [.titleScreen]) (List.forall_mem_nil _)
  | demoGame => exact agree_endOnTurn C (hdraw [.demoGame]) (List.forall_mem_nil _)
  | scroll => exact agree_endOnTurn C h (by simp)
  | text x y bg text => exact ⟨rfl, (hdraw (Page.textLine x y bg text)).withCursor _⟩
  | textPalette id =>
    have hd := hdraw [.textPalette id]
    exact ⟨rfl, hd.joined, hd.untimed, hd.baseline, hd.cursor, rfl, hd.faults⟩
  | code x y code =>
    have hd := (hdraw (Page.codeLine options s.ink x y code)).withCursor (.enter .code x y)
    refine ⟨rfl, ?_⟩
    simp only [Page.execute, ← h.ink]
    exact hd
  | initProgress => exact ⟨rfl, agree_initProgress C h⟩
  | hideProgress =>
    exact ⟨rfl, (hdraw [.hideProgress]).withPosition (congrArg Position.clearStart h.untimed)
      h.baseline⟩
  | resetTimer => exact ⟨rfl, agree_resetTimer C h⟩
  | hideTimer =>
    exact ⟨rfl, (hdraw [.hideTimer]).withPosition (congrArg Position.hideTimer h.untimed)
      h.baseline⟩
  | _ => exact ⟨rfl, hdraw _⟩

theorem agree_proceed (options : Options) (h : c.Agree s t) (text : String) :
    c.Agree (Page.proceed options text s) (Page.proceed options text t) := by
  unfold Page.proceed
  rw [← h.cursor, ← h.ink]
  split
  · exact h
  · exact (agree_draw_self C h _).withCursor _
  · exact (agree_draw_self C h _).withCursor _

theorem agree_showLine (options : Options) (h : c.Agree s t) {line line' : String}
    (hl : ∀ n, Line.parse n line = Line.parse n line') {m n : Nat} (hn : m = n ∨ c.Blind) :
    (Page.showLine options m line s).1 = (Page.showLine options n line' t).1 ∧
      c.Agree (Page.showLine options m line s).2 (Page.showLine options n line' t).2 := by
  unfold Page.showLine
  rcases parse_looks c hl hn with ⟨fault, fault', hp, hp', hlook⟩ | ⟨read, hp, hp'⟩
  · rw [hp, hp']
    refine ⟨rfl, h.joined, h.untimed, h.baseline, h.cursor, h.ink, ?_⟩
    change (s.faults ++ [fault]).map c.look = (t.faults ++ [fault']).map c.look
    rw [List.map_append, List.map_append, h.faults, List.map_singleton, hlook]
    rfl
  · rw [hp, hp']
    cases read with
    | comment => exact ⟨rfl, h⟩
    | continuation text => exact ⟨rfl, agree_proceed C options h text⟩
    | command command =>
      have hleft := h.withCursor s.cursor.leave
      rw [h.cursor] at hleft
      refine agree_execute C options ?_ command
      rw [h.cursor]
      exact hleft

theorem agree_showLines (options : Options) {lines lines' : List String}
    (hl : List.Forall₂ (fun line line' => ∀ n, Line.parse n line = Line.parse n line') lines lines')
    (h : c.Agree s t) {m n : Nat} (hn : m = n ∨ c.Blind) :
    (Page.showLines options m s lines).1 = (Page.showLines options n t lines').1 ∧
      c.Agree (Page.showLines options m s lines).2 (Page.showLines options n t lines').2 := by
  induction hl generalizing s t m n with
  | nil => exact ⟨rfl, h⟩
  | @cons line line' rest rest' hline _ ih =>
    obtain ⟨hf, ha⟩ := agree_showLine C options h hline hn
    have hnext : m + 1 = n + 1 ∨ c.Blind := hn.imp_left (congrArg (· + 1))
    -- both lines go on or both end the page, since they answer alike
    rcases Page.showLine_cases options m line s with ⟨next, hs⟩ | ⟨turn, next, hs⟩ <;>
      rcases Page.showLine_cases options n line' t with ⟨next', ht⟩ | ⟨turn', next', ht⟩ <;>
      rw [hs, ht] at hf ha
    · rw [Page.showLines_onward hs, Page.showLines_onward ht]
      exact ih ha hnext
    · cases hf
    · cases hf
    · rw [Page.showLines_ended hs, Page.showLines_ended ht]
      exact ⟨hf, ha⟩

end Agree

end Comparison

/-- Two texts whose lines read the same, but for lines at the top of each that go on with nothing. -/
def Page.SameLines (text text' : String) : Prop :=
  ∃ top rest top' rest', Page.scriptLines text = top ++ rest ∧
    Page.scriptLines text' = top' ++ rest' ∧
    (∀ line ∈ top, (Line.continuation? line).isSome) ∧
    (∀ line ∈ top', (Line.continuation? line).isSome) ∧
    List.Forall₂ (fun line line' => ∀ n, Line.parse n line = Line.parse n line') rest rest'

namespace Comparison

variable [Surface σ] [Surface τ]

def SameText (c : Comparison σ τ) (text text' : String) : Prop :=
  text = text' ∨ c.Blind ∧ Page.SameLines text text'

theorem agree_showPage {c : Comparison σ τ} (C : c.Lawful) (options : Options)
    {text text' : String} (ht : c.SameText text text') {s : Stage σ} {t : Stage τ}
    (h : c.Agree s t) :
    (Page.showPage options text s).1 = (Page.showPage options text' t).1 ∧
      c.Agree (Page.showPage options text s).2 (Page.showPage options text' t).2 := by
  have hopen : c.Agree { s with cursor := .home, faults := [] }
      { t with cursor := .home, faults := [] } :=
    ⟨h.joined, h.untimed, h.baseline, rfl, h.ink, rfl⟩
  unfold Page.showPage
  rcases ht with rfl | ⟨hb, top, rest, top', rest', hl, hl', htop, htop', hrest⟩
  · exact agree_showLines C options (List.forall₂_same.2 fun _ _ _ => rfl) hopen (.inl rfl)
  · rw [hl, hl', Page.showLines_append (Page.showLines_idle options 1 htop rfl),
      Page.showLines_append (Page.showLines_idle options 1 htop' rfl)]
    exact agree_showLines C options hrest hopen (.inr hb)

end Comparison

end TileDeck
