import TileDeck.Position

set_option autoImplicit false

namespace TileDeck

/-- Where a turn leads from a page. -/
def Turn.move (pages index : Nat) : Turn → Nat
  | .forward => min (index + 1) (pages - 1)
  | .back => index - 1
  | .reload => index

theorem Turn.move_lt {pages index : Nat} (h : index < pages) (turn : Turn) :
    turn.move pages index < pages := by
  cases turn <;> simp only [move] <;> omega

namespace Position

theorem advance_eq (p : Position) : p.advance = { p with index := p.advance.index } := by
  unfold advance
  split <;> rfl

theorem apply_eq (p : Position) (turn : Turn) :
    p.apply turn = { p with index := (p.apply turn).index } := by
  cases turn with
  | forward => exact p.advance_eq
  | back => rfl
  | reload => rfl

theorem begin_eq (p : Position) : p.begin = { p with index := p.begin.index } := by
  unfold begin
  split
  · exact p.advance_eq
  · rfl

/-- A position without the frame from which its timer counts. -/
def untimed (p : Position) : Position := { p with timerBaseline := 0 }

theorem eq_of_untimed {p q : Position} (h : p.untimed = q.untimed)
    (hb : p.timerBaseline = q.timerBaseline) : p = q := by
  calc
    p = { p.untimed with timerBaseline := p.timerBaseline } := rfl
    _ = { q.untimed with timerBaseline := q.timerBaseline } := by rw [h, hb]
    _ = q := rfl

theorem progress?_untimed (p : Position) : p.untimed.progress? = p.progress? := rfl

theorem untimed_apply (p : Position) (turn : Turn) :
    (p.apply turn).untimed = p.untimed.apply turn := by
  cases turn with
  | forward => by_cases h : p.pages = 0 <;> simp [Position.apply, advance, untimed, h]
  | back => rfl
  | reload => rfl

theorem timerBaseline_apply (p : Position) (turn : Turn) :
    (p.apply turn).timerBaseline = p.timerBaseline := by
  rw [apply_eq]

theorem apply_before_zero (turn : Turn) : (before 0).apply turn = before 0 := by
  cases turn <;> rfl

/-- The page with some index, of so many pages, is on display. -/
structure OnDisplay (pages index : Nat) (p : Position) : Prop where
  pages_eq : p.pages = pages
  index_eq : p.index = some index
  lt : index < pages

theorem onDisplay_begin {pages : Nat} (h : pages ≠ 0) : OnDisplay pages 0 (before pages).begin where
  pages_eq := by rw [begin_eq]; rfl
  index_eq := by simp [begin, advance, before, h]
  lt := Nat.pos_of_ne_zero h

variable {pages index : Nat} {p : Position}

theorem OnDisplay.apply (h : OnDisplay pages index p) (turn : Turn) :
    OnDisplay pages (turn.move pages index) (p.apply turn) where
  pages_eq := by
    rw [apply_eq]
    exact h.pages_eq
  index_eq := by
    have hp : p.pages ≠ 0 := by have := h.lt; rw [h.pages_eq]; omega
    rw [← h.pages_eq]
    cases turn with
    | forward => simp [Position.apply, advance, Turn.move, h.index_eq, hp]
    | back => simp [Position.apply, retreat, Turn.move, h.index_eq]
    | reload => exact h.index_eq
  lt := turn.move_lt h.lt

/-- A progress that is right while a page is on display: it counts pages of the deck, the one shown
as seen, and leaves those after it. -/
structure Counts (pages index done total : Nat) : Prop where
  pos : 1 ≤ done
  le_total : done ≤ total
  le_pages : total ≤ pages
  left : total - done = pages - (index + 1)

theorem OnDisplay.counts (h : OnDisplay pages index p) {done total : Nat}
    (hp : p.progress? = some (done, total)) : Counts pages index done total := by
  obtain ⟨start, _, hp⟩ := Option.bind_eq_some_iff.1 hp
  rw [h.index_eq, Option.getD_some, h.pages_eq] at hp
  have hlt := h.lt
  split at hp
  · contradiction
  · obtain ⟨rfl, rfl⟩ : index - start + 1 = done ∧ pages - start = total := by simpa using hp
    constructor <;> omega

end Position

end TileDeck
