import TileDeck.Proofs.Coordinate
import TileDeck.Proofs.Plane.Clearing
import TileDeck.Terminal.Reckoned

set_option autoImplicit false

namespace TileDeck

open Coordinate

namespace Reckoning

variable (r : Reckoning)

theorem answers_putChars (x y : Int32) (k : Nat) (text : List Char) (plane : Plane) :
    Answers (r.putChars x y k text plane) (∀ j < text.length, r.Reaches x (k + j))
      (Plane.putChars x y k text plane) := by
  induction text generalizing k plane with
  | nil =>
    exact (Answers.always plane).congr (iff_of_true trivial fun j hj => absurd hj j.not_lt_zero)
  | cons c rest ih =>
    refine Answers.congr ((r.answers_after x k).bind fun _ => ih _ _) ?_
    simp only [List.length_cons, Nat.forall_lt_succ_left, Nat.add_zero, Nat.add_assoc, Nat.add_comm 1]

theorem answers_putText (x y : Int32) (text : String) (plane : Plane) :
    Answers (r.putText x y text plane) (∀ k < text.length, r.Reaches x k)
      (plane.putText x y text) := by
  refine (r.answers_putChars x y 0 text.toList plane).congr ?_
  simp only [Nat.zero_add, String.length_toList]

theorem answers_putRows (x y : Int32) (k : Nat) (rows : List String) (plane : Plane) :
    Answers (r.putRows x y k rows plane)
      ((∀ j < rows.length, r.Reaches y (k + j)) ∧
        ∀ row ∈ rows, ∀ j < row.length, r.Reaches x j)
      (Terminal.putRows x y k rows plane) := by
  induction rows generalizing k plane with
  | nil =>
    refine (Answers.always plane).congr (iff_of_true trivial ⟨fun j hj => ?_, ?_⟩)
    · exact absurd hj j.not_lt_zero
    · exact List.forall_mem_nil _
  | cons row rest ih =>
    refine Answers.congr ((r.answers_after y k).bind fun _ =>
      (r.answers_putText x _ row plane).bind fun _ => ih _ _) ?_
    simp only [List.length_cons, Nat.forall_lt_succ_left, Nat.add_zero, Nat.add_assoc,
      Nat.add_comm 1, List.forall_mem_cons]
    exact ⟨fun ⟨hk, hrow, hrest, hrows⟩ => ⟨⟨hk, hrest⟩, hrow, hrows⟩,
      fun ⟨⟨hk, hrest⟩, hrow, hrows⟩ => ⟨hk, hrow, hrest, hrows⟩⟩

/-- There is a place for all that an image puts on a terminal: for each of its rows and for the
characters of each, or for the name of one that is missing. -/
def ImageFits (gallery : Gallery) (x y : Int32) (name : String) : Prop :=
  match gallery.get? name with
  | some rows =>
    (∀ k < rows.length, r.Reaches y k) ∧ ∀ row ∈ rows, ∀ k < row.length, r.Reaches x k
  | none => ∀ k < name.length + 2, r.Reaches x k

theorem length_bracketed (name : String) : (s!"[{name}]").length = name.length + 2 := by
  change ("[" ++ name ++ "]").length = name.length + 2
  rw [String.length_append, String.length_append, Nat.add_comm "[".length]
  rfl

theorem answers_putImage (gallery : Gallery) (x y : Int32) (name : String) (plane : Plane) :
    Answers (r.putImage gallery x y name plane) (r.ImageFits gallery x y name)
      (Terminal.putImage gallery x y name plane) := by
  unfold putImage Terminal.putImage ImageFits
  cases gallery.get? name with
  | some rows =>
    refine (r.answers_putRows x y 0 rows plane).congr ?_
    simp only [Nat.zero_add]
  | none =>
    have htext := r.answers_putText x y s!"[{name}]" plane
    rwa [length_bracketed] at htext

end Reckoning

end TileDeck
