import TileDeck.Proofs.Coordinate
import TileDeck.Shape.Arrow

set_option autoImplicit false

namespace TileDeck.Arrow

open Coordinate

def place (a : Arrow) (k : Nat) : Int32 × Int32 :=
  (clamp (a.x.toInt + k * a.direction.step.1.toInt),
    clamp (a.y.toInt + k * a.direction.step.2.toInt))

theorem place_zero (a : Arrow) : a.place 0 = (a.x, a.y) := by
  simp only [place, Int.natCast_zero, Int.zero_mul, Int.add_zero, clamp_toInt]

theorem advance_place (a : Arrow) (k : Nat) :
    advance a.direction (a.place k) = a.place (k + 1) := by
  simp only [advance, place, add_clamp_mul]

def ruleAt (a : Arrow) (k : Nat) : Primitive :=
  .rule (a.place k).1 (a.place k).2 a.direction.orientation

def headAt (a : Arrow) (k : Nat) : Primitive := .arrowhead (a.place k).1 (a.place k).2 a.direction

theorem shaft_place (a : Arrow) (n k : Nat) :
    shaft a.direction n (a.place k) = (List.range' k n).map a.ruleAt ++ [a.headAt (k + n)] := by
  induction n generalizing k with
  | zero => rfl
  | succ n ih =>
    have hlast : k + 1 + n = k + (n + 1) := by omega
    have hnext := ih (k + 1)
    rw [← advance_place, hlast] at hnext
    change a.ruleAt k :: shaft a.direction n (advance a.direction (a.place k)) = _
    rw [hnext, List.range'_succ, List.map_cons, List.cons_append]

/-- What stands on the tile of some number. An arrow of length zero has its head all the same, and
one that is a head only has no place for a junction. -/
def segment (a : Arrow) (k : Nat) : Primitive :=
  if k + 1 = max a.length 1 then a.headAt k
  else if k = 0 ∧ a.branches then .junction (a.place k).1 (a.place k).2 a.direction
  else a.ruleAt k

theorem segment_last (a : Arrow) : a.segment (a.length - 1) = a.headAt (a.length - 1) :=
  if_pos (by omega)

theorem segment_first {a : Arrow} (hb : a.branches) (h : 0 < a.length - 1) :
    a.segment 0 = .junction a.x a.y a.direction := by
  rw [segment, if_neg (by omega), if_pos ⟨rfl, hb⟩, place_zero]

theorem segment_inner {a : Arrow} {k : Nat} (h : k < a.length - 1) (hk : k = 0 → ¬a.branches) :
    a.segment k = a.ruleAt k := by
  rw [segment, if_neg (by omega), if_neg fun hj => hk hj.1 hj.2]

theorem map_segment {a : Arrow} {k n : Nat} (hk : k = 0 → 0 < n → ¬a.branches)
    (hn : k + n ≤ a.length - 1) :
    (List.range' k n).map a.segment = (List.range' k n).map a.ruleAt := by
  refine List.map_congr_left fun j hj => ?_
  rw [List.mem_range'_1] at hj
  exact segment_inner (by omega) fun hfirst => hk (by omega) (by omega)

theorem draw_branch {a : Arrow} {n : Nat} (hb : a.branches) (hn : a.length - 1 = n + 1) :
    a.draw = .junction a.x a.y a.direction :: shaft a.direction n (a.place 1) := by
  rw [← advance_place, place_zero]
  unfold draw
  rw [hb, hn]

theorem draw_plain {a : Arrow} (h : a.branches → a.length - 1 = 0) :
    a.draw = shaft a.direction (a.length - 1) (a.place 0) := by
  rw [place_zero]
  unfold draw
  cases hb : a.branches with
  | false => rfl
  | true => rw [h hb]

theorem draw_eq_map (a : Arrow) : a.draw = (List.range (max a.length 1)).map a.segment := by
  have hsize : max a.length 1 = a.length - 1 + 1 := by omega
  rw [hsize, List.range_succ, List.map_append, List.map_singleton, segment_last,
    List.range_eq_range']
  by_cases h : a.branches ∧ a.length - 1 ≠ 0
  · obtain ⟨n, hn⟩ := Nat.exists_eq_succ_of_ne_zero h.2
    rw [draw_branch h.1 hn, hn, List.range'_succ, List.map_cons, segment_first h.1 (by omega),
      map_segment (by omega) (by omega), shaft_place, Nat.add_comm 1 n, List.cons_append]
  · have hplain : a.branches → a.length - 1 = 0 :=
      fun hb => Decidable.not_not.1 fun hn => h ⟨hb, hn⟩
    have hrules : 0 < a.length - 1 → ¬a.branches := fun hn hb => by
      rw [hplain hb] at hn
      exact Nat.lt_irrefl 0 hn
    rw [draw_plain hplain, map_segment (fun _ => hrules) (by omega), shaft_place, Nat.zero_add]

/-- An arrow has as many tiles as it is long, at least one. On the last one is its head. On the
first one is a junction if the arrow branches off and is longer than its head, and on all others are
rules. -/
theorem draw_segments (a : Arrow) :
    a.draw.length = max a.length 1 ∧
    (∀ k < max a.length 1, a.draw[k]? = some (a.segment k)) ∧
    (a.draw.head? = some (.junction a.x a.y a.direction) ↔ a.branches ∧ 2 ≤ a.length) := by
  have hlength : a.draw.length = max a.length 1 := by
    rw [draw_eq_map, List.length_map, List.length_range]
  have hget : ∀ k < max a.length 1, a.draw[k]? = some (a.segment k) := by
    intro k hk
    rw [draw_eq_map, List.getElem?_map, List.getElem?_range hk]
    rfl
  refine ⟨hlength, hget, ?_⟩
  rw [List.head?_eq_getElem?, hget 0 (by omega), Option.some_inj]
  constructor
  · intro h
    unfold segment at h
    split at h
    · cases h
    · split at h
      · rename_i hone hfirst
        exact ⟨hfirst.2, by omega⟩
      · cases h
  · rintro ⟨hb, hlong⟩
    exact segment_first hb (by omega)

theorem stopped_segments :
    let a : Arrow := ⟨0x7FFFFFFE, -3, .right, 4, true⟩
    2 < max a.length 1 ∧ a.draw.length = 4 ∧ a.draw[2]? = some (.rule 0x7FFFFFFF (-3) .horizontal) ∧
      a.draw.head? = some (.junction 0x7FFFFFFE (-3) .right) := by
  intro a
  have hthird : 2 < max a.length 1 := by decide
  obtain ⟨hlength, hsegments, hfirst⟩ := draw_segments a
  exact ⟨hthird, hlength, (hsegments 2 hthird).trans (by decide), hfirst.2 (by decide)⟩

end TileDeck.Arrow
