import Mathlib.Data.List.Nodup
import TileDeck.Proofs.Answers
import TileDeck.Reckoning

set_option autoImplicit false

namespace TileDeck.Coordinate

theorem word?_eq_some {n : Int} {w : Int32} : word? n = some w ↔ w.toInt = n := by
  unfold word?
  constructor
  · intro h
    split at h
    · rename_i hn
      obtain rfl := Option.some.inj h
      unfold least greatest at hn
      exact Int32.toInt_ofInt_of_le (by omega) (by omega)
    · cases h
  · rintro rfl
    rw [if_pos ⟨w.le_toInt, by unfold greatest; have := w.toInt_lt; omega⟩, Int32.ofInt_toInt]

theorem toInt_ofInt {n : Int} (hl : least ≤ n) (hg : n ≤ greatest) : (Int32.ofInt n).toInt = n :=
  word?_eq_some.1 (if_pos ⟨hl, hg⟩)

variable {x y : Int32} {n k : Nat}

theorem answers_sum (x y : Int32) :
    Answers (sum? x y) (least ≤ x.toInt + y.toInt ∧ x.toInt + y.toInt ≤ greatest) (x + y) := by
  rw [← ofInt_sum]
  exact .ite _ _

theorem sum?_of_le (hl : least ≤ x.toInt + y.toInt) (hg : x.toInt + y.toInt ≤ greatest) :
    sum? x y = some (x + y) :=
  (answers_sum x y).of_holds ⟨hl, hg⟩

theorem answers_difference (x y : Int32) :
    Answers (difference? x y) (least ≤ x.toInt - y.toInt ∧ x.toInt - y.toInt ≤ greatest) (x - y) := by
  rw [← ofInt_difference]
  exact .ite _ _

theorem difference?_of_le (hl : least ≤ x.toInt - y.toInt) (hg : x.toInt - y.toInt ≤ greatest) :
    difference? x y = some (x - y) :=
  (answers_difference x y).of_holds ⟨hl, hg⟩

theorem toInt_sub_of_le (hl : least ≤ x.toInt - y.toInt) (hg : x.toInt - y.toInt ≤ greatest) :
    (x - y).toInt = x.toInt - y.toInt :=
  word?_eq_some.1 (difference?_of_le hl hg)

theorem difference?_of_nonneg (hx : 0 ≤ x.toInt) (hy : 0 ≤ y.toInt) :
    difference? x y = some (x - y) := by
  have hxl := x.toInt_lt
  have hyl := y.toInt_lt
  refine difference?_of_le ?_ ?_
  · unfold least
    omega
  · unfold greatest
    omega

theorem toInt_sub_of_nonneg (hx : 0 ≤ x.toInt) (hy : 0 ≤ y.toInt) :
    (x - y).toInt = x.toInt - y.toInt :=
  word?_eq_some.1 (difference?_of_nonneg hx hy)

/-- Halves are rounded towards zero. -/
theorem toInt_half (x : Int32) : (x / 2).toInt = x.toInt.tdiv 2 :=
  Int32.toInt_div_of_ne_right x 2 (by decide)

theorem toInt_max (x y : Int32) : (max x y).toInt = max x.toInt y.toInt := by
  change (if x ≤ y then y else x).toInt = _
  split
  · rename_i h
    rw [Int32.le_iff_toInt_le] at h
    omega
  · rename_i h
    rw [Int32.le_iff_toInt_le] at h
    omega

theorem toInt_ofNat (h : (n : Int) ≤ greatest) : (Int32.ofNat n).toInt = n := by
  rw [← Int32.ofInt_eq_ofNat]
  exact toInt_ofInt (by unfold least; omega) h

theorem answers_count (n : Nat) :
    Answers (Reckoning.exact.count? n) ((n : Int) ≤ greatest) (Int32.ofNat n) := by
  rw [← Int32.ofInt_eq_ofNat]
  refine (Answers.ite (least ≤ (n : Int) ∧ (n : Int) ≤ greatest) _).congr ⟨And.right, fun h => ⟨?_, h⟩⟩
  unfold least
  omega

theorem count?_of_le (r : Reckoning) (h : (n : Int) ≤ greatest) :
    r.count? n = some (Int32.ofNat n) := by
  cases r with
  | checked => rfl
  | exact => exact (answers_count n).of_holds h

/-- There are `n` tiles after `x`. -/
structure Room (x : Int32) (n : Nat) : Prop where
  count : (n : Int) ≤ greatest
  last : x.toInt + n ≤ greatest

def Moderate (n : Nat) : Prop := n < 0x40000000

instance (n : Nat) : Decidable (Moderate n) := by
  unfold Moderate
  infer_instance

theorem toInt_of_moderate (h : Moderate n) : (Int32.ofNat n).toInt = n := by
  unfold Moderate at h
  exact toInt_ofNat (by unfold greatest; omega)

theorem room_of_moderate (h : Moderate n) (hk : k ≤ n + 2) (hx : x.toInt ≤ 32767) : Room x k := by
  unfold Moderate at h
  constructor <;> unfold greatest <;> omega

theorem Room.mono (h : Room x n) (hk : k ≤ n) : Room x k := by
  have hc := h.count
  have hl := h.last
  constructor <;> omega

theorem sum?_ofNat {m : Nat} (h : ((m + n : Nat) : Int) ≤ greatest) :
    sum? (Int32.ofNat m) (Int32.ofNat n) = some (Int32.ofNat (m + n)) := by
  have hm := @toInt_ofNat m (by omega)
  have hn := @toInt_ofNat n (by omega)
  rw [Int32.ofNat_add]
  refine sum?_of_le ?_ ?_
  · unfold least
    omega
  · omega

theorem answers_sum_count (hn : (n : Int) ≤ greatest) :
    Answers (sum? x (Int32.ofNat n)) (Room x n) (x + Int32.ofNat n) := by
  refine (answers_sum _ _).congr ?_
  have hx : least ≤ x.toInt := x.le_toInt
  rw [toInt_ofNat hn]
  constructor
  · exact fun h => ⟨hn, h.2⟩
  · exact fun h => ⟨by omega, h.last⟩

/-- A count need not be a coordinate for its sum to be one. -/
theorem toInt_add_ofNat (h : x.toInt + n ≤ greatest) :
    (x + Int32.ofNat n).toInt = x.toInt + n := by
  have hx : least ≤ x.toInt := x.le_toInt
  have hsum : x + Int32.ofNat n = Int32.ofInt (x.toInt + n) := by
    rw [Int32.ofInt_add, Int32.ofInt_toInt, Int32.ofInt_eq_ofNat]
  unfold least at hx
  unfold greatest at h
  rw [hsum]
  exact Int32.toInt_ofInt_of_le (by omega) (by omega)

theorem toInt_after (h : Room x n) : (x + Int32.ofNat n).toInt = x.toInt + n :=
  toInt_add_ofNat h.last

theorem room_zero (x : Int32) : Room x 0 := by
  have hx := x.toInt_lt
  constructor <;> unfold greatest <;> omega

theorem forall_room_iff : (∀ k < n, Room x k) ↔ Room x (n - 1) := by
  constructor
  · intro h
    cases n with
    | zero => exact room_zero x
    | succ n => exact h n (Nat.lt_succ_self n)
  · exact fun h k hk => h.mono (Nat.le_sub_one_of_lt hk)

theorem Room.after (h : Room x (k + n)) : Room (x + Int32.ofNat k) n := by
  have hk : Room x k := h.mono (by omega)
  have hc := h.count
  have hl := h.last
  constructor
  · omega
  · rw [toInt_after hk]
    omega

theorem room_after_iff (hc : ((k + n : Nat) : Int) ≤ greatest) :
    Room x k ∧ Room (x + Int32.ofNat k) n ↔ Room x (k + n) := by
  constructor
  · rintro ⟨hk, hn⟩
    have hl := hn.last
    rw [toInt_after hk] at hl
    exact ⟨hc, by omega⟩
  · exact fun h => ⟨h.mono (Nat.le_add_right k n), h.after⟩

theorem toInt_ofInt_emod {m : Int} (hm : m ∣ (Int32.size : Nat)) (n : Int) :
    (Int32.ofInt n).toInt % m = n % m := by
  have hround : (Int32.ofInt n).toInt % (Int32.size : Nat) = n % (Int32.size : Nat) := by
    rw [Int32.toInt_ofInt, Int.bmod_emod]
  rw [← Int.emod_emod_of_dvd _ hm, hround, Int.emod_emod_of_dvd _ hm]

theorem toInt_clamp (n : Int) : (clamp n).toInt = max least (min greatest n) := by
  unfold clamp
  rw [toInt_ofInt]
  · omega
  · unfold least greatest
    omega

theorem toInt_add (x y : Int32) :
    (add x y).toInt = max least (min greatest (x.toInt + y.toInt)) :=
  toInt_clamp _

theorem add_clamp_of_nonneg {m : Int} (hm : least ≤ m) (hx : 0 ≤ x.toInt) :
    add (clamp m) x = clamp (m + x.toInt) := by
  rw [← Int32.toInt_inj, toInt_add, toInt_clamp, toInt_clamp]
  unfold least greatest at *
  omega

theorem add_clamp_of_nonpos {m : Int} (hm : m ≤ greatest) (hx : x.toInt ≤ 0) :
    add (clamp m) x = clamp (m + x.toInt) := by
  rw [← Int32.toInt_inj, toInt_add, toInt_clamp, toInt_clamp]
  unfold least greatest at *
  omega

/-- Equal additions that stop at the ends, one after the other, are one exact sum that is cut off
once. -/
theorem add_clamp_mul (x step : Int32) (k : Nat) :
    add (clamp (x.toInt + k * step.toInt)) step = clamp (x.toInt + (k + 1 : Nat) * step.toInt) := by
  have hl : least ≤ x.toInt := x.le_toInt
  have hg := x.toInt_lt
  have hnext : x.toInt + (k + 1 : Nat) * step.toInt = x.toInt + k * step.toInt + step.toInt := by
    rw [Int.natCast_succ, Int.add_mul, Int.one_mul, Int.add_assoc]
  rw [hnext]
  -- the sign of the step tells at which end the sums are cut off
  rcases Int.le_total 0 step.toInt with hs | hs
  · have hk : 0 ≤ k * step.toInt := Int.mul_nonneg (Int.natCast_nonneg k) hs
    exact add_clamp_of_nonneg (by omega) hs
  · have hk : k * step.toInt ≤ 0 := Int.mul_nonpos_of_nonneg_of_nonpos (Int.natCast_nonneg k) hs
    refine add_clamp_of_nonpos ?_ hs
    unfold greatest
    omega

theorem clamp_toInt (x : Int32) : clamp x.toInt = x := by
  have hl : least ≤ x.toInt := x.le_toInt
  have hg := x.toInt_lt
  rw [← Int32.toInt_inj, toInt_clamp]
  unfold greatest
  omega

theorem toInt_add_of_le (hl : least ≤ x.toInt + y.toInt) (hg : x.toInt + y.toInt ≤ greatest) :
    (add x y).toInt = x.toInt + y.toInt := by
  rw [toInt_add]
  omega

theorem toInt_add_one (h : x.toInt < y.toInt) : (add x 1).toInt = x.toInt + 1 := by
  have hx : least ≤ x.toInt := x.le_toInt
  have hy := y.toInt_lt
  have hone : (1 : Int32).toInt = 1 := rfl
  rw [toInt_add_of_le, hone]
  · omega
  · unfold greatest
    omega

variable {low high : Int32}

theorem toInt_span_element {k : Nat} (h : k < (high.toInt - low.toInt).toNat) :
    (Int32.ofInt (low.toInt + k)).toInt = low.toInt + k := by
  have hl : least ≤ low.toInt := low.le_toInt
  have hh := high.toInt_lt
  refine toInt_ofInt ?_ ?_
  · omega
  · unfold greatest
    omega

theorem mem_span : x ∈ span low high ↔ low.toInt ≤ x.toInt ∧ x.toInt < high.toInt := by
  unfold span
  rw [List.mem_map]
  constructor
  · rintro ⟨k, hk, rfl⟩
    rw [List.mem_range] at hk
    rw [toInt_span_element hk]
    omega
  · intro h
    have hk : low.toInt + ((x.toInt - low.toInt).toNat : Int) = x.toInt := by omega
    refine ⟨(x.toInt - low.toInt).toNat, List.mem_range.2 (by omega), ?_⟩
    rw [hk, Int32.ofInt_toInt]

theorem nodup_span (low high : Int32) : (span low high).Nodup := by
  refine List.nodup_range.map_on fun j hj k hk h => ?_
  rw [← Int32.toInt_inj, toInt_span_element (List.mem_range.1 hj),
    toInt_span_element (List.mem_range.1 hk)] at h
  omega

end TileDeck.Coordinate

namespace TileDeck.Reckoning

open Coordinate

variable (r : Reckoning) {x : Int32} {n : Nat}

def Reaches : Reckoning → Int32 → Nat → Prop
  | checked, x, n =>
    least ≤ x.toInt + (Int32.ofNat n).toInt ∧ x.toInt + (Int32.ofNat n).toInt ≤ greatest
  | exact, x, n => Room x n

theorem answers_after (x : Int32) (n : Nat) :
    Answers (r.after? x n) (r.Reaches x n) (x + Int32.ofNat n) := by
  cases r with
  | checked => exact answers_sum x (Int32.ofNat n)
  | exact =>
    refine ((answers_count n).bind fun hn => answers_sum_count hn).congr ?_
    exact ⟨And.right, fun h => ⟨h.count, h⟩⟩

theorem reaches_iff (h : (n : Int) ≤ greatest) : r.Reaches x n ↔ Room x n := by
  have hx : least ≤ x.toInt := x.le_toInt
  cases r with
  | checked =>
    rw [Reaches, toInt_ofNat h]
    exact ⟨fun hr => ⟨h, hr.2⟩, fun hr => ⟨by omega, hr.last⟩⟩
  | exact => exact Iff.rfl

theorem forall_reaches_iff (h : ((n - 1 : Nat) : Int) ≤ greatest) :
    (∀ k < n, r.Reaches x k) ↔ Room x (n - 1) := by
  rw [← forall_room_iff]
  exact forall₂_congr fun k hk => r.reaches_iff (by omega)

theorem after?_of_room (h : Room x n) : r.after? x n = some (x + Int32.ofNat n) :=
  (r.answers_after x n).of_holds ((r.reaches_iff h.count).2 h)

end TileDeck.Reckoning
