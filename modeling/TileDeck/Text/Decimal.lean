import TileDeck.Text.Numeral

set_option autoImplicit false

namespace TileDeck.Text

/-- The number `coefficient * 10 ^ exponent`. -/
structure Decimal where
  coefficient : Nat
  exponent : Int
deriving DecidableEq, Repr

namespace Decimal

def ofDigits? (whole fraction : List Char) (exponent : Int) : Option Decimal :=
  (digits? 10 (whole ++ fraction)).map fun n => ⟨n, exponent - fraction.length⟩

/-- The least number that is infinite in double precision. It lies halfway between the greatest
finite word and `2 ^ 1024`, and of the two the latter is even. -/
def infinite : Nat := 1 <<< 1024 - 1 <<< 970

def cutoff : Nat := 309

/-- Whether a number rounds to infinity. Powers are not taken any higher than it takes to tell. -/
def overflows (d : Decimal) : Bool :=
  match d.exponent with
  | .ofNat n => infinite ≤ d.coefficient * Nat.pow 10 (min n cutoff)
  | .negSucc n => infinite * Nat.pow 10 (min (n + 1) (d.coefficient.log2 + 1)) ≤ d.coefficient

theorem tenfold_le {m n : Nat} (h : m ≤ n) : Nat.pow 10 m ≤ Nat.pow 10 n :=
  Nat.pow_le_pow_right (by decide) h

theorem infinite_lt : infinite < Nat.pow 10 cutoff := by decide +kernel

theorem overflows_ofNat (c n : Nat) :
    overflows ⟨c, .ofNat n⟩ = true ↔ infinite ≤ c * Nat.pow 10 n := by
  simp only [overflows, decide_eq_true_eq]
  rcases Nat.le_total n cutoff with h | h
  · rw [Nat.min_eq_left h]
  · rw [Nat.min_eq_right h]
    cases c with
    | zero => simp
    | succ c =>
      have hc : infinite ≤ (c + 1) * Nat.pow 10 cutoff :=
        Nat.le_trans (Nat.le_of_lt infinite_lt) (Nat.le_mul_of_pos_left _ (Nat.succ_pos c))
      exact iff_of_true hc (Nat.le_trans hc (Nat.mul_le_mul_left _ (tenfold_le h)))

theorem overflows_negSucc (c n : Nat) :
    overflows ⟨c, .negSucc n⟩ = true ↔ infinite * Nat.pow 10 (n + 1) ≤ c := by
  simp only [overflows, decide_eq_true_eq]
  rcases Nat.le_total (n + 1) (c.log2 + 1) with h | h
  · rw [Nat.min_eq_left h]
  · rw [Nat.min_eq_right h]
    have hb : 1 ≤ infinite := by decide +kernel
    have hc : c < infinite * Nat.pow 10 (c.log2 + 1) :=
      Nat.lt_of_lt_of_le Nat.lt_log2_self <|
        Nat.le_trans (Nat.pow_le_pow_left (by decide) _) (Nat.le_mul_of_pos_left _ hb)
    exact iff_of_false (Nat.not_le.2 hc)
      (Nat.not_le.2 (Nat.lt_of_lt_of_le hc (Nat.mul_le_mul_left _ (tenfold_le h))))

end Decimal

end TileDeck.Text
