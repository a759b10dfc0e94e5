import TileDeck.Agrees
import TileDeck.Coordinate

set_option autoImplicit false

/-!
# Reckoning with coordinates

Sums and differences that have no answer where the words would go round: a machine that needs one of
these stops. Functions of the same name that let the words go round give the answer wherever there is
one.
-/
namespace TileDeck

namespace Coordinate

def word? (n : Int) : Option Int32 :=
  if least ≤ n ∧ n ≤ greatest then some (Int32.ofInt n) else none

def sum? (x y : Int32) : Option Int32 := word? (x.toInt + y.toInt)

def difference? (x y : Int32) : Option Int32 := word? (x.toInt - y.toInt)

theorem ofInt_sum (x y : Int32) : Int32.ofInt (x.toInt + y.toInt) = x + y := by
  rw [Int32.ofInt_add, Int32.ofInt_toInt, Int32.ofInt_toInt]

theorem ofInt_difference (x y : Int32) : Int32.ofInt (x.toInt - y.toInt) = x - y := by
  rw [Int32.ofInt_sub, Int32.ofInt_toInt, Int32.ofInt_toInt]

theorem agrees_sum (x y : Int32) : Agrees (sum? x y) (x + y) := by
  rw [← ofInt_sum]
  exact .ite _ _

theorem agrees_difference (x y : Int32) : Agrees (difference? x y) (x - y) := by
  rw [← ofInt_difference]
  exact .ite _ _

end Coordinate

/-- How a number of characters or of rows becomes a word: always, cut to its lowest bits, or only
if it is one. -/
inductive Reckoning
  | checked
  | exact
deriving DecidableEq, Repr

namespace Reckoning

open Coordinate

def count? : Reckoning → Nat → Option Int32
  | checked, n => some (Int32.ofNat n)
  | exact, n => word? n

/-- The coordinate `k` tiles after `x`. -/
def after? (r : Reckoning) (x : Int32) (k : Nat) : Option Int32 := (r.count? k).bind (sum? x)

theorem agrees_count (r : Reckoning) (n : Nat) : Agrees (r.count? n) (Int32.ofNat n) := by
  cases r with
  | checked => exact .always _
  | exact =>
    rw [← Int32.ofInt_eq_ofNat]
    exact .ite _ _

theorem agrees_after (r : Reckoning) (x : Int32) (k : Nat) :
    Agrees (r.after? x k) (x + Int32.ofNat k) :=
  (r.agrees_count k).bind (agrees_sum x _)

end Reckoning

end TileDeck
