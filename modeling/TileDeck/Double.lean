set_option autoImplicit false

namespace TileDeck

/-- The number `significand * 2 ^ exponent`. -/
structure Double where
  significand : Nat
  exponent : Int
deriving DecidableEq, Repr

namespace Double

def precision : Nat := 53

/-- The whole number nearest to `n / unit`, the even one of two that are equally near. -/
def roundDiv (n unit : Nat) : Nat :=
  let q := n / unit
  let r := n % unit
  if 2 * r < unit ∨ 2 * r = unit ∧ q % 2 = 0 then q else q + 1

theorem roundDiv_near (n : Nat) {unit : Nat} (h : 0 < unit) :
    2 * n ≤ 2 * (unit * roundDiv n unit) + unit ∧ 2 * (unit * roundDiv n unit) ≤ 2 * n + unit := by
  have hn := Nat.div_add_mod n unit
  have hr := Nat.mod_lt n h
  unfold roundDiv
  simp only
  split
  · omega
  · rw [Nat.mul_add]
    omega

def nearest (n : Nat) (exponent : Int) : Double :=
  let spare := n.log2 + 1 - precision
  ⟨roundDiv n (1 <<< spare), exponent + spare⟩

/-- One more binary digit that stands for all that was left out behind `n`. It keeps a number off the
ties that it is not on. -/
def withRest (n rest : Nat) : Nat := 2 * n + if rest = 0 then 0 else 1

def ofNat (n : Nat) : Double := nearest n 0

def mul (a b : Double) : Double := nearest (a.significand * b.significand) (a.exponent + b.exponent)

def div (a b : Double) : Double :=
  let shift := b.significand.log2 + precision + 2
  let n := a.significand <<< shift
  nearest (withRest (n / b.significand) (n % b.significand)) (a.exponent - b.exponent - shift - 1)

def squareRoot (n : Nat) : Nat :=
  if n < 2 then n
  else
    let r := 2 * squareRoot (n / 4)
    if (r + 1) * (r + 1) ≤ n then r + 1 else r
termination_by n

theorem squareRoot_bounds (n : Nat) :
    squareRoot n * squareRoot n ≤ n ∧ n < (squareRoot n + 1) * (squareRoot n + 1) := by
  fun_induction squareRoot n with
  | case1 n h =>
    have : n = 0 ∨ n = 1 := by omega
    rcases this with rfl | rfl <;> decide
  | case2 n h r hr ih =>
    refine ⟨hr, ?_⟩
    have hd : n < 4 * ((squareRoot (n / 4) + 1) * (squareRoot (n / 4) + 1)) := by omega
    simp only [r] at hr ⊢
    grind
  | case3 n h r hr ih =>
    refine ⟨?_, by omega⟩
    have hd : 4 * (squareRoot (n / 4) * squareRoot (n / 4)) ≤ n := by omega
    simp only [r]
    grind

/-- The square root is taken of a number with an even exponent and more than twice the digits. -/
def sqrt (a : Double) : Double :=
  let shift := 2 * precision + 2 + (a.exponent % 2).toNat
  let n := a.significand <<< shift
  let root := squareRoot n
  nearest (withRest root (n - root * root)) ((a.exponent - shift) / 2 - 1)

def floor (a : Double) : Nat :=
  match a.exponent with
  | .ofNat n => a.significand <<< n
  | .negSucc n => a.significand >>> (n + 1)

end Double

end TileDeck
