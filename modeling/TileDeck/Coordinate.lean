set_option autoImplicit false

namespace TileDeck

namespace Coordinate

def least : Int := -0x80000000

def greatest : Int := 0x7FFFFFFF

def clamp (n : Int) : Int32 := Int32.ofInt (max least (min greatest n))

/-- Addition that stops at the ends of the range. -/
def add (x y : Int32) : Int32 := clamp (x.toInt + y.toInt)

def span (low high : Int32) : List Int32 :=
  (List.range (high.toInt - low.toInt).toNat).map fun k : Nat => Int32.ofInt (low.toInt + k)

end Coordinate

end TileDeck
