import TileDeck.Primitive

set_option autoImplicit false

namespace TileDeck

structure Arrow where
  x : Int32
  y : Int32
  direction : Direction
  length : Nat
  branches : Bool
deriving DecidableEq, Repr

namespace Arrow

/-- The tile after `(x, y)`; at the end of the range it is the same one again. -/
def advance (d : Direction) : Int32 × Int32 → Int32 × Int32
  | (x, y) => (Coordinate.add x d.step.1, Coordinate.add y d.step.2)

def shaft (d : Direction) : Nat → Int32 × Int32 → List Primitive
  | 0, (x, y) => [.arrowhead x y d]
  | n + 1, (x, y) => .rule x y d.orientation :: shaft d n (advance d (x, y))

def draw (a : Arrow) : List Primitive :=
  match a.branches, a.length - 1 with
  | true, n + 1 => .junction a.x a.y a.direction :: shaft a.direction n (advance a.direction (a.x, a.y))
  | _, n => shaft a.direction n (a.x, a.y)

end Arrow

end TileDeck
