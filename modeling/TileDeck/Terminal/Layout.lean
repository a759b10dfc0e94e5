import TileDeck.Agrees

set_option autoImplicit false

namespace TileDeck.Terminal

structure Area where
  x : UInt16
  y : UInt16
  width : UInt16
  height : UInt16
deriving DecidableEq, Repr

structure Layout where
  plane : Area
  status : Area
deriving DecidableEq, Repr

def less (a b : UInt16) : UInt16 := if b ≤ a then a - b else 0

def sum? (a b : UInt16) : Option UInt16 :=
  if a.toNat + b.toNat < UInt16.size then some (a + b) else none

def difference? (a b : UInt16) : Option UInt16 := if b ≤ a then some (a - b) else none

theorem agrees_sum (a b : UInt16) : Agrees (sum? a b) (a + b) := .ite _ _

theorem agrees_difference (a b : UInt16) : Agrees (difference? a b) (a - b) := .ite _ _

namespace Layout

/-- The plane gives way where the terminal is small, so that one row is left for the status. Sums may
go round here; a terminal is painted as `place?` says. -/
def place (columns rows width height : UInt16) : Layout :=
  let w := min (columns + 2) width
  let h := min (rows + 2) (less height 1)
  let y := less height (h + 1) / 2
  ⟨⟨(width - w) / 2, y, w, h⟩, ⟨0, min (y + h) (less height 1), width, 1⟩⟩

def place? (columns rows width height : UInt16) : Option Layout := do
  let framed ← sum? columns 2
  let w := min framed width
  let framed ← sum? rows 2
  let h := min framed (less height 1)
  let margin ← difference? width w
  let below ← sum? h 1
  let y := less height below / 2
  let bottom ← sum? y h
  return ⟨⟨margin / 2, y, w, h⟩, ⟨0, min bottom (less height 1), width, 1⟩⟩

theorem agrees_place (columns rows width height : UInt16) :
    Agrees (place? columns rows width height) (place columns rows width height) :=
  (agrees_sum columns 2).bind <| (agrees_sum rows 2).bind <| (agrees_difference width _).bind <|
    (agrees_sum _ 1).bind <| (agrees_sum _ _).bind <| .always _

end Layout

end TileDeck.Terminal
