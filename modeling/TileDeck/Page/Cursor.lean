import TileDeck.Coordinate
import TileDeck.Colour

set_option autoImplicit false

namespace TileDeck.Page

inductive Mode
  | none
  | text (bg : Option PaletteId)
  | code
deriving DecidableEq, Repr

structure Cursor where
  mode : Mode
  x : Int32
  y : Int32
deriving DecidableEq, Repr

namespace Cursor

def home : Cursor := ⟨.none, 0, 0⟩

/-- The place is kept. -/
def leave (cursor : Cursor) : Cursor := { cursor with mode := .none }

def enter (mode : Mode) (x y : Int32) : Cursor := ⟨mode, x, Coordinate.add y 1⟩

def nextRow (cursor : Cursor) : Cursor := { cursor with y := Coordinate.add cursor.y 1 }

end Cursor

end TileDeck.Page
