import TileDeck.Primitive

set_option autoImplicit false

namespace TileDeck

structure Tile where
  symbol : Char
  fg : PaletteId
  bg : Option PaletteId
deriving DecidableEq, Repr, Inhabited

def Tile.blank : Tile := ⟨' ', 0, none⟩

inductive Tint
  | reset
  | black
  | rgb (colour : Rgb)
deriving DecidableEq, Repr

structure Style where
  fg : Tint
  bg : Tint
  bold : Bool
deriving DecidableEq, Repr

def Style.untouched : Style := ⟨.reset, .reset, false⟩

structure Cell where
  symbol : Char
  style : Style
deriving DecidableEq, Repr

def Cell.untouched : Cell := ⟨' ', .untouched⟩

structure Span where
  text : List Char
  style : Style
deriving DecidableEq, Repr

namespace Span

def cells (span : Span) : List Cell := span.text.map fun c => ⟨c, span.style⟩

def ofRun? : List Cell → Option Span
  | [] => none
  | c :: rest => some ⟨(c :: rest).map Cell.symbol, c.style⟩

/-- The spans of a row of cells, each as long as can be. -/
def ofCells (row : List Cell) : List Span :=
  (row.splitBy fun c d => c.style == d.style).filterMap ofRun?

end Span

def Orientation.glyph : Orientation → Char
  | horizontal => '─'
  | vertical => '│'

def Corner.glyph : Corner → Char
  | topLeft => '┌'
  | topRight => '┐'
  | bottomLeft => '└'
  | bottomRight => '┘'

/-- The branch of a junction points where the arrow goes. -/
def Direction.junctionGlyph : Direction → Char
  | right => '├'
  | left => '┤'
  | down => '┬'
  | up => '┴'

def Direction.headGlyph : Direction → Char
  | right => '▶'
  | left => '◀'
  | up => '▲'
  | down => '▼'

def QuoteSide.glyph : QuoteSide → Char
  | opening => '“'
  | closing => '”'

end TileDeck
