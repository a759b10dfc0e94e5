import TileDeck.Coordinate
import TileDeck.Colour

set_option autoImplicit false

/-!
# Primitives of a tile display

What a display can be told to do, as data, and the displays that do it. Everything drawn is first
a list of primitives; a `Surface` performs them one after the other.
-/
namespace TileDeck

inductive Direction
  | right
  | left
  | up
  | down
deriving DecidableEq, Repr

inductive Orientation
  | horizontal
  | vertical
deriving DecidableEq, Repr

inductive Corner
  | topLeft
  | topRight
  | bottomLeft
  | bottomRight
deriving DecidableEq, Repr

inductive QuoteSide
  | opening
  | closing
deriving DecidableEq, Repr

/-- The part of a tile that a background covers. An edge tile of a box is covered on the side that
faces the interior only, so that the fill lies under the border and does not pass it. -/
inductive Attachment
  | full
  | top
  | bottom
  | left
  | right
  | corner (corner : Corner)
deriving DecidableEq, Repr

namespace Direction

def step : Direction → Int32 × Int32
  | right => (1, 0)
  | left => (-1, 0)
  | up => (0, -1)
  | down => (0, 1)

def orientation : Direction → Orientation
  | right | left => .horizontal
  | up | down => .vertical

end Direction

inductive Primitive
  | clear
  | text (x y : Int32) (text : String)
  | rule (x y : Int32) (orientation : Orientation)
  | corner (x y : Int32) (corner : Corner)
  | arrowhead (x y : Int32) (direction : Direction)
  | junction (x y : Int32) (direction : Direction)
  | quote (x y : Int32) (side : QuoteSide)
  | image (x y : Int32) (name : String)
  | background (x y : Int32) (palette : PaletteId) (attachment : Attachment)
  | paletteColour (id : PaletteId) (colour : Rgb)
  | textPalette (id : PaletteId)
  | backdrop (id : PaletteId)
  | renderBackground
  | scrollBackground (step : Int32)
  | titleScreen
  | demoGame
  | progress (done total : Nat)
  | hideProgress
  | timer (baseline : Nat)
  | hideTimer
  | sound
  | sleep (frames : UInt32)
deriving DecidableEq, Repr

/-- A display: it performs primitives, shows one frame after the other and counts them. -/
class Surface (σ : Type) where
  perform : Primitive → σ → σ
  nextFrame : σ → σ
  frames : σ → Nat

namespace Surface

variable {σ : Type} [Surface σ]

def performAll (ps : List Primitive) (surface : σ) : σ :=
  ps.foldl (fun surface p => perform p surface) surface

end Surface

end TileDeck
