import TileDeck.Palette
import TileDeck.Plane.Tile
import TileDeck.Text.Blank

set_option autoImplicit false

/-!
# The plane of tiles

A fixed grid of tiles, the palette that their slots refer to, and a layer of dots behind the tiles
that can be shown and scrolled. What is written off the plane is lost. Slots become colours only
when the plane is shown.
-/
namespace TileDeck

structure Plane where
  columns : UInt16
  rows : UInt16
  tiles : Vector Tile (columns.toNat * rows.toNat)
  palette : Palette
  ink : PaletteId
  backdrop : PaletteId
  layered : Bool
  scroll : Int32

namespace Plane

def firstBackdrop : PaletteId := 4

def empty (columns rows : UInt16) : Plane where
  columns := columns
  rows := rows
  tiles := Vector.replicate _ .blank
  palette := .powerOn
  ink := 0
  backdrop := firstBackdrop
  layered := false
  scroll := 0

def Within (plane : Plane) (x y : Int32) : Prop :=
  0 ≤ x.toInt ∧ x.toInt < plane.columns.toNat ∧ 0 ≤ y.toInt ∧ y.toInt < plane.rows.toNat

instance (plane : Plane) (x y : Int32) : Decidable (plane.Within x y) := by
  unfold Within; infer_instance

def index (plane : Plane) (x y : Int32) : Nat := y.toInt.toNat * plane.columns.toNat + x.toInt.toNat

theorem index_lt {plane : Plane} {x y : Int32} (h : plane.Within x y) :
    plane.index x y < plane.columns.toNat * plane.rows.toNat := by
  obtain ⟨hx, hx', hy, hy'⟩ := h
  have hr : y.toInt.toNat + 1 ≤ plane.rows.toNat := by omega
  have hm := Nat.mul_le_mul_right plane.columns.toNat hr
  rw [Nat.add_mul, Nat.one_mul, Nat.mul_comm plane.rows.toNat] at hm
  unfold index
  omega

def tile? (plane : Plane) (x y : Int32) : Option Tile :=
  if h : plane.Within x y then some (plane.tiles[(⟨plane.index x y, index_lt h⟩ : Fin _)]) else none

/-- Change the tile at a place of the plane; there is none elsewhere. -/
def modify (x y : Int32) (f : Tile → Tile) (plane : Plane) : Plane :=
  if h : plane.Within x y then
    { plane with
      tiles := plane.tiles.set (plane.index x y) (f (plane.tiles[(⟨plane.index x y, index_lt h⟩ : Fin _)]))
        (index_lt h) }
  else plane

def put (x y : Int32) (symbol : Char) (plane : Plane) : Plane :=
  plane.modify x y fun tile => { tile with symbol := symbol, fg := plane.ink }

/-- Write characters from a place to the right. -/
def putChars (x y : Int32) : Nat → List Char → Plane → Plane
  | _, [], plane => plane
  | k, c :: rest, plane => putChars x y (k + 1) rest (plane.put (x + Int32.ofNat k) y c)

def putText (x y : Int32) (text : String) (plane : Plane) : Plane := putChars x y 0 text.toList plane

def fill (x y : Int32) (id : PaletteId) (plane : Plane) : Plane :=
  plane.modify x y fun tile => { tile with bg := some id }

/-- Make every tile blank and hide the layer of dots, which stays scrolled as it is. -/
def clear (plane : Plane) : Plane :=
  { plane with tiles := Vector.replicate _ .blank, layered := false }

def setColour (id : PaletteId) (colour : Rgb) (plane : Plane) : Plane :=
  { plane with palette := plane.palette.set id colour }

def setInk (id : PaletteId) (plane : Plane) : Plane := { plane with ink := id }

def setBackdrop (id : PaletteId) (plane : Plane) : Plane := { plane with backdrop := id }

def showLayer (plane : Plane) : Plane := { plane with layered := true }

def scrollLayer (step : Int32) (plane : Plane) : Plane :=
  { plane with layered := true, scroll := plane.scroll + step }

def tint (plane : Plane) (id : PaletteId) : Tint := (plane.palette.colour? id).elim .reset .rgb

def centre (plane : Plane) (length : Nat) : Int32 :=
  max ((Int32.ofNat plane.columns.toNat - Int32.ofNat length) / 2) 0

def middleRow (plane : Plane) : Int32 := Int32.ofNat plane.rows.toNat / 2

def titleRule : Char := '═'

def startHint : String := "press start"

def putRules (plane : Plane) : Plane :=
  (List.range plane.columns.toNat).foldl (fun plane column =>
    (plane.put (Int32.ofNat column) (plane.middleRow - 2) titleRule).put
      (Int32.ofNat column) (plane.middleRow + 2) titleRule) plane

def banner (title : String) : String := s!"  {title}  "

def titleCard (title : String) (plane : Plane) : Plane :=
  let ruled := plane.clear.putRules
  let titled := ruled.putText (plane.centre (banner title).length) plane.middleRow (banner title)
  titled.putText (plane.centre startHint.length) (Int32.ofNat plane.rows.toNat - 3) startHint

def dot : Char := '·'

/-- Dots stand on every fourth column of every second row. -/
def layerSymbol (plane : Plane) (x y : Int32) : Char :=
  if plane.layered ∧ (x + plane.scroll).toInt % 4 = 0 ∧ y.toInt % 2 = 0 then dot else ' '

/-- The layer shows through blank tiles only. -/
def symbolAt (plane : Plane) (x y : Int32) (tile : Tile) : Char :=
  if tile = .blank then plane.layerSymbol x y else tile.symbol

def cellOf (plane : Plane) (x y : Int32) (tile : Tile) : Cell :=
  ⟨plane.symbolAt x y tile,
    ⟨plane.tint tile.fg, plane.tint (tile.bg.getD plane.backdrop), false⟩⟩

def cell? (plane : Plane) (x y : Int32) : Option Cell := (plane.tile? x y).map (plane.cellOf x y)

def columnList (plane : Plane) : List Int32 := (List.range plane.columns.toNat).map Int32.ofNat

def rowList (plane : Plane) : List Int32 := (List.range plane.rows.toNat).map Int32.ofNat

def cells (plane : Plane) (y : Int32) : List Cell := plane.columnList.filterMap (plane.cell? · y)

def lines (plane : Plane) : List (List Span) :=
  plane.rowList.map fun y => Span.ofCells (plane.cells y)

def textRows (plane : Plane) : List String :=
  plane.rowList.map fun y =>
    String.ofList (Text.trimEnd
      (plane.columnList.filterMap fun x => (plane.tile? x y).map Tile.symbol))

end Plane

end TileDeck
