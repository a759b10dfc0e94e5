import TileDeck.Plane
import TileDeck.Reckoning

set_option autoImplicit false

namespace TileDeck

open Coordinate

namespace Reckoning

open Plane

variable (r : Reckoning)

def putChars (x y : Int32) : Nat → List Char → Plane → Option Plane
  | _, [], plane => some plane
  | k, c :: rest, plane => do
    let column ← r.after? x k
    putChars x y (k + 1) rest (plane.put column y c)

def putText (x y : Int32) (text : String) (plane : Plane) : Option Plane :=
  r.putChars x y 0 text.toList plane

def centre (plane : Plane) (length : Nat) : Option Int32 := do
  let count ← r.count? length
  let rest ← difference? (Int32.ofNat plane.columns.toNat) count
  return max (rest / 2) 0

def putRules (plane : Plane) : Option Plane :=
  (List.range plane.columns.toNat).foldlM (fun plane column => do
    let above ← difference? plane.middleRow 2
    let below ← sum? plane.middleRow 2
    return (plane.put (Int32.ofNat column) above titleRule).put
      (Int32.ofNat column) below titleRule) plane

def titleCard (title : String) (plane : Plane) : Option Plane := do
  let ruled ← putRules plane.clear
  let start ← r.centre plane (banner title).length
  let titled ← r.putText start plane.middleRow (banner title) ruled
  let hintStart ← r.centre plane startHint.length
  let hintRow ← difference? (Int32.ofNat plane.rows.toNat) 3
  r.putText hintStart hintRow startHint titled

theorem agrees_putChars (x y : Int32) (k : Nat) (text : List Char) (plane : Plane) :
    Agrees (r.putChars x y k text plane) (Plane.putChars x y k text plane) := by
  induction text generalizing k plane with
  | nil => exact .always plane
  | cons c rest ih => exact (r.agrees_after x k).bind (ih _ _)

theorem agrees_putText (x y : Int32) (text : String) (plane : Plane) :
    Agrees (r.putText x y text plane) (plane.putText x y text) :=
  r.agrees_putChars x y 0 text.toList plane

theorem agrees_centre (plane : Plane) (length : Nat) :
    Agrees (r.centre plane length) (plane.centre length) :=
  (r.agrees_count length).bind ((agrees_difference _ _).bind (.always _))

theorem agrees_putRules (plane : Plane) : Agrees (putRules plane) plane.putRules := by
  refine Agrees.foldlM (fun plane column => ?_) _ plane
  exact (agrees_difference plane.middleRow 2).bind
    ((agrees_sum plane.middleRow 2).bind (.always _))

theorem agrees_titleCard (title : String) (plane : Plane) :
    Agrees (r.titleCard title plane) (plane.titleCard title) :=
  (agrees_putRules plane.clear).bind <| (r.agrees_centre plane (banner title).length).bind <|
    (r.agrees_putText _ _ _ _).bind <| (r.agrees_centre plane startHint.length).bind <|
    (agrees_difference _ 3).bind (r.agrees_putText _ _ _ _)

end Reckoning

namespace Plane

variable (plane : Plane)

def layerSymbol? (x y : Int32) : Option Char :=
  if plane.layered then do
    let place ← sum? x plane.scroll
    return if place.toInt % 4 = 0 ∧ y.toInt % 2 = 0 then dot else ' '
  else some ' '

def symbolAt? (x y : Int32) (tile : Tile) : Option Char :=
  if tile = .blank then plane.layerSymbol? x y else some tile.symbol

def cellOf? (x y : Int32) (tile : Tile) : Option Cell := do
  let symbol ← plane.symbolAt? x y tile
  return ⟨symbol, ⟨plane.tint tile.fg, plane.tint (tile.bg.getD plane.backdrop), false⟩⟩

/-- The cells of a row; a place off the plane has none and needs no sum. -/
def cells? (y : Int32) : Option (List Cell) := do
  let cells ← plane.columnList.mapM fun x =>
    (plane.tile? x y).elim (some none) fun tile => (plane.cellOf? x y tile).map some
  return cells.filterMap id

def lines? : Option (List (List Span)) :=
  plane.rowList.mapM fun y => (plane.cells? y).map Span.ofCells

theorem agrees_layerSymbol (x y : Int32) :
    Agrees (plane.layerSymbol? x y) (plane.layerSymbol x y) := by
  unfold layerSymbol? layerSymbol
  by_cases h : plane.layered
  · simp only [h, if_true, true_and]
    exact (agrees_sum x plane.scroll).bind (.always _)
  · rw [if_neg h, if_neg fun hs => h hs.1]
    exact .always ' '

theorem agrees_symbolAt (x y : Int32) (tile : Tile) :
    Agrees (plane.symbolAt? x y tile) (plane.symbolAt x y tile) := by
  unfold symbolAt? symbolAt
  split
  · exact plane.agrees_layerSymbol x y
  · exact .always _

theorem agrees_cellOf (x y : Int32) (tile : Tile) :
    Agrees (plane.cellOf? x y tile) (plane.cellOf x y tile) :=
  (plane.agrees_symbolAt x y tile).bind (.always _)

theorem agrees_cell (x y : Int32) :
    Agrees ((plane.tile? x y).elim (some none) fun tile => (plane.cellOf? x y tile).map some)
      (plane.cell? x y) := by
  unfold cell?
  cases plane.tile? x y with
  | none => exact .always none
  | some tile => exact (plane.agrees_cellOf x y tile).map some

theorem agrees_cells (y : Int32) : Agrees (plane.cells? y) (plane.cells y) := by
  have hcells : (plane.columnList.map (plane.cell? · y)).filterMap id = plane.cells y :=
    List.filterMap_map
  rw [← hcells]
  exact (Agrees.mapM (plane.agrees_cell · y) _).bind (.always _)

theorem agrees_lines : Agrees plane.lines? plane.lines :=
  .mapM (fun y => (plane.agrees_cells y).map Span.ofCells) _

end Plane

end TileDeck
