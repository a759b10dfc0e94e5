import TileDeck.Terminal.Layout
import TileDeck.Terminal.Status

set_option autoImplicit false

namespace TileDeck.Terminal

abbrev Buffer := List (List Cell)

def untouched (width height : Nat) : Buffer :=
  List.replicate height (List.replicate width .untouched)

namespace Painting

def frameStyle : Style := ⟨.rgb theme.frame, .reset, false⟩

def statusStyle : Style := ⟨.rgb theme.statusFg, .rgb theme.statusBg, false⟩

/-- The frame's character at a place of an area of a size, counted from its top left corner. Where
the area is one cell wide or high, the top left corner goes before the others, the left and the
top one before the right and the bottom one, and corners before sides. -/
def frameSymbol? (width height i j : Nat) : Option Char :=
  if i = 0 ∧ j = 0 then some '┌'
  else if i = 0 ∧ j + 1 = height then some '└'
  else if i + 1 = width ∧ j = 0 then some '┐'
  else if i + 1 = width ∧ j + 1 = height then some '┘'
  else if j + 1 = height then some '─'
  else if i + 1 = width then some '│'
  else if j = 0 then some '─'
  else if i = 0 then some '│'
  else none

def framedCell (rows : Array (Array Cell)) (width height i j : Nat) : Cell :=
  match frameSymbol? width height i j with
  | some c => ⟨c, frameStyle⟩
  | none => ((rows[j - 1]?).bind (·[i - 1]?)).getD .untouched

def underCell (area : Area) (rows : Array (Array Cell)) (x y : Nat) : Cell :=
  let i := x - area.x.toNat
  let j := y - area.y.toNat
  if area.x.toNat ≤ x ∧ i < area.width.toNat ∧ area.y.toNat ≤ y ∧ j < area.height.toNat then
    framedCell rows area.width.toNat area.height.toNat i j
  else .untouched

def centredAt (width length : Nat) : Nat := width / 2 - length / 2

def statusCell (text : Array Cell) (width x : Nat) (under : Cell) : Cell :=
  let start := centredAt width text.size
  if x < start then ⟨under.symbol, statusStyle⟩
  else (text[x - start]?).getD ⟨under.symbol, statusStyle⟩

end Painting

open Painting in
/-- The buffer of a terminal of a size that shows a plane's rows and a status text. -/
def paint (width height : Nat) (layout : Layout) (rows : List (List Span)) (status : List Span) :
    Buffer :=
  let contents := (rows.map fun row => (row.flatMap Span.cells).toArray).toArray
  let text := ((status.flatMap Span.cells).take width).toArray
  (List.range height).map fun y => (List.range width).map fun x =>
    let under := underCell layout.plane contents x y
    if y = layout.status.y.toNat then statusCell text width x under else under

end TileDeck.Terminal
