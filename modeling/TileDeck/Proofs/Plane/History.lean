import Mathlib.Data.List.Induction
import TileDeck.Proofs.Plane.Card

set_option autoImplicit false

namespace TileDeck

open Coordinate

namespace Mark

def recent (marks : List Mark) : List Mark := marks.reverse.takeWhile (· ≠ .clear)

def glyphAt? (x y : Int) : Mark → Option Glyph
  | write x' y' glyph => if x' = x ∧ y' = y then some glyph else none
  | _ => none

def groundAt? (x y : Int) : Mark → Option PaletteId
  | fill x' y' id => if x' = x ∧ y' = y then some id else none
  | _ => none

/-- The last glyph written at a place since the last clearing. -/
def glyph? (x y : Int) (marks : List Mark) : Option Glyph :=
  (recent marks).findSome? (glyphAt? x y)

def ground? (x y : Int) (marks : List Mark) : Option PaletteId :=
  (recent marks).findSome? (groundAt? x y)

def shown (x y : Int) (marks : List Mark) : Tile :=
  ⟨((glyph? x y marks).map Glyph.symbol).getD Tile.blank.symbol,
    ((glyph? x y marks).map Glyph.ink).getD Tile.blank.fg, ground? x y marks⟩

theorem recent_concat (marks : List Mark) (mark : Mark) :
    recent (marks ++ [mark]) = if mark = .clear then [] else mark :: recent marks := by
  unfold recent
  rw [List.reverse_concat, List.takeWhile_cons]
  by_cases h : mark = .clear <;> simp [h]

theorem foldl_on_blank (x y : Int) (marks : List Mark) :
    marks.foldl (on x y) .blank = shown x y marks := by
  -- from the last mark on, which is the first of the recent ones
  induction marks using List.reverseRecOn with
  | nil => rfl
  | append_singleton marks mark ih =>
    rw [List.foldl_concat, ih]
    unfold shown glyph? ground?
    rw [recent_concat]
    cases mark with
    | clear => rfl
    | write x' y' glyph =>
      rw [if_neg (by simp), List.findSome?_cons, List.findSome?_cons, on, glyphAt?]
      by_cases h : x' = x ∧ y' = y
      · rw [if_pos h, if_pos h]
        rfl
      · rw [if_neg h, if_neg h]
        rfl
    | fill x' y' id =>
      rw [if_neg (by simp), List.findSome?_cons, List.findSome?_cons, on, groundAt?]
      by_cases h : x' = x ∧ y' = y
      · rw [if_pos h, if_pos h]
        rfl
      · rw [if_neg h, if_neg h]
        rfl

end Mark

namespace Plane

/-- What can be done to a plane. -/
inductive Operation
  | put (x y : Int32) (symbol : Char)
  | putText (x y : Int32) (text : String)
  | fill (x y : Int32) (id : PaletteId)
  | setInk (id : PaletteId)
  | clear
  | titleCard (title : String)
  | setColour (id : PaletteId) (colour : Rgb)
  | setBackdrop (id : PaletteId)
  | showLayer
  | scrollLayer (step : Int32)
deriving DecidableEq, Repr

namespace Operation

def perform : Operation → Plane → Plane
  | put x y symbol => Plane.put x y symbol
  | putText x y text => Plane.putText x y text
  | fill x y id => Plane.fill x y id
  | setInk id => Plane.setInk id
  | clear => Plane.clear
  | titleCard title => Plane.titleCard title
  | setColour id colour => Plane.setColour id colour
  | setBackdrop id => Plane.setBackdrop id
  | showLayer => Plane.showLayer
  | scrollLayer step => Plane.scrollLayer step

/-- Each text ends before the last column of all. That of a title card begins at the first column of
the plane or has room on it. -/
def Fits : Operation → Prop
  | putText x _ text => x.toInt + text.length ≤ greatest
  | titleCard title => ((banner title).length : Int) ≤ greatest
  | _ => True

instance (op : Operation) : Decidable op.Fits := by
  cases op <;> unfold Fits <;> infer_instance

/-- The marks of an operation on a plane of some size and with some ink. -/
def marks (columns rows : UInt16) (ink : PaletteId) : Operation → List Mark
  | put x y symbol => [.write x.toInt y.toInt ⟨symbol, ink⟩]
  | putText x y text => Mark.row x.toInt y.toInt (Glyph.ofText ink text.toList)
  | fill x y id => [.fill x.toInt y.toInt id]
  | clear => [.clear]
  | titleCard title => Mark.card columns.toNat rows.toNat ink title
  | _ => []

def inkAfter (ink : PaletteId) : Operation → PaletteId
  | setInk id => id
  | _ => ink

theorem ink_perform (op : Operation) (plane : Plane) :
    (op.perform plane).ink = op.inkAfter plane.ink := by
  cases op with
  | put x y symbol => exact ink_put x y symbol plane
  | putText x y text => exact ink_putText x y text plane
  | fill x y id =>
    unfold perform Plane.fill modify
    dsimp only
    split <;> rfl
  | titleCard title =>
    change (plane.titleCard title).ink = plane.ink
    rw [← ink_clear (plane.titleCard title), clear_titleCard, ink_clear]
  | _ => rfl

theorem marked_perform {op : Operation} (h : op.Fits) (plane : Plane) :
    Marked (op.marks plane.columns plane.rows plane.ink) plane (op.perform plane) := by
  cases op with
  | put x y symbol => exact marked_put x y symbol plane
  | putText x y text => exact marked_putText h plane
  | fill x y id => exact marked_fill x y id plane
  | clear => exact marked_clear plane
  | titleCard title => exact marked_titleCard h plane
  | _ => exact marked_settings plane _ _ _ _ _

end Operation

def performAll (ops : List Operation) (plane : Plane) : Plane :=
  ops.foldl (fun plane op => op.perform plane) plane

def history (columns rows : UInt16) (ink : PaletteId) : List Operation → List Mark
  | [] => []
  | op :: rest => op.marks columns rows ink ++ history columns rows (op.inkAfter ink) rest

theorem marked_performAll {ops : List Operation} (h : ∀ op ∈ ops, op.Fits) (plane : Plane) :
    Marked (history plane.columns plane.rows plane.ink ops) plane (performAll ops plane) := by
  induction ops generalizing plane with
  | nil => exact marked_settings plane _ _ _ _ _
  | cons op rest ih =>
    rw [List.forall_mem_cons] at h
    have hop := Operation.marked_perform h.1 plane
    have hrest := ih h.2 (op.perform plane)
    rw [hop.columns, hop.rows, Operation.ink_perform] at hrest
    exact hop.append hrest

theorem tile?_empty (columns rows : UInt16) (x y : Int32) :
    (empty columns rows).tile? x y =
      if 0 ≤ x.toInt ∧ x.toInt < columns.toNat ∧ 0 ≤ y.toInt ∧ y.toInt < rows.toNat then
        some .blank
      else none := by
  split
  · rename_i h
    have hw : (empty columns rows).Within x y := h
    have hi := index_lt hw
    exact (tile?_of_within hw hi).trans (congrArg some (Vector.getElem_replicate hi))
  · rename_i h
    have hw : ¬(empty columns rows).Within x y := h
    exact tile?_of_not_within hw

/-- A plane has a tile at each place within its size and nowhere else. The tile shows the last
character and the last ground at its place since the last clearing, and is blank where there was
none. -/
theorem tile_shows_history (columns rows : UInt16) (ops : List Operation)
    (h : ∀ op ∈ ops, op.Fits) (x y : Int32) :
    (performAll ops (empty columns rows)).tile? x y =
      if 0 ≤ x.toInt ∧ x.toInt < columns.toNat ∧ 0 ≤ y.toInt ∧ y.toInt < rows.toNat then
        some (Mark.shown x.toInt y.toInt (history columns rows 0 ops))
      else none := by
  have hmarked := marked_performAll h (empty columns rows)
  rw [hmarked.tiles, tile?_empty]
  split
  · rw [Option.map_some, Mark.foldl_on_blank]
    rfl
  · rfl

theorem carded_history :
    let ops : List Operation := [.put 0 0 'a', .titleCard "T", .setInk 2, .putText (-1) 1 "bc",
      .fill 0 1 5, .put 3 0 'd', .scrollLayer 1]
    (∀ op ∈ ops, op.Fits) ∧
      (performAll ops (empty 3 6)).tile? 0 1 = some ⟨'c', 2, some 5⟩ := by
  intro ops
  have hops : ∀ op ∈ ops, op.Fits := by decide
  refine ⟨hops, ?_⟩
  rw [tile_shows_history 3 6 ops hops 0 1]
  decide +kernel

end Plane

end TileDeck
