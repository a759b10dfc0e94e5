import TileDeck.Proofs.Plane.Marks
import TileDeck.Proofs.Shape.Box

set_option autoImplicit false

namespace TileDeck

open Coordinate

/-- What a primitive makes of the tile that it draws on. -/
def Primitive.onto (ink : PaletteId) (tile : Tile) : Primitive → Tile
  | rule _ _ orientation => { tile with symbol := orientation.glyph, fg := ink }
  | corner _ _ c => { tile with symbol := c.glyph, fg := ink }
  | arrowhead _ _ direction => { tile with symbol := direction.headGlyph, fg := ink }
  | junction _ _ direction => { tile with symbol := direction.junctionGlyph, fg := ink }
  | quote _ _ side => { tile with symbol := side.glyph, fg := ink }
  | background _ _ palette _ => { tile with bg := some palette }
  | _ => tile

namespace Terminal

variable {p : Primitive} (column row : Int32)

theorem plane_perform {x y : Int32} (h : p.place? = some (x, y)) (t : Terminal) :
    (Surface.perform p t).plane = t.plane.modify x y fun tile => p.onto t.plane.ink tile := by
  cases p with
  | rule | corner | arrowhead | junction | quote | background =>
    obtain ⟨rfl, rfl⟩ := Prod.mk.inj (Option.some.inj h)
    rfl
  | _ => cases h

theorem ink_perform (h : p.place?.isSome) (t : Terminal) :
    (Surface.perform p t).plane.ink = t.plane.ink := by
  rw [← Plane.ink_clear, clear_perform (Primitive.paints_of_placed h), Plane.ink_clear]

theorem tile?_perform (h : p.place?.isSome) (t : Terminal) :
    (Surface.perform p t).plane.tile? column row =
      (t.plane.tile? column row).map fun tile =>
        if p.standsOn column row then p.onto t.plane.ink tile else tile := by
  obtain ⟨⟨x, y⟩, hp⟩ := Option.isSome_iff_exists.1 h
  have hstands : p.standsOn column row ↔ x.toInt = column.toInt ∧ y.toInt = row.toInt := by
    rw [Primitive.standsOn, hp, decide_eq_true_eq, Option.some_inj, Prod.mk.injEq,
      Int32.toInt_inj, Int32.toInt_inj]
  rw [plane_perform hp, Plane.tile?_modify]
  simp only [hstands]

/-- What is drawn on other tiles makes no difference to a tile. -/
theorem tile?_performAll {ps : List Primitive} (h : ∀ p ∈ ps, p.place?.isSome) (t : Terminal) :
    (Surface.performAll ps t).plane.tile? column row =
      (t.plane.tile? column row).map fun tile =>
        (ps.filter (Primitive.standsOn column row)).foldl (Primitive.onto t.plane.ink) tile := by
  induction ps generalizing t with
  | nil => exact Option.map_id'.symm
  | cons p rest ih =>
    rw [List.forall_mem_cons] at h
    have hrest := ih h.2 (Surface.perform p t)
    rw [tile?_perform column row h.1, ink_perform h.1, Option.map_map] at hrest
    refine hrest.trans ?_
    congr 1
    funext tile
    by_cases hp : p.standsOn column row
    · simp [hp]
    · simp [hp]

end Terminal

namespace Part

def symbol? : Part → Option Char
  | corner c => some c.glyph
  | top | bottom => some Orientation.horizontal.glyph
  | left | right => some Orientation.vertical.glyph
  | interior => none

def onto (ink : PaletteId) (bg : Option PaletteId) (tile : Tile) (part : Part) : Tile where
  symbol := part.symbol?.getD tile.symbol
  fg := if part.symbol?.isSome then ink else tile.fg
  bg := bg.or tile.bg

theorem foldl_drawn (part : Part) (ink : PaletteId) (bg : Option PaletteId) (column row : Int32)
    (tile : Tile) :
    (part.drawn bg column row).foldl (Primitive.onto ink) tile = part.onto ink bg tile := by
  cases bg <;> cases part <;> rfl

end Part

namespace Box

/-- The part of a box to which a place belongs, reckoned from its place and its size alone. -/
def partAt (box : Box) (x y : Int) : Option Part :=
  Part.of? box.x.toInt box.y.toInt (box.x.toInt + box.width.toInt)
    (box.y.toInt + box.height.toInt) x y

variable {box : Box}

theorem toInt_right (hw : 0 < box.width.toInt)
    (hr : box.x.toInt + box.width.toInt ≤ greatest) :
    box.right.toInt = box.x.toInt + box.width.toInt := by
  have hx : least ≤ box.x.toInt := box.x.le_toInt
  exact toInt_add_of_le (by omega) hr

theorem toInt_bottom (hh : 0 < box.height.toInt)
    (hb : box.y.toInt + box.height.toInt ≤ greatest) :
    box.bottom.toInt = box.y.toInt + box.height.toInt := by
  have hy : least ≤ box.y.toInt := box.y.le_toInt
  exact toInt_add_of_le (by omega) hb

/-- A box that does not pass the last coordinates, as none of a page does, changes the tiles that it
covers, each as its part of the box demands, and no others. It may lie on the plane, across its
edges or off it. -/
theorem tiles_after_draw (hw : 0 < box.width.toInt) (hr : box.x.toInt + box.width.toInt ≤ greatest)
    (hh : 0 < box.height.toInt) (hb : box.y.toInt + box.height.toInt ≤ greatest)
    (bg : Option PaletteId) (t : Terminal) (column row : Int32) :
    (Surface.performAll (box.draw bg) t).plane.tile? column row =
      (t.plane.tile? column row).map fun tile =>
        (box.partAt column.toInt row.toInt).elim tile (Part.onto t.plane.ink bg tile) := by
  have hright := toInt_right hw hr
  have hbottom := toInt_bottom hh hb
  have hx : box.x < box.right := by
    rw [Int32.lt_iff_toInt_lt]
    omega
  have hy : box.y < box.bottom := by
    rw [Int32.lt_iff_toInt_lt]
    omega
  have hpart : box.part? column row = box.partAt column.toInt row.toInt := by
    rw [part?, hright, hbottom, partAt]
  rw [Terminal.tile?_performAll column row (fun _ hp => placed_draw hp) t,
    filter_draw column row hx hy, hpart]
  cases box.partAt column.toInt row.toInt with
  | none => rfl
  | some part => simp only [Option.elim_some, Part.foldl_drawn]

/-- A box that goes past three edges of a plane with a text on it. -/
theorem tiles_across_edges :
    let box : Box := ⟨-1, 1, 3, 5⟩
    let t := Surface.performAll [.text 0 2 "abcd", .background 3 2 6 .full, .textPalette 9]
      (Terminal.start ⟨9, 6⟩ ⟨4, 3, 1, "", []⟩ .empty)
    let drawn := (Surface.performAll (box.draw (some 7)) t).plane
    0 < box.width.toInt ∧ box.x.toInt + box.width.toInt ≤ greatest ∧
      0 < box.height.toInt ∧ box.y.toInt + box.height.toInt ≤ greatest ∧
      drawn.tile? 2 1 = some ⟨'┐', 9, some 7⟩ ∧ drawn.tile? 1 2 = some ⟨'b', 0, some 7⟩ ∧
      drawn.tile? 3 2 = some ⟨'d', 0, some 6⟩ ∧ drawn.tile? (-1) 2 = none := by
  intro box t drawn
  have hw : 0 < box.width.toInt := by decide
  have hr : box.x.toInt + box.width.toInt ≤ greatest := by decide
  have hh : 0 < box.height.toInt := by decide
  have hb : box.y.toInt + box.height.toInt ≤ greatest := by decide
  have htiles := tiles_after_draw hw hr hh hb (some 7) t
  exact ⟨hw, hr, hh, hb, (htiles 2 1).trans (by decide +kernel),
    (htiles 1 2).trans (by decide +kernel), (htiles 3 2).trans (by decide +kernel),
    (htiles (-1) 2).trans (by decide +kernel)⟩

end Box

end TileDeck
