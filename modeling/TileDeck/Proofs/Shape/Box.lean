import TileDeck.Proofs.Coordinate
import TileDeck.Proofs.Shape.Tiles

set_option autoImplicit false

namespace TileDeck

open Coordinate

inductive Stretch
  | low
  | high
  | between
deriving DecidableEq, Repr

namespace Stretch

def of? (low high n : Int) : Option Stretch :=
  if n = low then some .low
  else if n = high then some .high
  else if low < n ∧ n < high then some .between
  else none

section Integers

variable {low high n : Int}

theorem of?_eq_low : of? low high n = some .low ↔ n = low := by
  grind [of?]

theorem of?_eq_high (h : low < high) : of? low high n = some .high ↔ n = high := by
  grind [of?]

theorem of?_eq_between : of? low high n = some .between ↔ low < n ∧ n < high := by
  grind [of?]

end Integers

/-- The three stretches, told by what a box compares its columns and rows with. -/
theorem of?_iff {low high : Int32} (h : low < high) (n : Int32) :
    (n = low ↔ of? low.toInt high.toInt n.toInt = some .low) ∧
    (n = high ↔ of? low.toInt high.toInt n.toInt = some .high) ∧
    (n ∈ span (add low 1) high ↔ of? low.toInt high.toInt n.toInt = some .between) := by
  rw [Int32.lt_iff_toInt_lt] at h
  rw [of?_eq_low, of?_eq_high h, of?_eq_between, Int32.toInt_inj, Int32.toInt_inj, mem_span,
    toInt_add_one h]
  exact ⟨Iff.rfl, Iff.rfl, by omega⟩

end Stretch

inductive Part
  | corner (corner : Corner)
  | top
  | bottom
  | left
  | right
  | interior
deriving DecidableEq, Repr

namespace Part

def meet : Stretch → Stretch → Part
  | .low, .low => corner .topLeft
  | .high, .low => corner .topRight
  | .low, .high => corner .bottomLeft
  | .high, .high => corner .bottomRight
  | .between, .low => top
  | .between, .high => bottom
  | .low, .between => left
  | .high, .between => right
  | .between, .between => interior

/-- The part of a box to which a place belongs, if it belongs to the box. -/
def of? (left top right bottom x y : Int) : Option Part := do
  let column ← Stretch.of? left right x
  let row ← Stretch.of? top bottom y
  return meet column row

/-- What stands on a tile of the border. -/
def border? (column row : Int32) : Part → Option Primitive
  | corner c => some (.corner column row c)
  | top | bottom => some (.rule column row .horizontal)
  | left | right => some (.rule column row .vertical)
  | interior => none

def attachment : Part → Attachment
  | corner c => .corner c
  | top => .bottom
  | bottom => .top
  | left => .right
  | right => .left
  | interior => .full

def background? (bg : Option PaletteId) (column row : Int32) (part : Part) : Option Primitive :=
  bg.map fun palette => .background column row palette part.attachment

def drawn (bg : Option PaletteId) (column row : Int32) (part : Part) : List Primitive :=
  (part.border? column row).toList ++ Box.fill bg column row part.attachment

theorem filter_drawn_border (part : Part) (bg : Option PaletteId) (column row : Int32) :
    (part.drawn bg column row).filter (fun p => !p.isBackground) =
      (part.border? column row).toList := by
  cases bg <;> cases part <;> rfl

theorem filter_drawn_background (part : Part) (bg : Option PaletteId) (column row : Int32) :
    (part.drawn bg column row).filter Primitive.isBackground =
      (part.background? bg column row).toList := by
  cases bg <;> cases part <;> rfl

end Part

theorem flatMap_of_nodup {α β : Type} {items : List α} [DecidableEq α] (hnodup : items.Nodup)
    {f : α → List β} {a : α} (h : ∀ b, b ≠ a → f b = []) :
    items.flatMap f = if a ∈ items then f a else [] := by
  induction items with
  | nil => rfl
  | cons b rest ih =>
    obtain ⟨hb, hrest⟩ := List.nodup_cons.1 hnodup
    rw [List.flatMap_cons, ih hrest]
    by_cases hba : b = a
    · subst hba
      rw [if_neg hb, List.append_nil, if_pos List.mem_cons_self]
    · have hmem : a ∈ b :: rest ↔ a ∈ rest := by simp [Ne.symm hba]
      rw [h b hba, List.nil_append]
      simp only [hmem]

namespace Box

variable {box : Box} {bg : Option PaletteId} (column row : Int32)

def part? (box : Box) (column row : Int32) : Option Part :=
  Part.of? box.x.toInt box.y.toInt box.right.toInt box.bottom.toInt column.toInt row.toInt

theorem filter_fill (x y : Int32) (attachment : Attachment) :
    (fill bg x y attachment).filter (Primitive.standsOn column row) =
      if x = column ∧ y = row then fill bg x y attachment else [] := by
  unfold fill
  cases bg with
  | none => simp
  | some palette =>
    by_cases h : x = column ∧ y = row
    · simp [h]
    · simp [h]

theorem nodup_innerColumns (box : Box) : box.innerColumns.Nodup := nodup_span _ _

theorem nodup_innerRows (box : Box) : box.innerRows.Nodup := nodup_span _ _

theorem filter_columnEdges_elsewhere {column other : Int32} (h : other ≠ column) :
    (box.columnEdges bg other).filter (Primitive.standsOn column row) = [] := by
  simp [columnEdges, filter_fill, h]

theorem filter_columnEdges (hy : box.y ≠ box.bottom) :
    (box.columnEdges bg column).filter (Primitive.standsOn column row) =
      if row = box.y then Part.top.drawn bg column row
      else if row = box.bottom then Part.bottom.drawn bg column row
      else [] := by
  simp only [columnEdges, List.filter_append, filter_fill, List.filter_cons, List.filter_nil,
    Primitive.standsOn_rule, true_and, decide_eq_true_eq, eq_comm (b := row)]
  by_cases htop : row = box.y
  · simp [htop, hy, Part.drawn, Part.border?, Part.attachment]
  · by_cases hbottom : row = box.bottom
    · simp [hbottom, Ne.symm hy, Part.drawn, Part.border?, Part.attachment]
    · simp [htop, hbottom]

theorem filter_columns (hy : box.y ≠ box.bottom) :
    (box.innerColumns.flatMap (box.columnEdges bg)).filter (Primitive.standsOn column row) =
      if column ∈ box.innerColumns then
        if row = box.y then Part.top.drawn bg column row
        else if row = box.bottom then Part.bottom.drawn bg column row
        else []
      else [] := by
  rw [List.filter_flatMap, ← filter_columnEdges column row hy]
  exact flatMap_of_nodup box.nodup_innerColumns fun _ h => filter_columnEdges_elsewhere row h

theorem filter_rowEdges_elsewhere {row other : Int32} (h : other ≠ row) :
    (box.rowEdges bg other).filter (Primitive.standsOn column row) = [] := by
  simp [rowEdges, List.filter_flatMap, filter_fill, h]

theorem left_notMem (hx : box.x < box.right) : box.x ∉ box.innerColumns := by
  rw [Int32.lt_iff_toInt_lt] at hx
  rw [innerColumns, mem_span, toInt_add_one hx]
  omega

theorem right_notMem : box.right ∉ box.innerColumns := by
  rw [innerColumns, mem_span]
  omega

theorem filter_interior :
    (box.innerColumns.flatMap fun c => fill bg c row .full).filter (Primitive.standsOn column row) =
      if column ∈ box.innerColumns then fill bg column row .full else [] := by
  rw [List.filter_flatMap, flatMap_of_nodup box.nodup_innerColumns (a := column)]
  · simp only [filter_fill, and_self, if_true]
  · intro other h
    rw [filter_fill, if_neg fun hp => h hp.1]

theorem filter_rowEdges (hx : box.x < box.right) :
    (box.rowEdges bg row).filter (Primitive.standsOn column row) =
      if column = box.x then Part.left.drawn bg column row
      else if column = box.right then Part.right.drawn bg column row
      else if column ∈ box.innerColumns then Part.interior.drawn bg column row
      else [] := by
  have hne := Int32.ne_of_lt hx
  have hleft := left_notMem hx
  have hright := box.right_notMem
  simp only [rowEdges, List.filter_append, filter_fill, List.filter_cons, List.filter_nil,
    filter_interior, Primitive.standsOn_rule, and_true, decide_eq_true_eq, eq_comm (b := column)]
  by_cases hl : column = box.x
  · simp [hl, hne, hleft, Part.drawn, Part.border?, Part.attachment]
  · by_cases hr : column = box.right
    · simp [hr, Ne.symm hne, hright, Part.drawn, Part.border?, Part.attachment]
    · simp [hl, hr, Part.drawn, Part.border?, Part.attachment]

theorem filter_rows (hx : box.x < box.right) :
    (box.innerRows.flatMap (box.rowEdges bg)).filter (Primitive.standsOn column row) =
      if row ∈ box.innerRows then
        if column = box.x then Part.left.drawn bg column row
        else if column = box.right then Part.right.drawn bg column row
        else if column ∈ box.innerColumns then Part.interior.drawn bg column row
        else []
      else [] := by
  rw [List.filter_flatMap, ← filter_rowEdges column row hx]
  exact flatMap_of_nodup box.nodup_innerRows fun _ h => filter_rowEdges_elsewhere column h

theorem filter_drawCorner (x y : Int32) (c : Corner) :
    (drawCorner bg (x, y, c)).filter (Primitive.standsOn column row) =
      if x = column ∧ y = row then (Part.corner c).drawn bg column row else [] := by
  by_cases h : x = column ∧ y = row
  · obtain ⟨rfl, rfl⟩ := h
    simp [drawCorner, filter_fill, Part.drawn, Part.border?, Part.attachment]
  · simp [drawCorner, filter_fill, h]

/-- Of what the three passes draw, a tile has what belongs to its part of the box, and has it once. -/
theorem filter_draw (hx : box.x < box.right) (hy : box.y < box.bottom) :
    (box.draw bg).filter (Primitive.standsOn column row) =
      (box.part? column row).elim [] (Part.drawn bg column row) := by
  obtain ⟨hleft, hright, hinner⟩ := Stretch.of?_iff hx column
  obtain ⟨htop, hbottom, hrow⟩ := Stretch.of?_iff hy row
  change column ∈ box.innerColumns ↔ _ at hinner
  change row ∈ box.innerRows ↔ _ at hrow
  rw [draw, List.filter_append, List.filter_append, filter_columns column row (Int32.ne_of_lt hy),
    filter_rows column row hx, List.filter_flatMap]
  simp only [corners, List.flatMap_cons, List.flatMap_nil, filter_drawCorner,
    eq_comm (b := column), eq_comm (b := row)]
  -- all that is compared is the stretch of the column and that of the row
  unfold part? Part.of?
  simp only [hleft, hright, hinner, htop, hbottom, hrow]
  generalize Stretch.of? box.x.toInt box.right.toInt column.toInt = across
  generalize Stretch.of? box.y.toInt box.bottom.toInt row.toInt = down
  cases across with
  | none => simp
  | some across =>
    cases down with
    | none => simp
    | some down => cases across <;> cases down <;> simp [Part.meet]

/-- The border has one character on each of its tiles, and with a background each tile of the box has
one. Nothing is drawn twice, nothing on another tile, and no character in the interior. -/
theorem draw_covers (hx : box.x < box.right) (hy : box.y < box.bottom) (bg : Option PaletteId) :
    (∀ p ∈ box.draw bg, p.place?.isSome) ∧
    ∀ column row : Int32,
      ((box.draw bg).filter fun p => !p.isBackground && p.standsOn column row) =
        ((box.part? column row).bind (Part.border? column row)).toList ∧
      ((box.draw bg).filter fun p => p.isBackground && p.standsOn column row) =
        ((box.part? column row).bind (Part.background? bg column row)).toList := by
  refine ⟨fun _ hp => placed_draw hp, fun column row => ?_⟩
  rw [← List.filter_filter, ← List.filter_filter, filter_draw column row hx hy]
  cases box.part? column row with
  | none => exact ⟨rfl, rfl⟩
  | some part => exact ⟨Part.filter_drawn_border .., Part.filter_drawn_background ..⟩

theorem widest_covered :
    let box : Box := ⟨0x7FFFFFFC, -2, 10, 3⟩
    box.x < box.right ∧ box.y < box.bottom ∧
      ((box.draw (some 5)).filter fun p => !p.isBackground && p.standsOn 0x7FFFFFFF (-1)) =
        [.rule 0x7FFFFFFF (-1) .vertical] ∧
      ((box.draw (some 5)).filter fun p => p.isBackground && p.standsOn 0x7FFFFFFE 1) =
        [.background 0x7FFFFFFE 1 5 .top] := by
  intro box
  have hx : box.x < box.right := by decide
  have hy : box.y < box.bottom := by decide
  have hcovers := (draw_covers hx hy (some 5)).2
  exact ⟨hx, hy, (hcovers 0x7FFFFFFF (-1)).1.trans (by decide),
    (hcovers 0x7FFFFFFE 1).2.trans (by decide)⟩

end Box

end TileDeck
