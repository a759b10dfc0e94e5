import TileDeck.Proofs.Plane.Spans
import TileDeck.Proofs.Terminal.Centring

set_option autoImplicit false

/-!
# The painted plane

A toolkit draws a frame with lines of text in it, then a centred line of text. What it does with
characters of other widths is its own affair. On a terminal with room for the whole plane every toolkit
that keeps to its areas shows each tile of the plane in its place, in the colours of its line.
-/
namespace TileDeck.Terminal

open Painting

def glyphs : List Char :=
  [Orientation.horizontal.glyph, Orientation.vertical.glyph, Corner.topLeft.glyph,
    Corner.topRight.glyph, Corner.bottomLeft.glyph, Corner.bottomRight.glyph,
    Direction.right.junctionGlyph, Direction.left.junctionGlyph, Direction.up.junctionGlyph,
    Direction.down.junctionGlyph, Direction.right.headGlyph, Direction.left.headGlyph,
    Direction.up.headGlyph, Direction.down.headGlyph, QuoteSide.opening.glyph,
    QuoteSide.closing.glyph, Plane.titleRule, Plane.dot]

/-- The characters that surely take one cell: those of ASCII that can be printed, and the glyphs. -/
def Narrow (c : Char) : Prop := ' '.toNat ≤ c.toNat ∧ c.toNat ≤ '~'.toNat ∨ c ∈ glyphs

instance (c : Char) : Decidable (Narrow c) := inferInstanceAs (Decidable (_ ∨ _))

namespace Buffer

def cell? (buffer : Buffer) (x y : Nat) : Option Cell := buffer[y]?.bind (·[x]?)

def ofPlaces (width height : Nat) (cell : Nat → Nat → Cell) : Buffer :=
  (List.range height).map fun y => (List.range width).map fun x => cell x y

def mapPlaces (change : Nat → Nat → Cell → Cell) (buffer : Buffer) : Buffer :=
  buffer.mapIdx fun y row => row.mapIdx fun x cell => change x y cell

variable {width height : Nat} {cell : Nat → Nat → Cell}

theorem cell?_ofPlaces {x y : Nat} (hx : x < width) (hy : y < height) :
    cell? (ofPlaces width height cell) x y = some (cell x y) := by
  rw [cell?, ofPlaces, List.getElem?_map, List.getElem?_range hy, Option.map_some, Option.bind_some,
    List.getElem?_map, List.getElem?_range hx, Option.map_some]

theorem cell?_mapPlaces (change : Nat → Nat → Cell → Cell) (buffer : Buffer) (x y : Nat) :
    cell? (mapPlaces change buffer) x y = (cell? buffer x y).map (change x y) := by
  rw [cell?, mapPlaces, List.getElem?_mapIdx, cell?]
  cases buffer[y]? with
  | none => rfl
  | some row => exact List.getElem?_mapIdx

theorem untouched_eq_ofPlaces (width height : Nat) :
    untouched width height = ofPlaces width height fun _ _ => .untouched := by
  unfold untouched ofPlaces
  rw [List.map_const', List.map_const', List.length_range, List.length_range]

theorem mapIdx_map_range {α β : Type} (f : Nat → α) (g : Nat → α → β) (n : Nat) :
    ((List.range n).map f).mapIdx g = (List.range n).map fun i => g i (f i) := by
  refine List.ext_getElem? fun i => ?_
  rw [List.getElem?_mapIdx, List.getElem?_map, List.getElem?_map]
  by_cases h : i < n
  · rw [List.getElem?_range h]
    rfl
  · rw [List.getElem?_eq_none (by rw [List.length_range]; omega)]
    rfl

theorem mapPlaces_ofPlaces (change : Nat → Nat → Cell → Cell) :
    mapPlaces change (ofPlaces width height cell) =
      ofPlaces width height fun x y => change x y (cell x y) := by
  unfold mapPlaces ofPlaces
  rw [mapIdx_map_range]
  simp only [mapIdx_map_range]

theorem ofPlaces_congr {other : Nat → Nat → Cell}
    (h : ∀ x < width, ∀ y < height, cell x y = other x y) :
    ofPlaces width height cell = ofPlaces width height other := by
  refine List.map_congr_left fun y hy => List.map_congr_left fun x hx => ?_
  exact h x (List.mem_range.1 hx) y (List.mem_range.1 hy)

end Buffer

structure Toolkit where
  area : Area → Area
  framed : Area → List (List Span) → Buffer → Buffer
  /-- Draw one line of text, centred. -/
  centred : Area → List Span → Buffer → Buffer

namespace Toolkit

structure Lawful (kit : Toolkit) : Prop where
  area : ∀ area : Area, area.cells ≤ Size.maxCells → kit.area area = area
  /-- On an untouched buffer each line of narrow characters stands in a row of its own inside the
  frame, from the first column on, as far as there is room. -/
  framed : ∀ {width height : Nat} {area : Area} {lines : List (List Span)},
    area.right ≤ width → area.bottom ≤ height →
    (∀ line ∈ lines, ∀ c ∈ line.flatMap Span.text, Narrow c) →
    ∀ {i j : Nat} {line : List Span} {cell : Cell}, lines[j]? = some line →
      (line.flatMap Span.cells)[i]? = some cell →
      i + 2 < area.width.toNat → j + 2 < area.height.toNat →
      (kit.framed area lines (untouched width height)).cell? (area.x.toNat + 1 + i)
        (area.y.toNat + 1 + j) = some cell
  /-- A line of text stays inside its area. -/
  centred : ∀ (area : Area) (spans : List Span) (buffer : Buffer) {x y : Nat},
    ¬ area.Contains x y → (kit.centred area spans buffer).cell? x y = buffer.cell? x y

def paint (kit : Toolkit) (width height : Nat) (layout : Layout) (lines : List (List Span))
    (status : List Span) : Buffer :=
  kit.centred (kit.area layout.status) status
    (kit.framed (kit.area layout.plane) lines (untouched width height))

/-- Whatever of a line has room inside the frame is seen there: the status line lies below. -/
theorem Lawful.cell?_paint {kit : Toolkit} (hkit : kit.Lawful) {layout : Layout}
    {columns rows width height : Nat} (hplaces : layout.Places columns rows width height)
    (hheight : height ≠ 0) (hcells : width * height ≤ Size.maxCells) {lines : List (List Span)}
    (hnarrow : ∀ line ∈ lines, ∀ c ∈ line.flatMap Span.text, Narrow c) (status : List Span)
    {i j : Nat} {line : List Span} {cell : Cell} (hline : lines[j]? = some line)
    (hcell : (line.flatMap Span.cells)[i]? = some cell) (hi : i + 2 < layout.plane.width.toNat)
    (hj : j + 2 < layout.plane.height.toNat) :
    (kit.paint width height layout lines status).cell? (layout.plane.x.toNat + 1 + i)
      (layout.plane.y.toNat + 1 + j) = some cell := by
  obtain ⟨hplane, hstatus⟩ := hplaces.cells_le hheight
  have hsound := hplaces.sound hheight
  have hinside : layout.plane.Contains (layout.plane.x.toNat + 1 + i)
      (layout.plane.y.toNat + 1 + j) := by
    unfold Area.Contains Area.right Area.bottom
    omega
  unfold paint
  rw [hkit.area _ (Nat.le_trans hplane hcells), hkit.area _ (Nat.le_trans hstatus hcells),
    hkit.centred _ _ _ (hsound.apart _ _ hinside)]
  exact hkit.framed hsound.plane_inside.1 hsound.plane_inside.2 hnarrow hline hcell hi hj

def contents (lines : List (List Span)) : Array (Array Cell) :=
  (lines.map fun line => (line.flatMap Span.cells).toArray).toArray

def plain : Toolkit where
  area := Area.cut
  framed area lines := Buffer.mapPlaces fun x y cell =>
    if area.Contains x y then
      framedCell (contents lines) area.width.toNat area.height.toNat (x - area.x.toNat)
        (y - area.y.toNat)
    else cell
  centred area spans := Buffer.mapPlaces fun x y cell =>
    if area.Contains x y then
      statusCell ((spans.flatMap Span.cells).take area.width.toNat).toArray area.width.toNat
        (x - area.x.toNat) cell
    else cell

theorem frameSymbol?_inside {width height i j : Nat} (hi : i + 2 < width) (hj : j + 2 < height) :
    frameSymbol? width height (i + 1) (j + 1) = none := by
  unfold frameSymbol?
  repeat rw [if_neg (by omega)]

theorem framedCell_inside {lines : List (List Span)} {line : List Span} {cell : Cell}
    {width height i j : Nat} (hline : lines[j]? = some line)
    (hcell : (line.flatMap Span.cells)[i]? = some cell) (hi : i + 2 < width) (hj : j + 2 < height) :
    framedCell (contents lines) width height (i + 1) (j + 1) = cell := by
  have hrow : (contents lines)[j]? = some (line.flatMap Span.cells).toArray := by
    rw [contents, List.getElem?_toArray, List.getElem?_map, hline, Option.map_some]
  unfold framedCell
  rw [frameSymbol?_inside hi hj]
  dsimp only
  rw [Nat.add_sub_cancel, Nat.add_sub_cancel, hrow, Option.bind_some, List.getElem?_toArray, hcell,
    Option.getD_some]

theorem lawful_plain : plain.Lawful where
  area area h := if_pos h
  framed {width height area lines} hright hbottom _ {i j line cell} hline hcell hi hj := by
    have hx : area.x.toNat + 1 + i < width := by
      unfold Area.right at hright
      omega
    have hy : area.y.toNat + 1 + j < height := by
      unfold Area.bottom at hbottom
      omega
    have hinside : area.Contains (area.x.toNat + 1 + i) (area.y.toNat + 1 + j) := by
      unfold Area.Contains Area.right Area.bottom
      omega
    have hcolumn : area.x.toNat + 1 + i - area.x.toNat = i + 1 := by omega
    have hrow : area.y.toNat + 1 + j - area.y.toNat = j + 1 := by omega
    change (Buffer.mapPlaces _ _).cell? _ _ = _
    rw [Buffer.cell?_mapPlaces, Buffer.untouched_eq_ofPlaces, Buffer.cell?_ofPlaces hx hy,
      Option.map_some, if_pos hinside, hcolumn, hrow, framedCell_inside hline hcell hi hj]
  centred area spans buffer {x y} h := by
    change (Buffer.mapPlaces _ _).cell? _ _ = _
    rw [Buffer.cell?_mapPlaces]
    simp only [if_neg h, Option.map_id']

theorem underCell_eq (area : Area) (lines : List (List Span)) (x y : Nat) :
    underCell area (contents lines) x y =
      if area.Contains x y then
        framedCell (contents lines) area.width.toNat area.height.toNat (x - area.x.toNat)
          (y - area.y.toNat)
      else .untouched := by
  refine if_congr ?_ rfl rfl
  unfold Area.Contains Area.right Area.bottom
  omega

theorem paint_plain {columns rows width height : UInt16} (hroom : Layout.HasRoom columns rows)
    (hheight : height ≠ 0) (hcells : width.toNat * height.toNat ≤ Size.maxCells)
    (lines : List (List Span)) (status : List Span) :
    plain.paint width.toNat height.toNat (.place columns rows width height) lines status =
      Terminal.paint width.toNat height.toNat (.place columns rows width height) lines status := by
  have hpos : height.toNat ≠ 0 := fun h => hheight (UInt16.toNat_inj.1 h)
  have hplaces : Layout.Places _ _ width.toNat _ _ := Layout.places hroom hheight
  obtain ⟨hplane, hstatus⟩ := hplaces.cells_le hpos
  generalize Layout.place columns rows width height = layout at *
  unfold paint
  rw [lawful_plain.area _ (Nat.le_trans hplane hcells),
    lawful_plain.area _ (Nat.le_trans hstatus hcells)]
  change Buffer.mapPlaces _ (Buffer.mapPlaces _ (untouched _ _)) = _
  rw [Buffer.untouched_eq_ofPlaces, Buffer.mapPlaces_ofPlaces, Buffer.mapPlaces_ofPlaces]
  refine Buffer.ofPlaces_congr fun x hx y _ => ?_
  have hinside : layout.status.Contains x y ↔ y = layout.status.y.toNat := by
    have hx' := hplaces.statusX
    have hw := hplaces.statusWidth
    have hh := hplaces.statusHeight
    unfold Area.Contains Area.right Area.bottom
    omega
  dsimp only
  rw [← underCell_eq, hplaces.statusX, hplaces.statusWidth, Nat.sub_zero]
  exact if_congr hinside rfl rfl

end Toolkit

def presentWith (kit : Toolkit) (t : Terminal) : Terminal :=
  { t with painted := kit.paint t.width.toNat t.height.toNat t.layout t.plane.lines t.status }

/-- Each column of each row of the plane stands inside the frame as its line has it. -/
def ShowsPlane (t : Terminal) : Prop :=
  ∀ r < t.plane.rows.toNat, ∀ c < t.plane.columns.toNat, ∃ line cell,
    t.plane.lines[r]? = some line ∧ (line.flatMap Span.cells)[c]? = some cell ∧
    Buffer.cell? t.painted (t.layout.plane.x.toNat + 1 + c) (t.layout.plane.y.toNat + 1 + r) =
      some cell

/-- There is room for the plane, its frame and the status line on a terminal of which all cells can be
painted. -/
structure Roomy (t : Terminal) : Prop where
  width : t.plane.columns.toNat + 2 ≤ t.width.toNat
  height : t.plane.rows.toNat + 3 ≤ t.height.toNat
  cells : t.width.toNat * t.height.toNat ≤ Size.maxCells

theorem Roomy.hasRoom {t : Terminal} (h : Roomy t) :
    Layout.HasRoom t.plane.columns t.plane.rows := by
  have hw := t.width.toNat_lt
  have hh := t.height.toNat_lt
  have hwidth := h.width
  have hheight := h.height
  constructor <;> omega

theorem Roomy.height_ne_zero {t : Terminal} (h : Roomy t) : t.height ≠ 0 := by
  have hheight := h.height
  intro hzero
  rw [hzero] at hheight
  change _ ≤ 0 at hheight
  omega

theorem Roomy.present {t : Terminal} (h : Roomy t) : t.present = presentWith .plain t := by
  have hpaint := Toolkit.paint_plain h.hasRoom h.height_ne_zero h.cells t.plane.lines t.status
  exact congrArg (fun painted => { t with painted := painted }) hpaint.symm

def ShowsNarrow (plane : Plane) : Prop :=
  ∀ y ∈ plane.rowList, ∀ cell ∈ plane.cells y, Narrow cell.symbol

-- the rows are listed, since among the instances is one that would go through all coordinates
instance (plane : Plane) : Decidable (ShowsNarrow plane) :=
  @List.decidableBAll _ _ (fun _ => List.decidableBAll _ _) plane.rowList

theorem ShowsNarrow.lines {plane : Plane} (h : ShowsNarrow plane) :
    ∀ line ∈ plane.lines, ∀ c ∈ line.flatMap Span.text, Narrow c := by
  intro line hline c hc
  obtain ⟨y, hy, rfl⟩ := List.mem_map.1 hline
  rw [(Span.canonical_iff.2 rfl : Span.Canonical (plane.cells y) _).text] at hc
  obtain ⟨cell, hcell, rfl⟩ := List.mem_map.1 hc
  exact h y hy cell hcell

theorem showsPlane_presentWith {t : Terminal} (h : Roomy t) (hnarrow : ShowsNarrow t.plane)
    {kit : Toolkit} (hkit : kit.Lawful) : ShowsPlane (presentWith kit t) := by
  have hpos : t.height.toNat ≠ 0 := fun hzero => h.height_ne_zero (UInt16.toNat_inj.1 hzero)
  have hplaces : t.layout.Places t.plane.columns.toNat t.plane.rows.toNat t.width.toNat
      t.height.toNat := Layout.places h.hasRoom h.height_ne_zero
  obtain ⟨hwidth, hheight⟩ := (hplaces.sound hpos).whole h.width h.height
  intro r (hr : r < t.plane.rows.toNat) c (hc : c < t.plane.columns.toNat)
  obtain ⟨tile, -, hcell⟩ := Plane.getElem?_cells hr hc
  have hcanonical : Span.Canonical (t.plane.cells (Int32.ofNat r)) _ := Span.canonical_iff.2 rfl
  rw [← hcanonical.cells] at hcell
  have hline := Plane.getElem?_lines hr
  exact ⟨_, _, hline, hcell, hkit.cell?_paint hplaces hpos h.cells hnarrow.lines t.status hline hcell
    (by omega) (by omega)⟩

/-- On every terminal with room for it each tile of a plane of narrow characters is seen in its place
inside the frame, with the character and the colours of its line, whatever was painted before. This is so
for every lawful toolkit, and for the terminal as it is painted. -/
theorem present_shows_plane {t : Terminal} (h : Roomy t) (hnarrow : ShowsNarrow t.plane) :
    (∀ kit : Toolkit, kit.Lawful → ShowsPlane (presentWith kit t)) ∧ ShowsPlane t.present := by
  refine ⟨fun _ hkit => showsPlane_presentWith h hnarrow hkit, ?_⟩
  rw [h.present]
  exact showsPlane_presentWith h hnarrow Toolkit.lawful_plain

theorem repainted_shown :
    let t := Surface.performAll [.text 0 0 "old", .sleep 1, .clear, .corner 0 0 .topLeft,
      .text 1 0 "ok", .background 2 0 7 .full] (start ⟨9, 7⟩ ⟨4, 2, 1, "", []⟩ .empty)
    let seen : Option Cell := some ⟨'k', ⟨t.plane.tint 0, t.plane.tint 7, false⟩⟩
    Roomy t ∧ ShowsNarrow t.plane ∧ Toolkit.plain.Lawful ∧
      Buffer.cell? (presentWith .plain t).painted 4 2 = seen ∧
      Buffer.cell? t.present.painted 4 2 = seen := by
  intro t seen
  have hroomy : Roomy t := ⟨by decide, by decide, by decide⟩
  have hnarrow : ShowsNarrow t.plane := by decide +kernel
  have hline : ((t.plane.lines[0]?).bind fun line => (line.flatMap Span.cells)[2]?) = seen := by
    decide +kernel
  have hx : t.layout.plane.x.toNat + 1 + 2 = 4 := by decide
  have hy : t.layout.plane.y.toNat + 1 + 0 = 2 := by decide
  have hseen : ∀ {painted : Buffer}, (∃ line cell, t.plane.lines[0]? = some line ∧
      (line.flatMap Span.cells)[2]? = some cell ∧
      painted.cell? (t.layout.plane.x.toNat + 1 + 2) (t.layout.plane.y.toNat + 1 + 0) = some cell) →
      painted.cell? 4 2 = seen := by
    rintro painted ⟨line, cell, hl, hc, hcell⟩
    rw [hl, Option.bind_some, hc] at hline
    rw [hx, hy] at hcell
    exact hcell.trans hline
  obtain ⟨hwith, hpresent⟩ := present_shows_plane hroomy hnarrow
  exact ⟨hroomy, hnarrow, Toolkit.lawful_plain,
    hseen (hwith .plain Toolkit.lawful_plain 0 (by decide) 2 (by decide)),
    hseen (hpresent 0 (by decide) 2 (by decide))⟩

end TileDeck.Terminal
