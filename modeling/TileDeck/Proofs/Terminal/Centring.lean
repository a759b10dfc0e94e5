import TileDeck.Proofs.Terminal.Layout
import TileDeck.Terminal.Size

set_option autoImplicit false

namespace TileDeck.Terminal

namespace Area

variable (area : Area)

def right : Nat := area.x.toNat + area.width.toNat

def bottom : Nat := area.y.toNat + area.height.toNat

def cells : Nat := area.width.toNat * area.height.toNat

def Contains (x y : Nat) : Prop :=
  area.x.toNat ≤ x ∧ x < area.right ∧ area.y.toNat ≤ y ∧ y < area.bottom

instance (x y : Nat) : Decidable (area.Contains x y) := inferInstanceAs (Decidable (_ ∧ _))

def cut : Area :=
  let size := Size.shrink ⟨area.width, area.height⟩
  if area.cells ≤ Size.maxCells then area else ⟨area.x, area.y, size.width, size.height⟩

end Area

/-- Two lengths that differ by one at most. -/
def Balanced (before after : Nat) : Prop := before ≤ after + 1 ∧ after ≤ before + 1

namespace Layout

/-- A layout in numbers that do not go round. -/
structure Places (columns rows width height : Nat) (layout : Layout) : Prop where
  planeWidth : layout.plane.width.toNat = min (columns + 2) width
  planeHeight : layout.plane.height.toNat = min (rows + 2) (height - 1)
  planeX : layout.plane.x.toNat = (width - layout.plane.width.toNat) / 2
  planeY : layout.plane.y.toNat = (height - (layout.plane.height.toNat + 1)) / 2
  statusX : layout.status.x.toNat = 0
  statusY : layout.status.y.toNat = layout.plane.bottom
  statusWidth : layout.status.width.toNat = width
  statusHeight : layout.status.height.toNat = 1

theorem toNat_framed {n : UInt16} (h : n.toNat ≤ 65533) (most : UInt16) :
    (min (n + 2) most).toNat = min (n.toNat + 2) most.toNat := by
  have hsum : (n + 2).toNat = n.toNat + 2 := toNat_sum (by
    change n.toNat + 2 < 65536
    omega)
  rw [toNat_min, hsum]

theorem toNat_margin {width w : UInt16} (h : w.toNat ≤ width.toNat) :
    ((width - w) / 2).toNat = (width.toNat - w.toNat) / 2 := by
  rw [UInt16.toNat_div, UInt16.toNat_sub_of_le _ _ (UInt16.le_iff_toNat_le.2 h)]
  rfl

theorem toNat_top {height h : UInt16} (hh : h.toNat < height.toNat) :
    (less height (h + 1) / 2).toNat = (height.toNat - (h.toNat + 1)) / 2 := by
  have hlt := height.toNat_lt
  have hnext : (h + 1).toNat = h.toNat + 1 := toNat_sum (by
    change h.toNat + 1 < 65536
    omega)
  rw [UInt16.toNat_div, toNat_less, hnext]
  rfl

/-- The row below the frame is never past the last one. -/
theorem toNat_statusRow {height y h : UInt16} (hy : y.toNat + h.toNat < height.toNat) :
    (min (y + h) (less height 1)).toNat = y.toNat + h.toNat := by
  have hlt := height.toNat_lt
  have hone : (1 : UInt16).toNat = 1 := rfl
  have hsum : (y + h).toNat = y.toNat + h.toNat := toNat_sum (by
    change y.toNat + h.toNat < 65536
    omega)
  rw [toNat_min, toNat_less, hsum, hone]
  omega

variable {columns rows width height : UInt16}

theorem places (hroom : HasRoom columns rows) (hheight : height ≠ 0) :
    Places columns.toNat rows.toNat width.toNat height.toNat (place columns rows width height) := by
  have hpos : height.toNat ≠ 0 := fun h => hheight (UInt16.toNat_inj.1 h)
  have hw := toNat_framed hroom.1 width
  have hh := toNat_framed hroom.2 (less height 1)
  have hone : (1 : UInt16).toNat = 1 := rfl
  rw [toNat_less, hone] at hh
  have hlow : (min (rows + 2) (less height 1)).toNat < height.toNat := by omega
  have hy := toNat_top hlow
  exact
    { planeWidth := hw
      planeHeight := hh
      planeX := toNat_margin (by omega)
      planeY := hy
      statusX := rfl
      statusY := toNat_statusRow (by omega)
      statusWidth := rfl
      statusHeight := rfl }

/-- The plane and the status line on a terminal of a size. -/
structure Sound (columns rows width height : Nat) (layout : Layout) : Prop where
  plane_inside : layout.plane.right ≤ width ∧ layout.plane.bottom ≤ height
  status_inside : layout.status.right ≤ width ∧ layout.status.bottom ≤ height
  oneRow : layout.status.height.toNat = 1
  below : layout.status.y.toNat = layout.plane.bottom
  apart : ∀ x y, layout.plane.Contains x y → ¬ layout.status.Contains x y
  margins : Balanced layout.plane.x.toNat (width - layout.plane.right)
  freeRows : Balanced layout.plane.y.toNat (height - layout.status.bottom)
  whole : columns + 2 ≤ width → rows + 3 ≤ height →
    layout.plane.width.toNat = columns + 2 ∧ layout.plane.height.toNat = rows + 2

theorem Places.sound {columns rows width height : Nat} {layout : Layout}
    (h : Places columns rows width height layout) (hheight : height ≠ 0) :
    Sound columns rows width height layout := by
  obtain ⟨hw, hh, hx, hy, hsx, hsy, hsw, hsh⟩ := h
  have hbottom : layout.plane.bottom = layout.plane.y.toNat + layout.plane.height.toNat := rfl
  refine ⟨?_, ?_, hsh, hsy, ?_, ?_, ?_, ?_⟩
  · unfold Area.right
    omega
  · unfold Area.right
    unfold Area.bottom at hsy ⊢
    omega
  · rintro x y ⟨-, -, -, hplane⟩ ⟨-, -, hstatus, -⟩
    omega
  · unfold Balanced Area.right
    omega
  · have hlast : layout.status.bottom = layout.status.y.toNat + 1 := by rw [Area.bottom, hsh]
    unfold Balanced
    omega
  · omega

theorem Places.cells_le {columns rows width height : Nat} {layout : Layout}
    (h : Places columns rows width height layout) (hheight : height ≠ 0) :
    layout.plane.cells ≤ width * height ∧ layout.status.cells ≤ width * height := by
  constructor
  · exact Nat.mul_le_mul (by rw [h.planeWidth]; omega) (by rw [h.planeHeight]; omega)
  · exact Nat.mul_le_mul (Nat.le_of_eq h.statusWidth) (by rw [h.statusHeight]; omega)

/-- Whatever becomes of areas with more cells than a buffer can have, on every terminal with a row
and no more cells than that the plane and the status line lie as they should, the whole plane with
its frame where there is room for it. -/
theorem place_sound (hroom : HasRoom columns rows) (hheight : height ≠ 0)
    (hcells : width.toNat * height.toNat ≤ Size.maxCells) {area : Area → Area}
    (harea : ∀ a : Area, a.cells ≤ Size.maxCells → area a = a) :
    let layout := place columns rows width height
    Sound columns.toNat rows.toNat width.toNat height.toNat
      ⟨area layout.plane, area layout.status⟩ := by
  intro layout
  have hpos : height.toNat ≠ 0 := fun h => hheight (UInt16.toNat_inj.1 h)
  have hplaces : Places columns.toNat rows.toNat width.toNat height.toNat layout :=
    places hroom hheight
  obtain ⟨hplane, hstatus⟩ := hplaces.cells_le hpos
  rw [harea _ (Nat.le_trans hplane hcells), harea _ (Nat.le_trans hstatus hcells)]
  exact hplaces.sound hpos

theorem lowered_sound :
    let layout := place 4 65533 9 6
    HasRoom 4 65533 ∧ (6 : UInt16) ≠ 0 ∧ 9 * 6 ≤ Size.maxCells ∧
      (∀ a : Area, a.cells ≤ Size.maxCells → a.cut = a) ∧
      Sound 4 65533 9 6 ⟨layout.plane.cut, layout.status.cut⟩ := by
  intro layout
  have hroom : HasRoom 4 65533 := by decide
  have hcut : ∀ a : Area, a.cells ≤ Size.maxCells → a.cut = a := fun a h => if_pos h
  have hheight : (6 : UInt16) ≠ 0 := by decide
  have hcells : (9 : UInt16).toNat * (6 : UInt16).toNat ≤ Size.maxCells := by decide
  exact ⟨hroom, hheight, hcells, hcut, place_sound hroom hheight hcells hcut⟩

end Layout

end TileDeck.Terminal
