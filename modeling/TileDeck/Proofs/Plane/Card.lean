import TileDeck.Proofs.Plane.Marks

set_option autoImplicit false

namespace TileDeck

open Coordinate

namespace Mark

def centre (columns length : Nat) : Int := max (((columns : Int) - length) / 2) 0

def centred (columns : Nat) (y : Int) (ink : PaletteId) (text : String) : List Mark :=
  row (centre columns text.length) y (Glyph.ofText ink text.toList)

def rules (columns : Nat) (middle : Int) (ink : PaletteId) : List Mark :=
  (List.range columns).flatMap fun column : Nat =>
    [write column (middle - 2) ⟨Plane.titleRule, ink⟩,
      write column (middle + 2) ⟨Plane.titleRule, ink⟩]

def card (columns rows : Nat) (ink : PaletteId) (title : String) : List Mark :=
  clear :: rules columns (rows / 2) ink ++
    centred columns (rows / 2) ink (Plane.banner title) ++
    centred columns (rows - 3) ink Plane.startHint

end Mark

namespace Plane

theorem toInt_columns (plane : Plane) :
    (Int32.ofNat plane.columns.toNat).toInt = plane.columns.toNat := by
  have hc : plane.columns.toNat < 65536 := plane.columns.toNat_lt
  exact toInt_ofNat (by unfold greatest; omega)

theorem toInt_rows (plane : Plane) : (Int32.ofNat plane.rows.toNat).toInt = plane.rows.toNat := by
  have hr : plane.rows.toNat < 65536 := plane.rows.toNat_lt
  exact toInt_ofNat (by unfold greatest; omega)

theorem toInt_middleRow (plane : Plane) : plane.middleRow.toInt = (plane.rows.toNat : Int) / 2 := by
  rw [middleRow, toInt_half, toInt_rows, Int.tdiv_eq_ediv_of_nonneg (by omega)]

/-- Below zero the halves are rounded to either side, but there zero is greater. -/
theorem max_half (n : Int) : max (n.tdiv 2) 0 = max (n / 2) 0 := by
  have hround := Int.tdiv_eq_ediv (a := n) (b := 2)
  have hsign : Int.sign 2 = 1 := rfl
  rw [hsign] at hround
  split at hround <;> omega

theorem toInt_centre (plane : Plane) {length : Nat} (h : (length : Int) ≤ greatest) :
    (plane.centre length).toInt = Mark.centre plane.columns.toNat length := by
  have hcolumns := toInt_columns plane
  have hlength := toInt_ofNat h
  have hrest : (Int32.ofNat plane.columns.toNat - Int32.ofNat length).toInt =
      (plane.columns.toNat : Int) - length := by
    rw [toInt_sub_of_nonneg (by omega) (by omega), hcolumns, hlength]
  rw [centre, toInt_max, toInt_half, hrest]
  exact max_half _

theorem toInt_above (plane : Plane) :
    (plane.middleRow - 2).toInt = (plane.rows.toNat : Int) / 2 - 2 := by
  have hmiddle := toInt_middleRow plane
  have htwo : (2 : Int32).toInt = 2 := rfl
  rw [toInt_sub_of_nonneg (by omega) (by omega), hmiddle, htwo]

theorem toInt_below (plane : Plane) :
    (plane.middleRow + 2).toInt = (plane.rows.toNat : Int) / 2 + 2 := by
  have hr : plane.rows.toNat < 65536 := plane.rows.toNat_lt
  have hsum : (plane.middleRow + Int32.ofNat 2).toInt = _ := toInt_add_ofNat (by
    rw [toInt_middleRow]
    unfold greatest
    omega)
  rwa [toInt_middleRow] at hsum

theorem toInt_hintRow (plane : Plane) :
    (Int32.ofNat plane.rows.toNat - 3).toInt = (plane.rows.toNat : Int) - 3 := by
  have hrows := toInt_rows plane
  have hthree : (3 : Int32).toInt = 3 := rfl
  rw [toInt_sub_of_nonneg (by omega) (by omega), hrows, hthree]

def putRulePair (plane : Plane) (column : Nat) : Plane :=
  (plane.put (Int32.ofNat column) (plane.middleRow - 2) titleRule).put (Int32.ofNat column)
    (plane.middleRow + 2) titleRule

theorem ink_putRulePair (plane : Plane) (column : Nat) :
    (plane.putRulePair column).ink = plane.ink := by
  rw [putRulePair, ink_put, ink_put]

theorem marked_putRulePair (plane : Plane) {column : Nat} (h : (column : Int) ≤ greatest) :
    Marked [.write column ((plane.rows.toNat : Int) / 2 - 2) ⟨titleRule, plane.ink⟩,
        .write column ((plane.rows.toNat : Int) / 2 + 2) ⟨titleRule, plane.ink⟩] plane
      (plane.putRulePair column) := by
  have habove := marked_put (Int32.ofNat column) (plane.middleRow - 2) titleRule plane
  have hbelow := marked_put (Int32.ofNat column) (plane.middleRow + 2) titleRule
    (plane.put (Int32.ofNat column) (plane.middleRow - 2) titleRule)
  rw [toInt_ofNat h, toInt_above] at habove
  rw [toInt_ofNat h, toInt_below, ink_put] at hbelow
  exact habove.append hbelow

theorem marked_putRules (plane : Plane) :
    Marked (Mark.rules plane.columns.toNat ((plane.rows.toNat : Int) / 2) plane.ink) plane
      plane.putRules := by
  have hcolumns : ∀ column ∈ List.range plane.columns.toNat, (column : Int) ≤ greatest := by
    intro column hm
    have hlt := List.mem_range.1 hm
    have hc : plane.columns.toNat < 65536 := plane.columns.toNat_lt
    unfold greatest
    omega
  unfold Mark.rules
  change Marked _ plane ((List.range plane.columns.toNat).foldl putRulePair plane)
  -- the rows of the rules come from a plane that changes, but not in its size
  generalize List.range plane.columns.toNat = columns at hcolumns ⊢
  induction columns generalizing plane with
  | nil => exact marked_settings plane _ _ _ _ _
  | cons column columns ih =>
    rw [List.forall_mem_cons] at hcolumns
    have hpair := marked_putRulePair plane hcolumns.1
    have hrest := ih (plane.putRulePair column) hcolumns.2
    rw [hpair.rows, ink_putRulePair] at hrest
    exact hpair.append hrest

theorem ink_putRules (plane : Plane) : plane.putRules.ink = plane.ink := by
  rw [← ink_clear plane.putRules, clear_putRules, ink_clear]

theorem centre_add_le {columns length : Nat} (hc : columns < 65536)
    (h : (length : Int) ≤ greatest) : Mark.centre columns length + length ≤ greatest := by
  unfold Mark.centre
  unfold greatest at h ⊢
  omega

theorem marked_centred (size plane : Plane) (y : Int32) {text : String}
    (h : (text.length : Int) ≤ greatest) :
    Marked (Mark.centred size.columns.toNat y.toInt plane.ink text) plane
      (plane.putText (size.centre text.length) y text) := by
  have hx := toInt_centre size h
  have hroom := centre_add_le size.columns.toNat_lt h
  rw [← hx] at hroom
  rw [Mark.centred, ← hx]
  exact marked_putText hroom plane

theorem marked_titleCard {title : String} (h : ((banner title).length : Int) ≤ greatest)
    (plane : Plane) :
    Marked (Mark.card plane.columns.toNat plane.rows.toNat plane.ink title) plane
      (plane.titleCard title) := by
  have hhint : (startHint.length : Int) ≤ greatest := by decide
  have hruled := (marked_clear plane).append (marked_putRules plane.clear)
  have htitled := marked_centred plane plane.clear.putRules plane.middleRow h
  have hhinted := marked_centred plane
    (plane.clear.putRules.putText (plane.centre (banner title).length) plane.middleRow (banner title))
    (Int32.ofNat plane.rows.toNat - 3) hhint
  rw [toInt_middleRow, ink_putRules, ink_clear] at htitled
  rw [toInt_hintRow, ink_putText, ink_putRules, ink_clear] at hhinted
  exact (hruled.append htitled).append hhinted

end Plane

end TileDeck
