import TileDeck.Proofs.Coordinate
import TileDeck.Proofs.Plane.Clearing

set_option autoImplicit false

namespace TileDeck

open Coordinate

/-- A character and the slot it is written in. -/
structure Glyph where
  symbol : Char
  ink : PaletteId
deriving DecidableEq, Repr

def Glyph.ofText (ink : PaletteId) (text : List Char) : List Glyph := text.map fun c => ⟨c, ink⟩

inductive Mark
  | clear
  | write (x y : Int) (glyph : Glyph)
  | fill (x y : Int) (id : PaletteId)
deriving DecidableEq, Repr

namespace Mark

def on (x y : Int) (tile : Tile) : Mark → Tile
  | clear => .blank
  | write x' y' glyph =>
    if x' = x ∧ y' = y then { tile with symbol := glyph.symbol, fg := glyph.ink } else tile
  | fill x' y' id => if x' = x ∧ y' = y then { tile with bg := some id } else tile

def row (x y : Int) : List Glyph → List Mark
  | [] => []
  | glyph :: rest => write x y glyph :: row (x + 1) y rest

theorem row_append (x y : Int) (glyphs others : List Glyph) :
    row x y (glyphs ++ others) = row x y glyphs ++ row (x + glyphs.length) y others := by
  induction glyphs generalizing x with
  | nil => simp [row]
  | cons glyph glyphs ih =>
    rw [List.cons_append, row, ih, row, List.cons_append, List.length_cons]
    congr 3
    omega

theorem foldl_row_elsewhere {x y x' y' : Int} {glyphs : List Glyph}
    (h : y' = y → ∀ k < glyphs.length, x' ≠ x + k) (tile : Tile) :
    (row x y glyphs).foldl (on x' y') tile = tile := by
  induction glyphs generalizing x with
  | nil => rfl
  | cons glyph glyphs ih =>
    rw [row, List.foldl_cons, on, if_neg]
    · refine ih fun hy k hk => ?_
      have hnext := h hy (k + 1) (Nat.succ_lt_succ hk)
      omega
    · rintro ⟨rfl, rfl⟩
      exact h rfl 0 (Nat.succ_pos _) (Int.add_zero x).symm

theorem foldl_row (x y : Int) (k : Nat) (glyphs : List Glyph) (tile : Tile) :
    (row x y glyphs).foldl (on (x + k) y) tile =
      (glyphs[k]?).elim tile fun glyph => { tile with symbol := glyph.symbol, fg := glyph.ink } := by
  induction glyphs generalizing x k tile with
  | nil => rfl
  | cons glyph glyphs ih =>
    rw [row, List.foldl_cons, on]
    cases k with
    | zero =>
      rw [if_pos ⟨by omega, rfl⟩, foldl_row_elsewhere fun _ _ _ => by omega]
      rfl
    | succ k =>
      have hx : x + (k + 1 : Nat) = x + 1 + k := by omega
      rw [if_neg (by omega), hx, ih (x + 1) k tile]
      rfl

end Mark

namespace Plane

theorem eq_of_index {plane : Plane} {x y x' y' : Int32} (h : plane.Within x y)
    (h' : plane.Within x' y') (hi : plane.index x y = plane.index x' y') : x = x' ∧ y = y' := by
  obtain ⟨hx, hxc, hy, -⟩ := h
  obtain ⟨hx', hxc', hy', -⟩ := h'
  have hlt : x.toInt.toNat < plane.columns.toNat := by omega
  have hlt' : x'.toInt.toNat < plane.columns.toNat := by omega
  unfold index at hi
  have hcolumn : x.toInt.toNat = x'.toInt.toNat := by
    have hmod := congrArg (· % plane.columns.toNat) hi
    simpa only [Nat.mul_add_mod_self_right, Nat.mod_eq_of_lt hlt, Nat.mod_eq_of_lt hlt'] using hmod
  have hrow : y.toInt.toNat = y'.toInt.toNat := by
    rw [hcolumn] at hi
    exact Nat.eq_of_mul_eq_mul_right (by omega) (Nat.add_right_cancel hi)
  exact ⟨Int32.toInt_inj.1 (by omega), Int32.toInt_inj.1 (by omega)⟩

theorem tile?_of_within {plane : Plane} {x y : Int32} (h : plane.Within x y)
    (hi : plane.index x y < plane.columns.toNat * plane.rows.toNat) :
    plane.tile? x y = some plane.tiles[plane.index x y] :=
  dif_pos h

theorem tile?_of_not_within {plane : Plane} {x y : Int32} (h : ¬plane.Within x y) :
    plane.tile? x y = none :=
  dif_neg h

theorem tile?_modify (x y x' y' : Int32) (f : Tile → Tile) (plane : Plane) :
    (plane.modify x y f).tile? x' y' =
      (plane.tile? x' y').map fun tile =>
        if x.toInt = x'.toInt ∧ y.toInt = y'.toInt then f tile else tile := by
  unfold modify
  by_cases h' : plane.Within x' y'
  · have hi' := index_lt h'
    rw [tile?_of_within h' hi', Option.map_some]
    split
    · rename_i h
      refine (tile?_of_within ?_ ?_).trans (congrArg some ?_)
      · exact h'
      · exact hi'
      refine (Vector.getElem_set (index_lt h) hi').trans ?_
      split
      · rename_i hi
        obtain ⟨rfl, rfl⟩ := eq_of_index h h' hi
        rw [if_pos ⟨rfl, rfl⟩]
        rfl
      · rename_i hi
        rw [if_neg fun he => hi ?_]
        rw [Int32.toInt_inj.1 he.1, Int32.toInt_inj.1 he.2]
    · rename_i h
      rw [tile?_of_within h' hi', if_neg fun he => h ?_]
      rwa [Int32.toInt_inj.1 he.1, Int32.toInt_inj.1 he.2]
  · rw [tile?_of_not_within h', Option.map_none]
    split
    · refine tile?_of_not_within ?_
      exact h'
    · exact tile?_of_not_within h'

theorem tile?_clear (x y : Int32) (plane : Plane) :
    plane.clear.tile? x y = (plane.tile? x y).map fun _ => .blank := by
  by_cases h : plane.Within x y
  · have hi := index_lt h
    rw [tile?_of_within h hi, Option.map_some]
    refine (tile?_of_within ?_ ?_).trans (congrArg some ?_)
    · exact h
    · exact hi
    · exact Vector.getElem_replicate hi
  · rw [tile?_of_not_within h]
    refine tile?_of_not_within ?_
    exact h

/-- What became of a plane is told by marks: nothing else has changed in its tiles, nor has its
size. -/
structure Marked (marks : List Mark) (before after : Plane) : Prop where
  columns : after.columns = before.columns
  rows : after.rows = before.rows
  tiles : ∀ x y : Int32, after.tile? x y =
    (before.tile? x y).map fun tile => marks.foldl (Mark.on x.toInt y.toInt) tile

theorem Marked.append {first middle last : Plane} {marks others : List Mark}
    (h : Marked marks first middle) (h' : Marked others middle last) :
    Marked (marks ++ others) first last := by
  refine ⟨h'.columns.trans h.columns, h'.rows.trans h.rows, fun x y => ?_⟩
  rw [h'.tiles, h.tiles, Option.map_map]
  congr 1
  funext tile
  exact List.foldl_append.symm

theorem marked_settings (plane : Plane) (palette : Palette) (ink backdrop : PaletteId)
    (layered : Bool) (scroll : Int32) :
    Marked [] plane ⟨plane.columns, plane.rows, plane.tiles, palette, ink, backdrop, layered,
      scroll⟩ :=
  ⟨rfl, rfl, fun _ _ => Option.map_id'.symm⟩

theorem marked_clear (plane : Plane) : Marked [.clear] plane plane.clear :=
  ⟨rfl, rfl, fun x y => tile?_clear x y plane⟩

theorem columns_modify (x y : Int32) (f : Tile → Tile) (plane : Plane) :
    (plane.modify x y f).columns = plane.columns := by
  unfold modify
  split <;> rfl

theorem rows_modify (x y : Int32) (f : Tile → Tile) (plane : Plane) :
    (plane.modify x y f).rows = plane.rows := by
  unfold modify
  split <;> rfl

theorem marked_put (x y : Int32) (symbol : Char) (plane : Plane) :
    Marked [.write x.toInt y.toInt ⟨symbol, plane.ink⟩] plane (plane.put x y symbol) :=
  ⟨columns_modify x y _ plane, rows_modify x y _ plane, fun x' y' => tile?_modify x y x' y' _ plane⟩

theorem marked_fill (x y : Int32) (id : PaletteId) (plane : Plane) :
    Marked [.fill x.toInt y.toInt id] plane (plane.fill x y id) :=
  ⟨columns_modify x y _ plane, rows_modify x y _ plane, fun x' y' => tile?_modify x y x' y' _ plane⟩

theorem ink_put (x y : Int32) (symbol : Char) (plane : Plane) :
    (plane.put x y symbol).ink = plane.ink := by
  unfold put modify
  split <;> rfl

theorem ink_putText (x y : Int32) (text : String) (plane : Plane) :
    (plane.putText x y text).ink = plane.ink := by
  rw [← ink_clear (plane.putText x y text), clear_putText, ink_clear]

theorem marked_putChars {x y : Int32} {k : Nat} {text : List Char}
    (h : x.toInt + k + text.length ≤ greatest) (plane : Plane) :
    Marked (Mark.row (x.toInt + k) y.toInt (Glyph.ofText plane.ink text)) plane
      (putChars x y k text plane) := by
  induction text generalizing k plane with
  | nil => exact marked_settings plane _ _ _ _ _
  | cons c rest ih =>
    rw [List.length_cons] at h
    have hput := marked_put (x + Int32.ofNat k) y c plane
    rw [toInt_add_ofNat (by omega)] at hput
    have hrest := ih (k := k + 1) (by omega) (plane.put (x + Int32.ofNat k) y c)
    have hk : x.toInt + (k + 1 : Nat) = x.toInt + k + 1 := by omega
    rw [ink_put, hk] at hrest
    exact hput.append hrest

theorem marked_putText {x y : Int32} {text : String} (h : x.toInt + text.length ≤ greatest)
    (plane : Plane) :
    Marked (Mark.row x.toInt y.toInt (Glyph.ofText plane.ink text.toList)) plane
      (plane.putText x y text) := by
  have hput := @marked_putChars x y 0 text.toList (by rw [String.length_toList]; omega) plane
  rwa [Int.natCast_zero, Int.add_zero] at hput

end Plane

end TileDeck
