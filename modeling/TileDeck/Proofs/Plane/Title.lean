import TileDeck.Proofs.Plane.History
import TileDeck.Proofs.Plane.Spans
import TileDeck.Proofs.Text.Pieces

set_option autoImplicit false

/-!
# The title on its card

The title stands centred in the middle row of its card, with a rule two rows above and below it. The hint
stands three rows above the lower end, whatever the height. On planes of five and of six rows that is the
middle row, and the hint is written over the title; on all others the title can be read.
-/
namespace TileDeck

open Coordinate

namespace Text

theorem map_range_placed {columns start : Nat} {text : List Char}
    (h : start + text.length ≤ columns) :
    ((List.range columns).map fun c => if start ≤ c then (text[c - start]?).getD ' ' else ' ') =
      List.replicate start ' ' ++ text ++ List.replicate (columns - start - text.length) ' ' := by
  refine List.ext_getElem? fun c => ?_
  rw [List.getElem?_map, List.getElem?_append, List.getElem?_append, List.getElem?_replicate,
    List.getElem?_replicate, List.length_append, List.length_replicate]
  by_cases hc : c < columns
  · rw [List.getElem?_range hc, Option.map_some]
    by_cases hbefore : c < start
    · rw [if_neg (by omega), if_pos (by omega), if_pos hbefore, if_pos hbefore]
    · rw [if_pos (by omega), if_neg hbefore]
      by_cases htext : c - start < text.length
      · rw [if_pos (by omega), List.getElem?_eq_getElem htext, Option.getD_some]
      · rw [if_neg (by omega), if_pos (by omega), List.getElem?_eq_none (by omega),
          Option.getD_none]
  · rw [List.getElem?_eq_none (by rw [List.length_range]; omega), if_neg (by omega),
      if_neg (by omega)]
    rfl

theorem visible_iff {s t : List Char} {start c : Nat} {symbol : Char}
    (h : trimEnd s = List.replicate start ' ' ++ t) (ht : ∀ c ∈ t, isBlank c = false)
    (hc : s[c]? = some symbol) :
    isBlank symbol = false ↔ start ≤ c ∧ c < start + t.length := by
  obtain ⟨⟨blanks, hblanks, rfl⟩, -⟩ := trimEnd_eq_iff.1 h
  constructor
  · intro hsymbol
    -- it stands in neither of the parts that are blank
    have hnot : ∀ part : List Char, (∀ c ∈ part, isBlank c = true) → ∀ k : Nat,
        part[k]? ≠ some symbol := by
      intro part hpart k hk
      exact Bool.false_ne_true (hsymbol.symm.trans (hpart symbol (List.mem_of_getElem? hk)))
    constructor
    · refine Nat.le_of_not_lt fun hleft => hnot (List.replicate start ' ') (fun c hm => ?_) c ?_
      · rw [List.eq_of_mem_replicate hm]
        rfl
      · rwa [List.append_assoc, List.getElem?_append_left (by rwa [List.length_replicate])] at hc
    · refine Nat.lt_of_not_le fun hright => hnot blanks hblanks (c - (start + t.length)) ?_
      have hlength : (List.replicate start ' ' ++ t).length = start + t.length := by
        rw [List.length_append, List.length_replicate]
      rwa [List.getElem?_append_right (by rwa [hlength]), hlength] at hc
  · rintro ⟨hleft, hright⟩
    rw [List.append_assoc, List.getElem?_append_right (by rwa [List.length_replicate]),
      List.length_replicate, List.getElem?_append_left (by omega)] at hc
    exact ht symbol (List.mem_of_getElem? hc)

end Text

namespace Mark

def written (x y : Int) (marks : List Mark) : List Glyph := marks.filterMap (glyphAt? x y)

theorem written_append (x y : Int) (marks others : List Mark) :
    written x y (marks ++ others) = written x y marks ++ written x y others :=
  List.filterMap_append

/-- Where nothing is cleared the last glyph of all is the last one since the last clearing. -/
theorem glyph?_eq_getLast? {marks : List Mark} (h : clear ∉ marks) (x y : Int) :
    glyph? x y marks = (written x y marks).getLast? := by
  have hrecent : recent marks = marks.reverse := by
    refine List.takeWhile_eq_self_iff.2 fun mark hm => ?_
    rw [decide_eq_true_eq]
    rintro rfl
    exact h (List.mem_reverse.1 hm)
  rw [glyph?, hrecent, ← List.head?_filterMap, List.filterMap_reverse, List.head?_reverse, written]

theorem written_cons (x y : Int) (mark : Mark) (marks : List Mark) :
    written x y (mark :: marks) = (glyphAt? x y mark).toList ++ written x y marks := by
  rw [written, List.filterMap_cons]
  cases glyphAt? x y mark <;> rfl

theorem written_row (x y x' y' : Int) (glyphs : List Glyph) :
    written x' y' (row x y glyphs) =
      if y = y' ∧ x ≤ x' then (glyphs[(x' - x).toNat]?).toList else [] := by
  induction glyphs generalizing x with
  | nil => exact (ite_self _).symm
  | cons glyph glyphs ih =>
    rw [row, written_cons, glyphAt?, ih]
    by_cases hy : y = y'
    · rcases Int.lt_trichotomy x x' with hx | rfl | hx
      · have hk : (x' - x).toNat = (x' - (x + 1)).toNat + 1 := by omega
        rw [if_neg (by omega), if_pos ⟨hy, by omega⟩, if_pos ⟨hy, by omega⟩, hk,
          List.getElem?_cons_succ]
        rfl
      · rw [if_pos ⟨rfl, hy⟩, if_neg (by omega), if_pos ⟨hy, Int.le_refl x⟩, Int.sub_self]
        rfl
      · rw [if_neg (by omega), if_neg (by omega), if_neg (by omega)]
        rfl
    · rw [if_neg fun h => hy h.2, if_neg fun h => hy h.1, if_neg fun h => hy h.1]
      rfl

def centredGlyph? (columns : Nat) (ink : PaletteId) (text : String) (c : Nat) : Option Glyph :=
  if centre columns text.length ≤ c then
    (Glyph.ofText ink text.toList)[((c : Int) - centre columns text.length).toNat]?
  else none

theorem centredGlyph?_at {columns c k : Nat} (ink : PaletteId) {text : String}
    (hk : k < text.toList.length) (hc : (c : Int) = centre columns text.length + k) :
    centredGlyph? columns ink text c = some ⟨text.toList[k], ink⟩ := by
  have hindex : ((c : Int) - centre columns text.length).toNat = k := by omega
  rw [centredGlyph?, if_pos (by omega), hindex, Glyph.ofText, List.getElem?_map,
    List.getElem?_eq_getElem hk, Option.map_some]

theorem written_centred (columns c : Nat) (y r : Int) (ink : PaletteId) (text : String) :
    written c r (centred columns y ink text) =
      if y = r then (centredGlyph? columns ink text c).toList else [] := by
  rw [centred, written_row, centredGlyph?]
  split_ifs <;> simp_all

theorem written_rules {middle r : Int} (habove : r ≠ middle - 2) (hbelow : r ≠ middle + 2)
    (columns : Nat) (c : Int) (ink : PaletteId) : written c r (rules columns middle ink) = [] := by
  refine List.filterMap_eq_nil_iff.2 fun mark hm => ?_
  obtain ⟨column, -, hm⟩ := List.mem_flatMap.1 hm
  rcases List.mem_pair.1 hm with rfl | rfl
  · exact if_neg fun h => habove h.2.symm
  · exact if_neg fun h => hbelow h.2.symm

/-- In the middle row stands the title, and on planes of two heights the hint, too. -/
theorem written_card (columns rows c : Nat) (ink : PaletteId) (title : String) :
    written c (rows / 2 : Nat) (card columns rows ink title) =
      (centredGlyph? columns ink (Plane.banner title) c).toList ++
        if rows = 5 ∨ rows = 6 then (centredGlyph? columns ink Plane.startHint c).toList else [] := by
  have hmiddle : ((rows / 2 : Nat) : Int) = (rows : Int) / 2 := by omega
  have hcollide : (rows : Int) - 3 = rows / 2 ↔ rows = 5 ∨ rows = 6 := by omega
  rw [card, written_append, written_append, written_centred, written_centred, hmiddle, if_pos rfl]
  have hrules : written c ((rows : Int) / 2) (clear :: rules columns (rows / 2) ink) = [] :=
    written_rules (by omega) (by omega) columns c ink
  rw [hrules, List.nil_append]
  simp only [hcollide]

theorem getLast?_written_card (columns rows c : Nat) (ink : PaletteId) (title : String) :
    (written c (rows / 2 : Nat) (card columns rows ink title)).getLast? =
      (if rows = 5 ∨ rows = 6 then centredGlyph? columns ink Plane.startHint c else none).or
        (centredGlyph? columns ink (Plane.banner title) c) := by
  have htoList : ∀ glyph : Option Glyph, glyph.toList.getLast? = glyph := by rintro (_ | _) <;> rfl
  rw [written_card, List.getLast?_append, htoList]
  split
  · rw [htoList]
  · rfl

theorem clear_notMem_row (x y : Int) (glyphs : List Glyph) : clear ∉ row x y glyphs := by
  induction glyphs generalizing x with
  | nil => exact List.not_mem_nil
  | cons glyph glyphs ih => exact List.not_mem_cons_of_ne_of_not_mem nofun (ih (x + 1))

theorem clear_notMem_rules (columns : Nat) (middle : Int) (ink : PaletteId) :
    clear ∉ rules columns middle ink := by
  intro hm
  obtain ⟨column, -, hm⟩ := List.mem_flatMap.1 hm
  rcases List.mem_pair.1 hm with h | h <;> cases h

/-- Whatever there was before, a tile of the card shows the last glyph that is written there. -/
theorem symbol_card (columns rows : Nat) (ink : PaletteId) (title : String) (x y : Int)
    (tile : Tile) :
    ((card columns rows ink title).foldl (on x y) tile).symbol =
      (((written x y (card columns rows ink title)).getLast?).map Glyph.symbol).getD ' ' := by
  have hcard : card columns rows ink title = clear :: (rules columns (rows / 2) ink ++
      centred columns (rows / 2) ink (Plane.banner title) ++
      centred columns (rows - 3) ink Plane.startHint) := rfl
  have hclear : clear ∉ rules columns (rows / 2) ink ++
      centred columns (rows / 2) ink (Plane.banner title) ++
      centred columns (rows - 3) ink Plane.startHint := by
    rw [List.mem_append, List.mem_append, not_or, not_or]
    exact ⟨⟨clear_notMem_rules _ _ _, clear_notMem_row _ _ _⟩, clear_notMem_row _ _ _⟩
  rw [hcard, List.foldl_cons, written_cons]
  change (List.foldl (on x y) .blank _).symbol = _
  rw [foldl_on_blank, shown, glyph?_eq_getLast? hclear]
  rfl

theorem symbol_centredGlyph? (columns c : Nat) (ink : PaletteId) (text : String) :
    (centredGlyph? columns ink text c).map Glyph.symbol =
      if centre columns text.length ≤ c then
        text.toList[((c : Int) - centre columns text.length).toNat]?
      else none := by
  rw [centredGlyph?, apply_ite (Option.map Glyph.symbol), Glyph.ofText, List.getElem?_map,
    Option.map_map, Option.map_none]
  simp only [Function.comp_def, Option.map_id']

end Mark

namespace Plane

def symbols (plane : Plane) (r : Nat) : List Char :=
  plane.columnList.filterMap fun x => (plane.tile? x (Int32.ofNat r)).map Tile.symbol

variable {plane : Plane} {title : String} {r c : Nat}

theorem getElem?_textRows (hr : r < plane.rows.toNat) :
    plane.textRows[r]? = some (String.ofList (Text.trimEnd (plane.symbols r))) := by
  rw [textRows, rowList, List.map_map, List.getElem?_map, List.getElem?_range hr]
  rfl

theorem symbols_titleCard (h : ((banner title).length : Int) ≤ greatest)
    (hr : r < plane.rows.toNat) :
    (plane.titleCard title).symbols r = (List.range plane.columns.toNat).map fun c : Nat =>
      (((Mark.written c r (Mark.card plane.columns.toNat plane.rows.toNat plane.ink
        title)).getLast?).map Glyph.symbol).getD ' ' := by
  have hmarked := marked_titleCard h plane
  rw [symbols, columnList, hmarked.columns, List.filterMap_map, ← List.filterMap_eq_map]
  refine List.filterMap_congr fun c hc => ?_
  have hcolumn := List.mem_range.1 hc
  have hw := within_of_lt hr hcolumn
  have hx : (Int32.ofNat c).toInt = c := toInt_ofNat (by
    have hcolumns : plane.columns.toNat < 65536 := plane.columns.toNat_lt
    unfold greatest
    omega)
  have hy : (Int32.ofNat r).toInt = r := toInt_ofNat (by
    have hrows : plane.rows.toNat < 65536 := plane.rows.toNat_lt
    unfold greatest
    omega)
  rw [Function.comp, hmarked.tiles, tile?_of_within hw (index_lt hw), Option.map_some,
    Option.map_some, Mark.symbol_card, hx, hy]
  rfl

def titleColumn (plane : Plane) (title : String) : Nat :=
  (plane.columns.toNat - title.length - 4) / 2 + 2

/-- A title that can be seen in full, and a plane with room for it and two blanks on either side. -/
structure Fitting (title : String) (plane : Plane) : Prop where
  nonempty : title ≠ ""
  visible : ∀ c ∈ title.toList, Text.isBlank c = false
  columns : title.length + 4 ≤ plane.columns.toNat
  rows : 0 < plane.rows.toNat

instance (title : String) (plane : Plane) : Decidable (Fitting title plane) :=
  -- named, as the search may find the instance that runs over all characters
  have : Decidable (∀ c ∈ title.toList, Text.isBlank c = false) := List.decidableBAll _ _
  decidable_of_iff (title ≠ "" ∧ (∀ c ∈ title.toList, Text.isBlank c = false) ∧
      title.length + 4 ≤ plane.columns.toNat ∧ 0 < plane.rows.toNat)
    ⟨fun ⟨nonempty, visible, columns, rows⟩ => ⟨nonempty, visible, columns, rows⟩,
      fun h => ⟨h.nonempty, h.visible, h.columns, h.rows⟩⟩

/-- The middle row of the card holds the title in its column and nothing else. -/
def TitleRow (title : String) (plane : Plane) : Prop :=
  (plane.titleCard title).textRows[plane.rows.toNat / 2]? =
    some (String.ofList (List.replicate (plane.titleColumn title) ' ' ++ title.toList))

def TitleAlone (title : String) (plane : Plane) : Prop :=
  ∀ k (h : k < title.toList.length),
    Mark.written (plane.titleColumn title + k : Nat) (plane.rows.toNat / 2 : Nat)
      (Mark.card plane.columns.toNat plane.rows.toNat plane.ink title) =
        [⟨title.toList[k], plane.ink⟩]

theorem toList_banner (title : String) :
    (banner title).toList = [' ', ' '] ++ (title.toList ++ [' ', ' ']) := by
  have hbanner : banner title = "  " ++ title ++ "  " := rfl
  rw [hbanner, String.toList_append, String.toList_append, List.append_assoc]
  rfl

theorem length_banner (title : String) : (banner title).length = title.length + 4 := by
  rw [← String.length_toList, toList_banner, List.length_append, List.length_append,
    String.length_toList]
  change 2 + (title.length + 2) = title.length + 4
  omega

theorem getD_banner (title : String) (k : Nat) :
    ((banner title).toList[k]?).getD ' ' =
      if 2 ≤ k then (title.toList[k - 2]?).getD ' ' else ' ' := by
  have hblank : ∀ (n j : Nat), ((List.replicate n ' ')[j]?).getD ' ' = ' ' := by
    intro n j
    rw [List.getElem?_replicate]
    split <;> rfl
  rw [toList_banner]
  split
  · rename_i hk
    rw [List.getElem?_append_right hk]
    change ((title.toList ++ List.replicate 2 ' ')[k - 2]?).getD ' ' = _
    by_cases htitle : k - 2 < title.toList.length
    · rw [List.getElem?_append_left htitle]
    · rw [List.getElem?_append_right (by omega), hblank, List.getElem?_eq_none (by omega),
        Option.getD_none]
  · rename_i hk
    rw [List.getElem?_append_left (by simp only [List.length_cons, List.length_nil]; omega)]
    exact hblank 2 k

namespace Fitting

variable (h : Fitting title plane)
include h

theorem length_banner_le : ((banner title).length : Int) ≤ greatest := by
  have hroom := h.columns
  have hcolumns : plane.columns.toNat < 65536 := plane.columns.toNat_lt
  rw [length_banner]
  unfold greatest
  omega

theorem centre_banner :
    Mark.centre plane.columns.toNat (banner title).length = (plane.titleColumn title : Int) - 2 := by
  have hroom := h.columns
  rw [Mark.centre, length_banner, titleColumn]
  omega

theorem glyph_banner (ink : PaletteId) {k : Nat} (hk : k < title.toList.length) :
    Mark.centredGlyph? plane.columns.toNat ink (banner title) (plane.titleColumn title + k) =
      some ⟨title.toList[k], ink⟩ := by
  have hget : (banner title).toList[2 + k]? = some title.toList[k] := by
    rw [toList_banner, List.getElem?_append_right (Nat.le_add_right 2 k)]
    change (title.toList ++ [' ', ' '])[2 + k - 2]? = _
    rw [Nat.add_sub_cancel_left, List.getElem?_append_left hk, List.getElem?_eq_getElem hk]
  obtain ⟨hlt, hsymbol⟩ := List.getElem?_eq_some_iff.1 hget
  rw [Mark.centredGlyph?_at ink hlt (by rw [h.centre_banner]; omega), hsymbol]

theorem symbol_banner (ink : PaletteId) (c : Nat) :
    ((Mark.centredGlyph? plane.columns.toNat ink (banner title) c).map Glyph.symbol).getD ' ' =
      if plane.titleColumn title ≤ c then (title.toList[c - plane.titleColumn title]?).getD ' '
      else ' ' := by
  rw [Mark.symbol_centredGlyph?, h.centre_banner]
  by_cases hleft : (plane.titleColumn title : Int) - 2 ≤ c
  · rw [if_pos hleft, getD_banner]
    have hindex : ((c : Int) - ((plane.titleColumn title : Int) - 2)).toNat - 2 =
        c - plane.titleColumn title := by omega
    rw [hindex]
    exact if_congr (by omega) rfl rfl
  · rw [if_neg hleft, if_neg (by omega), Option.getD_none]

theorem middle_lt : plane.rows.toNat / 2 < plane.rows.toNat := Nat.div_lt_self h.rows (by omega)

theorem title_ne_nil : title.toList ≠ [] := fun hnil => h.nonempty (String.toList_eq_nil_iff.1 hnil)

theorem titleColumn_add_le :
    plane.titleColumn title + title.toList.length ≤ plane.columns.toNat := by
  have hroom := h.columns
  rw [titleColumn, String.length_toList]
  omega

theorem titleRow_iff :
    TitleRow title plane ↔
      Text.trimEnd ((plane.titleCard title).symbols (plane.rows.toNat / 2)) =
        List.replicate (plane.titleColumn title) ' ' ++ title.toList := by
  have hrow : plane.rows.toNat / 2 < (plane.titleCard title).rows.toNat := by
    rw [(marked_titleCard h.length_banner_le plane).rows]
    exact h.middle_lt
  rw [TitleRow, getElem?_textRows hrow, Option.some_inj, String.ofList_inj]

theorem titleRow_of_apart (hrows : ¬(plane.rows.toNat = 5 ∨ plane.rows.toNat = 6)) :
    TitleRow title plane := by
  rw [h.titleRow_iff, symbols_titleCard h.length_banner_le h.middle_lt, Text.trimEnd_eq_iff]
  refine ⟨⟨List.replicate (plane.columns.toNat - plane.titleColumn title - title.toList.length) ' ',
    fun c hc => ?_, ?_⟩, fun _ => ?_⟩
  · obtain rfl := List.eq_of_mem_replicate hc
    rfl
  · rw [← Text.map_range_placed h.titleColumn_add_le]
    refine List.map_congr_left fun c _ => ?_
    rw [Mark.getLast?_written_card, if_neg hrows, Option.none_or, h.symbol_banner]
  · rw [List.getLast_append_right h.title_ne_nil]
    exact h.visible _ (List.getLast_mem h.title_ne_nil)

theorem symbol_hint (hrows : plane.rows.toNat = 5 ∨ plane.rows.toNat = 6) {c k : Nat}
    (hk : k < startHint.toList.length)
    (hc : (c : Int) = Mark.centre plane.columns.toNat startHint.length + k)
    (hcolumn : c < plane.columns.toNat) :
    ((plane.titleCard title).symbols (plane.rows.toNat / 2))[c]? = some startHint.toList[k] := by
  rw [symbols_titleCard h.length_banner_le h.middle_lt, List.getElem?_map,
    List.getElem?_range hcolumn, Option.map_some, Mark.getLast?_written_card, if_pos hrows,
    Mark.centredGlyph?_at _ hk hc, Option.some_or]
  rfl

/-- The hint begins and ends within the title if the title's row is as it is meant to be, but then the
blank in the hint is one in the title. -/
theorem not_titleRow (hrows : plane.rows.toNat = 5 ∨ plane.rows.toNat = 6) :
    ¬TitleRow title plane := by
  intro hrow
  have hroom := h.columns
  have hcolumn : plane.titleColumn title = (plane.columns.toNat - title.length - 4) / 2 + 2 := rfl
  have hcentre : Mark.centre plane.columns.toNat startHint.length =
      max (((plane.columns.toNat : Int) - 11) / 2) 0 := rfl
  obtain ⟨start, hstart⟩ := Int.eq_ofNat_of_zero_le
    (show 0 ≤ Mark.centre plane.columns.toNat startHint.length by omega)
  have hvisible : ∀ {k : Nat} (hk : k < startHint.toList.length), start + k < plane.columns.toNat →
      (Text.isBlank startHint.toList[k] = false ↔ plane.titleColumn title ≤ start + k ∧
        start + k < plane.titleColumn title + title.toList.length) := by
    intro k hk hlt
    exact Text.visible_iff (h.titleRow_iff.1 hrow) h.visible
      (h.symbol_hint hrows hk (by rw [hstart]; omega) hlt)
  have hfirst := (hvisible (k := 0) (by decide) (by omega)).1 (by decide)
  have hlast := (hvisible (k := 10) (by decide) (by omega)).1 (by decide)
  have hblank := (hvisible (k := 5) (by decide) (by omega)).2 (by omega)
  exact absurd hblank (by decide)

theorem titleAlone_of_apart (hrows : ¬(plane.rows.toNat = 5 ∨ plane.rows.toNat = 6)) :
    TitleAlone title plane := by
  intro k hk
  rw [Mark.written_card, h.glyph_banner _ hk, if_neg hrows, List.append_nil]
  rfl

/-- Title and hint are both centred, so that they have a column in common. -/
theorem not_titleAlone (hrows : plane.rows.toNat = 5 ∨ plane.rows.toNat = 6) :
    ¬TitleAlone title plane := by
  intro halone
  have hroom := h.columns
  have htitle := List.length_pos_of_ne_nil h.title_ne_nil
  have hlength := String.length_toList (s := title)
  have hcolumn : plane.titleColumn title = (plane.columns.toNat - title.length - 4) / 2 + 2 := rfl
  have hcentre : Mark.centre plane.columns.toNat startHint.length =
      max (((plane.columns.toNat : Int) - 11) / 2) 0 := rfl
  have hhint : startHint.toList.length = 11 := rfl
  obtain ⟨k, j, hk, hj, hsame⟩ : ∃ k j, k < title.toList.length ∧ j < startHint.toList.length ∧
      ((plane.titleColumn title + k : Nat) : Int) =
        Mark.centre plane.columns.toNat startHint.length + j := by
    rcases Int.le_total (plane.titleColumn title) (Mark.centre plane.columns.toNat startHint.length)
      with hle | hle
    · exact ⟨(Mark.centre plane.columns.toNat startHint.length).toNat - plane.titleColumn title, 0,
        by omega, by omega, by omega⟩
    · exact ⟨0, plane.titleColumn title - (Mark.centre plane.columns.toNat startHint.length).toNat,
        by omega, by omega, by omega⟩
  have hone := halone k hk
  rw [Mark.written_card, h.glyph_banner _ hk, if_pos hrows, Mark.centredGlyph?_at _ hj hsame] at hone
  exact Nat.succ_ne_self 1 (congrArg List.length hone)

end Fitting

/-- The card clears the plane and writes its rules, the title and the hint. A title that fits can be read
in its middle row, where nothing else stands and no other glyph of the card is written, just if the plane
is neither five nor six rows high. -/
theorem title_readable_iff {title : String} {plane : Plane} (h : Fitting title plane) :
    Marked (Mark.card plane.columns.toNat plane.rows.toNat plane.ink title) plane
      (plane.titleCard title) ∧
    (TitleRow title plane ↔ ¬(plane.rows.toNat = 5 ∨ plane.rows.toNat = 6)) ∧
    (TitleAlone title plane ↔ ¬(plane.rows.toNat = 5 ∨ plane.rows.toNat = 6)) := by
  refine ⟨marked_titleCard h.length_banner_le plane, ?_, ?_⟩
  · exact ⟨fun hrow hrows => h.not_titleRow hrows hrow, h.titleRow_of_apart⟩
  · exact ⟨fun halone hrows => h.not_titleAlone hrows halone, h.titleAlone_of_apart⟩

theorem title_between_rules :
    let plane := (empty 9 7).setInk 2
    Fitting "Größe" plane ∧ (plane.titleCard "Größe").textRows[3]? = some "  Größe" ∧
      Mark.written 3 3 (Mark.card 9 7 2 "Größe") = [⟨'r', 2⟩] := by
  intro plane
  have hfits : Fitting "Größe" plane := by decide
  have hmiddle : plane.rows.toNat / 2 = 3 := by decide
  have hcolumn : plane.titleColumn "Größe" = 2 := by decide
  have htext : String.ofList (List.replicate 2 ' ' ++ "Größe".toList) = "  Größe" := by decide
  obtain ⟨-, hrow, halone⟩ := title_readable_iff hfits
  have hseen := hrow.2 (by decide)
  have hwritten := halone.2 (by decide) 1 (by decide)
  rw [TitleRow, hmiddle, hcolumn, htext] at hseen
  rw [hmiddle, hcolumn] at hwritten
  exact ⟨hfits, hseen, hwritten⟩

/-- On five rows the hint is written over the title. -/
theorem not_always_readable :
    ¬ ∀ title plane, Fitting title plane → 5 ≤ plane.rows.toNat →
      TitleRow title plane ∧ TitleAlone title plane := by
  intro h
  have hfits : Fitting "Hi" (empty 20 5) := by decide
  exact hfits.not_titleRow (.inl rfl) (h "Hi" (empty 20 5) hfits (by decide)).1

end Plane

end TileDeck
