import Mathlib.Data.List.SplitBy
import TileDeck.Proofs.Plane.History

set_option autoImplicit false

namespace TileDeck

open Coordinate

namespace Span

/-- The spans tell a row, and are as few as can be. -/
structure Canonical (row : List Cell) (spans : List Span) : Prop where
  cells : spans.flatMap Span.cells = row
  nonempty : ∀ span ∈ spans, span.text ≠ []
  apart : spans.IsChain fun span next => span.style ≠ next.style

theorem map_symbol_cells (span : Span) : span.cells.map Cell.symbol = span.text := by
  rw [cells, List.map_map]
  exact List.map_id _

theorem Canonical.text {row : List Cell} {spans : List Span} (h : Canonical row spans) :
    spans.flatMap Span.text = row.map Cell.symbol := by
  rw [← h.cells, List.map_flatMap]
  simp only [map_symbol_cells]

/-- Whether two cells go into one span. -/
def alike (c d : Cell) : Bool := c.style == d.style

theorem alike_eq_true {c d : Cell} : alike c d = true ↔ c.style = d.style := beq_iff_eq

theorem alike_eq_false {c d : Cell} : alike c d = false ↔ c.style ≠ d.style := beq_eq_false_iff_ne

theorem style_of_mem_run {c : Cell} {rest : List Cell}
    (h : (c :: rest).IsChain fun c d => alike c d = true) : ∀ d ∈ c :: rest, d.style = c.style := by
  induction rest generalizing c with
  | nil => simp
  | cons next rest ih =>
    obtain ⟨hc, hrest⟩ := List.isChain_cons_cons.1 h
    have hnext := ih hrest
    rw [alike_eq_true] at hc
    rw [← hc] at hnext
    exact List.forall_mem_cons.2 ⟨rfl, hnext⟩

theorem ofRun?_of_isChain {run : List Cell} (hn : run ≠ [])
    (h : run.IsChain fun c d => alike c d = true) :
    ∃ span, ofRun? run = some span ∧ span.cells = run := by
  obtain ⟨c, rest, rfl⟩ := List.exists_cons_of_ne_nil hn
  refine ⟨_, rfl, ?_⟩
  have hstyle := style_of_mem_run h
  rw [cells, List.map_map]
  refine (List.map_congr_left fun d hd => ?_).trans (List.map_id _)
  have hd' := hstyle d hd
  cases d
  exact congrArg _ hd'.symm

theorem ofRun?_cells {span : Span} (h : span.text ≠ []) : ofRun? span.cells = some span := by
  obtain ⟨text, style⟩ := span
  obtain ⟨c, rest, rfl⟩ := List.exists_cons_of_ne_nil h
  have htext := map_symbol_cells ⟨c :: rest, style⟩
  exact congrArg (fun text => some (Span.mk text style)) htext

theorem style_of_mem_cells {span : Span} {c : Cell} (h : c ∈ span.cells) : c.style = span.style := by
  obtain ⟨_, _, rfl⟩ := List.mem_map.1 h
  rfl

theorem isChain_cells (span : Span) : span.cells.IsChain fun c d => alike c d = true := by
  refine List.Pairwise.isChain (List.pairwise_of_forall_mem_list fun c hc d hd => ?_)
  rw [alike_eq_true, style_of_mem_cells hc, style_of_mem_cells hd]

theorem map_cells_ofCells (row : List Cell) : (ofCells row).map cells = row.splitBy alike := by
  have hruns : ∀ run ∈ row.splitBy alike, ∃ span, ofRun? run = some span ∧ span.cells = run :=
    fun _ hr => ofRun?_of_isChain (List.ne_nil_of_mem_splitBy hr) (List.isChain_of_mem_splitBy hr)
  change ((row.splitBy alike).filterMap ofRun?).map cells = _
  generalize row.splitBy alike = runs at hruns
  induction runs with
  | nil => rfl
  | cons run rest ih =>
    rw [List.forall_mem_cons] at hruns
    obtain ⟨⟨span, hspan, hcells⟩, hrest⟩ := hruns
    rw [List.filterMap_cons_some hspan, List.map_cons, hcells, ih hrest]

theorem ends_apart {span next : Span} (hspan : span.text ≠ []) (hnext : next.text ≠ []) :
    (∃ hs hn, alike (span.cells.getLast hs) (next.cells.head hn) = false) ↔
      span.style ≠ next.style := by
  have hs : span.cells ≠ [] := mt List.map_eq_nil_iff.1 hspan
  have hn : next.cells ≠ [] := mt List.map_eq_nil_iff.1 hnext
  have hlast := style_of_mem_cells (List.getLast_mem hs)
  have hhead := style_of_mem_cells (List.head_mem hn)
  simp only [alike_eq_false, hlast, hhead, hs, hn, ne_eq, not_false_eq_true, exists_true_left]

theorem nil_notMem_map_cells {spans : List Span} :
    [] ∉ spans.map cells ↔ ∀ span ∈ spans, span.text ≠ [] := by
  constructor
  · intro h span hm ht
    exact h (List.mem_map.2 ⟨span, hm, List.map_eq_nil_iff.2 ht⟩)
  · intro h hm
    obtain ⟨span, hspan, hn⟩ := List.mem_map.1 hm
    exact h span hspan (List.map_eq_nil_iff.1 hn)

theorem canonical_iff_splitBy {row : List Cell} {spans : List Span} :
    Canonical row spans ↔ row.splitBy alike = spans.map cells := by
  rw [List.splitBy_eq_iff, nil_notMem_map_cells, List.isChain_map]
  constructor
  · intro h
    refine ⟨h.cells.symm, h.nonempty, List.forall_mem_map.2 fun span _ => isChain_cells span, ?_⟩
    exact h.apart.imp_of_mem_imp fun span next hspan hnext hne =>
      (ends_apart (h.nonempty span hspan) (h.nonempty next hnext)).2 hne
  · rintro ⟨hcells, hnonempty, -, hends⟩
    refine ⟨hcells.symm, hnonempty, ?_⟩
    exact hends.imp_of_mem_imp fun span next hspan hnext hne =>
      (ends_apart (hnonempty span hspan) (hnonempty next hnext)).1 hne

theorem canonical_iff {row : List Cell} {spans : List Span} :
    Canonical row spans ↔ spans = ofCells row := by
  constructor
  · intro h
    have hruns : ofCells row = (spans.map cells).filterMap ofRun? :=
      congrArg (List.filterMap ofRun?) (canonical_iff_splitBy.1 h)
    rw [hruns, List.filterMap_map]
    have hback : ∀ span ∈ spans, ofRun? span.cells = some span :=
      fun span hspan => ofRun?_cells (h.nonempty span hspan)
    exact List.filterMap_some.symm.trans (List.filterMap_congr fun span hspan => (hback span hspan).symm)
  · rintro rfl
    exact canonical_iff_splitBy.2 (map_cells_ofCells row).symm

end Span

namespace Plane

variable {plane : Plane} {r c : Nat}

theorem within_of_lt (hr : r < plane.rows.toNat) (hc : c < plane.columns.toNat) :
    plane.Within (Int32.ofNat c) (Int32.ofNat r) := by
  have hrows := plane.rows.toNat_lt
  have hcolumns := plane.columns.toNat_lt
  have hrow : (Int32.ofNat r).toInt = r := toInt_ofNat (by unfold greatest; omega)
  have hcolumn : (Int32.ofNat c).toInt = c := toInt_ofNat (by unfold greatest; omega)
  unfold Within
  omega

theorem exists_cell (hr : r < plane.rows.toNat) (hc : c < plane.columns.toNat) :
    ∃ tile, plane.tile? (Int32.ofNat c) (Int32.ofNat r) = some tile ∧
      plane.cell? (Int32.ofNat c) (Int32.ofNat r) =
        some (plane.cellOf (Int32.ofNat c) (Int32.ofNat r) tile) := by
  have hw := within_of_lt hr hc
  have htile := tile?_of_within hw (index_lt hw)
  exact ⟨_, htile, by rw [cell?, htile, Option.map_some]⟩

theorem map_some_cells (hr : r < plane.rows.toNat) :
    (plane.cells (Int32.ofNat r)).map some =
      (List.range plane.columns.toNat).map fun c => plane.cell? (Int32.ofNat c) (Int32.ofNat r) := by
  rw [cells, columnList, List.filterMap_map, List.map_filterMap, ← List.filterMap_eq_map]
  refine List.filterMap_congr fun c hc => ?_
  obtain ⟨tile, _, hcell⟩ := exists_cell hr (List.mem_range.1 hc)
  simp only [Function.comp, hcell, Option.map_some]

theorem length_cells (hr : r < plane.rows.toNat) :
    (plane.cells (Int32.ofNat r)).length = plane.columns.toNat := by
  have hlength := congrArg List.length (map_some_cells hr)
  rwa [List.length_map, List.length_map, List.length_range] at hlength

theorem getElem?_cells (hr : r < plane.rows.toNat) (hc : c < plane.columns.toNat) :
    ∃ tile, plane.tile? (Int32.ofNat c) (Int32.ofNat r) = some tile ∧
      (plane.cells (Int32.ofNat r))[c]? =
        some (plane.cellOf (Int32.ofNat c) (Int32.ofNat r) tile) := by
  obtain ⟨tile, htile, hcell⟩ := exists_cell hr hc
  have hget := congrArg (·[c]?) (map_some_cells hr)
  simp only [List.getElem?_map, List.getElem?_range hc, Option.map_some, hcell] at hget
  obtain ⟨cell, hrow, hsame⟩ := Option.map_eq_some_iff.1 hget
  exact ⟨tile, htile, hrow.trans hsame⟩

theorem getElem?_lines (hr : r < plane.rows.toNat) :
    plane.lines[r]? = some (Span.ofCells (plane.cells (Int32.ofNat r))) := by
  rw [lines, rowList, List.map_map, List.getElem?_map, List.getElem?_range hr]
  rfl

/-- A plane is shown in as many lines as it has rows. Each of them is the one canonical telling of a
row with a cell for each column. The cell has the symbol of its tile, or of the layer behind a blank
one, in the colours that the tile's slots stand for, those of the backdrop where it has no
background. -/
theorem lines_canonical (plane : Plane) :
    plane.lines.length = plane.rows.toNat ∧
    ∀ r < plane.rows.toNat, ∃ row line, plane.lines[r]? = some line ∧
      (∀ spans, Span.Canonical row spans ↔ spans = line) ∧
      line.flatMap Span.text = row.map Cell.symbol ∧
      row.length = plane.columns.toNat ∧
      ∀ c < plane.columns.toNat, ∃ tile,
        plane.tile? (Int32.ofNat c) (Int32.ofNat r) = some tile ∧
        row[c]? = some
          { symbol := if tile = .blank then plane.layerSymbol (Int32.ofNat c) (Int32.ofNat r)
              else tile.symbol
            style := ⟨plane.tint tile.fg,
              (tile.bg.map plane.tint).getD (plane.tint plane.backdrop), false⟩ } := by
  refine ⟨by rw [lines, rowList, List.length_map, List.length_map, List.length_range], ?_⟩
  intro r hr
  have hcanonical : Span.Canonical (plane.cells (Int32.ofNat r)) _ := Span.canonical_iff.2 rfl
  refine ⟨_, _, getElem?_lines hr, fun _ => Span.canonical_iff, hcanonical.text, length_cells hr, ?_⟩
  intro c hc
  obtain ⟨tile, htile, hcell⟩ := getElem?_cells hr hc
  refine ⟨tile, htile, hcell.trans ?_⟩
  cases hbg : tile.bg <;> simp only [cellOf, symbolAt, hbg] <;> rfl

theorem blended_lines :
    let ops : List Operation := [.setColour 3 ⟨1, 2, 3⟩, .setColour 9 ⟨1, 2, 3⟩, .setInk 3,
      .put 0 0 'a', .setInk 9, .put 1 0 'b', .showLayer]
    let plane := performAll ops (empty 5 1)
    let ground := plane.tint plane.backdrop
    0 < plane.rows.toNat ∧ 4 < plane.columns.toNat ∧ ∃ row,
      Span.Canonical row [⟨"ab".toList, ⟨.rgb ⟨1, 2, 3⟩, ground, false⟩⟩,
        ⟨"  ·".toList, ⟨plane.tint 0, ground, false⟩⟩] ∧
      row[4]? = some ⟨'·', ⟨plane.tint 0, ground, false⟩⟩ := by
  intro ops plane ground
  have hrows : 0 < plane.rows.toNat := by decide
  have hcolumns : 4 < plane.columns.toNat := by decide
  obtain ⟨row, line, hline, hcanonical, -, -, hcells⟩ := (lines_canonical plane).2 0 hrows
  obtain ⟨tile, htile, hcell⟩ := hcells 4 hcolumns
  have hspans : plane.lines[0]? = some [⟨"ab".toList, ⟨.rgb ⟨1, 2, 3⟩, ground, false⟩⟩,
      ⟨"  ·".toList, ⟨plane.tint 0, ground, false⟩⟩] := by decide +kernel
  have hblank : plane.tile? (Int32.ofNat 4) (Int32.ofNat 0) = some .blank := by decide +kernel
  obtain rfl := Option.some.inj (hblank.symm.trans htile)
  refine ⟨hrows, hcolumns, row, (hcanonical _).2 (Option.some.inj (hspans.symm.trans hline)), ?_⟩
  exact hcell.trans (by decide +kernel)

end Plane

end TileDeck
