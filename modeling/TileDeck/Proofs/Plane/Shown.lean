import TileDeck.Proofs.Plane.Card
import TileDeck.Proofs.Plane.Exact
import TileDeck.Proofs.Plane.Spans

set_option autoImplicit false

namespace TileDeck.Plane

open Coordinate

structure Centres (plane : Plane) (length : Nat) : Prop where
  least_le : least ≤ plane.columns.toNat - (Int32.ofNat length).toInt
  le_greatest : plane.columns.toNat - (Int32.ofNat length).toInt ≤ greatest
  reaches : ∀ k < length, Reckoning.checked.Reaches (plane.centre length) k

variable {plane : Plane}

theorem answers_centre (plane : Plane) (length : Nat) :
    Answers (Reckoning.checked.centre plane length)
      (least ≤ plane.columns.toNat - (Int32.ofNat length).toInt ∧
        plane.columns.toNat - (Int32.ofNat length).toInt ≤ greatest) (plane.centre length) := by
  have hcolumns := toInt_columns plane
  have hrest := answers_difference (Int32.ofNat plane.columns.toNat) (Int32.ofNat length)
  rw [hcolumns] at hrest
  exact Answers.congr (hrest.bind fun _ => .always _) (and_iff_left trivial)

/-- A text that is centred has room. -/
theorem room_centre (plane : Plane) {length : Nat} (h : (length : Int) ≤ greatest) :
    Room (plane.centre length) (length - 1) := by
  have hlast := centre_add_le plane.columns.toNat_lt h
  constructor
  · omega
  · rw [toInt_centre plane h]
    omega

theorem centres_of_le (plane : Plane) {length : Nat} (h : (length : Int) ≤ greatest) :
    plane.Centres length := by
  have hcolumns : plane.columns.toNat < 65536 := plane.columns.toNat_lt
  have hlength := toInt_ofNat h
  refine ⟨?_, ?_, ?_⟩
  · rw [hlength]
    unfold greatest at h
    unfold least
    omega
  · rw [hlength]
    unfold greatest
    omega
  · exact (Reckoning.checked.forall_reaches_iff (by omega)).2 (room_centre plane h)

theorem answers_putRules (plane : Plane) :
    Answers (Reckoning.putRules plane) True plane.putRules := by
  refine Answers.congr (Answers.foldlM_of_mem (fun column _ plane => ?_) plane)
    (iff_true_intro fun _ _ => trivial)
  have hmiddle := toInt_middleRow plane
  have habove : difference? plane.middleRow 2 = some (plane.middleRow - 2) :=
    difference?_of_nonneg (by omega) (by decide)
  have hbelow : sum? plane.middleRow 2 = some (plane.middleRow + 2) := by
    have hr : plane.rows.toNat < 65536 := plane.rows.toNat_lt
    have htwo : (2 : Int32).toInt = 2 := rfl
    refine sum?_of_le ?_ ?_
    · unfold least
      omega
    · unfold greatest
      omega
  rw [habove, hbelow]
  exact .always _

theorem answers_titleCard (title : String) (plane : Plane) :
    Answers (Reckoning.checked.titleCard title plane) (plane.Centres (banner title).length)
      (plane.titleCard title) := by
  have hhint := @centres_of_le plane startHint.length (by decide)
  have hrow : difference? (Int32.ofNat plane.rows.toNat) 3 =
      some (Int32.ofNat plane.rows.toNat - 3) := by
    have hrows := toInt_rows plane
    exact difference?_of_nonneg (by omega) (by decide)
  refine Answers.congr ((answers_putRules plane.clear).bind fun _ =>
    (answers_centre plane (banner title).length).bind fun _ =>
    (Reckoning.checked.answers_putText _ _ _ _).bind fun _ =>
    (answers_centre plane startHint.length).bind fun _ =>
    (Answers.of_eq hrow).bind fun _ => Reckoning.checked.answers_putText _ _ _ _) ?_
  constructor
  · exact fun ⟨_, hrest, hreaches, _⟩ => ⟨hrest.1, hrest.2, hreaches⟩
  · exact fun h => ⟨trivial, ⟨h.least_le, h.le_greatest⟩, h.reaches,
      ⟨hhint.least_le, hhint.le_greatest⟩, trivial, hhint.reaches⟩

/-- Where the layer shows through a blank tile, the register and its column have a sum. -/
def Showable (plane : Plane) : Prop :=
  plane.layered → ∀ x y, plane.tile? x y = some .blank → x.toInt + plane.scroll.toInt ≤ greatest

variable {x y : Int32}

theorem answers_layerSymbol (hx : 0 ≤ x.toInt) (y : Int32) :
    Answers (plane.layerSymbol? x y)
      (plane.layered → x.toInt + plane.scroll.toInt ≤ greatest) (plane.layerSymbol x y) := by
  unfold layerSymbol? layerSymbol
  cases plane.layered with
  | false =>
    have hhidden : ¬ (false = true) := Bool.false_ne_true
    rw [if_neg hhidden, if_neg fun h => hhidden h.1]
    exact (Answers.always _).congr (iff_of_true trivial fun h => absurd h hhidden)
  | true =>
    have hscroll : least ≤ plane.scroll.toInt := plane.scroll.le_toInt
    rw [if_pos rfl]
    simp only [true_and]
    refine Answers.congr ((answers_sum x plane.scroll).bind fun _ => .always _) ?_
    exact ⟨fun h _ => h.1.2, fun h => ⟨⟨by omega, h trivial⟩, trivial⟩⟩

theorem answers_cellOf (hx : 0 ≤ x.toInt) (y : Int32) (tile : Tile) :
    Answers (plane.cellOf? x y tile)
      (tile = .blank → plane.layered → x.toInt + plane.scroll.toInt ≤ greatest)
      (plane.cellOf x y tile) := by
  have hsymbol : Answers (plane.symbolAt? x y tile)
      (tile = .blank → plane.layered → x.toInt + plane.scroll.toInt ≤ greatest)
      (plane.symbolAt x y tile) := by
    unfold symbolAt? symbolAt
    by_cases htile : tile = .blank
    · rw [if_pos htile, if_pos htile]
      exact (answers_layerSymbol hx y).congr ⟨fun h _ => h, fun h => h htile⟩
    · rw [if_neg htile, if_neg htile]
      exact (Answers.always _).congr (iff_of_true trivial fun h => absurd h htile)
  exact Answers.congr (hsymbol.bind fun _ => .always _) (and_iff_left trivial)

theorem answers_cell (hx : 0 ≤ x.toInt) (y : Int32) :
    Answers ((plane.tile? x y).elim (some none) fun tile => (plane.cellOf? x y tile).map some)
      (plane.tile? x y = some .blank → plane.layered → x.toInt + plane.scroll.toInt ≤ greatest)
      (plane.cell? x y) := by
  unfold cell?
  cases plane.tile? x y with
  | none => exact (Answers.always none).congr (iff_of_true trivial fun h => nomatch h)
  | some tile =>
    rw [Option.some_inj]
    exact (answers_cellOf hx y tile).map some

theorem mem_places {n : UInt16} :
    x ∈ (List.range n.toNat).map Int32.ofNat ↔ 0 ≤ x.toInt ∧ x.toInt < n.toNat := by
  have hn : n.toNat < 65536 := n.toNat_lt
  rw [List.mem_map]
  constructor
  · rintro ⟨k, hk, rfl⟩
    rw [List.mem_range] at hk
    rw [toInt_ofNat (by unfold greatest; omega)]
    omega
  · rintro ⟨hx, hlt⟩
    refine ⟨x.toInt.toNat, List.mem_range.2 (by omega), ?_⟩
    rw [← Int32.ofInt_eq_ofNat, Int.toNat_of_nonneg hx, Int32.ofInt_toInt]

theorem answers_cells (plane : Plane) (y : Int32) :
    Answers (plane.cells? y)
      (∀ x ∈ plane.columnList, plane.tile? x y = some .blank →
        plane.layered → x.toInt + plane.scroll.toInt ≤ greatest) (plane.cells y) := by
  have hcells : (plane.columnList.map (plane.cell? · y)).filterMap id = plane.cells y :=
    List.filterMap_map
  rw [← hcells]
  refine Answers.congr ((Answers.mapM fun x hx => answers_cell (mem_places.1 hx).1 y).bind fun _ =>
    .always _) (and_iff_left trivial)

/-- A plane is shown exactly just if its layer can be. -/
theorem answers_lines (plane : Plane) : Answers plane.lines? plane.Showable plane.lines := by
  refine Answers.congr (Answers.mapM fun y _ => (answers_cells plane y).map Span.ofCells) ?_
  constructor
  · intro h hlayered x y htile
    have hwithin : plane.Within x y := by
      by_contra hn
      rw [tile?_of_not_within hn] at htile
      cases htile
    obtain ⟨hx, hcolumn, hy, hrow⟩ := hwithin
    exact h y (mem_places.2 ⟨hy, hrow⟩) x (mem_places.2 ⟨hx, hcolumn⟩) htile hlayered
  · exact fun h y _ x _ htile hlayered => h hlayered x y htile

end TileDeck.Plane
