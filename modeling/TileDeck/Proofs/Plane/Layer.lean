import TileDeck.Proofs.Plane.Spans

set_option autoImplicit false

/-!
# The layer of dots

The layer shows behind what is blank, from the last time it was shown or scrolled until the plane is
cleared. It stands where all steps so far have brought it: the register goes round, but the dots
stand four columns apart and four divides the number of words, so that they never jump.
-/
namespace TileDeck

open Coordinate

namespace Plane

namespace Operation

def step : Operation → Int
  | scrollLayer step => step.toInt
  | _ => 0

def Reveals : Operation → Prop
  | showLayer | scrollLayer _ => True
  | _ => False

def Hides : Operation → Prop
  | clear | titleCard _ => True
  | _ => False

end Operation

/-- How far operations move the layer in all, exactly. -/
def scrolled : List Operation → Int
  | [] => 0
  | op :: rest => op.step + scrolled rest

/-- Whether the layer was shown or scrolled and nothing has hidden it since. -/
def Revealed (ops : List Operation) : Prop :=
  ∃ before op after, ops = before ++ op :: after ∧ op.Reveals ∧ ∀ later ∈ after, ¬ later.Hides

theorem scroll_modify (x y : Int32) (change : Tile → Tile) (plane : Plane) :
    (plane.modify x y change).scroll = plane.scroll := by
  unfold modify
  split <;> rfl

theorem scroll_titleCard (title : String) (plane : Plane) :
    (plane.titleCard title).scroll = plane.scroll :=
  titleCard_keeps scroll_modify title plane

theorem scroll_perform (op : Operation) (plane : Plane) :
    (op.perform plane).scroll = plane.scroll + Int32.ofInt op.step := by
  have hkept : ∀ {after : Plane}, after.scroll = plane.scroll → after.scroll = plane.scroll + 0 := by
    intro after h
    rw [h, Int32.add_zero]
  cases op with
  | put x y symbol => exact hkept (scroll_modify x y _ plane)
  | putText x y text => exact hkept (putText_keeps scroll_modify x y text plane)
  | fill x y id => exact hkept (scroll_modify x y _ plane)
  | titleCard title => exact hkept (scroll_titleCard title plane)
  | scrollLayer step =>
    change plane.scroll + step = plane.scroll + Int32.ofInt step.toInt
    rw [Int32.ofInt_toInt]
  | _ => exact hkept rfl

theorem scroll_performAll (ops : List Operation) (plane : Plane) :
    (performAll ops plane).scroll = plane.scroll + Int32.ofInt (scrolled ops) := by
  induction ops generalizing plane with
  | nil => exact (Int32.add_zero _).symm
  | cons op rest ih =>
    rw [performAll, List.foldl_cons]
    refine (ih (op.perform plane)).trans ?_
    rw [scroll_perform, scrolled, Int32.ofInt_add, Int32.add_assoc]

/-- The dots stand as if no word had gone round. -/
theorem emod_scrolled (ops : List Operation) (columns rows : UInt16) (c : Nat) :
    (Int32.ofNat c + (performAll ops (empty columns rows)).scroll).toInt % 4 =
      (c + scrolled ops) % 4 := by
  have hsum : Int32.ofNat c + (performAll ops (empty columns rows)).scroll =
      Int32.ofInt (c + scrolled ops) := by
    rw [scroll_performAll, Int32.ofInt_add, Int32.ofInt_eq_ofNat]
    exact congrArg _ (Int32.zero_add _)
  rw [hsum]
  exact toInt_ofInt_emod (by decide) _

theorem layered_modify (x y : Int32) (change : Tile → Tile) (plane : Plane) :
    (plane.modify x y change).layered = plane.layered := by
  unfold modify
  split <;> rfl

theorem layered_titleCard (title : String) (plane : Plane) :
    (plane.titleCard title).layered = false :=
  titleCard_keeps layered_modify title plane

theorem layered_perform (op : Operation) (plane : Plane) :
    (op.perform plane).layered = true ↔ op.Reveals ∨ plane.layered = true ∧ ¬ op.Hides := by
  have hdrawn : ∀ {after : Plane}, after.layered = plane.layered →
      (after.layered = true ↔ False ∨ plane.layered = true ∧ ¬ False) := by
    intro after h
    rw [h, false_or, not_false_eq_true, and_true]
  have hhidden : ∀ {after : Plane}, after.layered = false →
      (after.layered = true ↔ False ∨ plane.layered = true ∧ ¬ True) := by
    intro after h
    simp [h]
  cases op with
  | put x y symbol => exact hdrawn (layered_modify x y _ plane)
  | putText x y text => exact hdrawn (putText_keeps layered_modify x y text plane)
  | fill x y id => exact hdrawn (layered_modify x y _ plane)
  | clear => exact hhidden rfl
  | titleCard title => exact hhidden (layered_titleCard title plane)
  | showLayer => exact ⟨fun _ => .inl trivial, fun _ => rfl⟩
  | scrollLayer step => exact ⟨fun _ => .inl trivial, fun _ => rfl⟩
  | _ => exact hdrawn rfl

theorem revealed_concat (ops : List Operation) (op : Operation) :
    Revealed (ops ++ [op]) ↔ op.Reveals ∨ Revealed ops ∧ ¬ op.Hides := by
  constructor
  · rintro ⟨before, revealing, after, hops, hreveals, hafter⟩
    -- the revealing operation is the last one, or the last one comes later
    rcases List.eq_nil_or_concat after with rfl | ⟨middle, last, rfl⟩
    · obtain ⟨rfl, hop⟩ := List.append_inj' hops rfl
      obtain rfl := List.singleton_inj.1 hop
      exact .inl hreveals
    · rw [List.concat_eq_append, ← List.cons_append, ← List.append_assoc] at hops
      obtain ⟨rfl, hop⟩ := List.append_inj' hops rfl
      obtain rfl := List.singleton_inj.1 hop
      rw [List.concat_eq_append, List.forall_mem_append] at hafter
      exact .inr ⟨⟨before, revealing, middle, rfl, hreveals, hafter.1⟩,
        hafter.2 op (List.mem_singleton_self op)⟩
  · rintro (hreveals | ⟨⟨before, revealing, after, rfl, hreveals, hafter⟩, hop⟩)
    · exact ⟨ops, op, [], rfl, hreveals, List.forall_mem_nil _⟩
    · refine ⟨before, revealing, after ++ [op], by rw [List.append_assoc, List.cons_append],
        hreveals, ?_⟩
      exact List.forall_mem_append.2 ⟨hafter, List.forall_mem_singleton.2 hop⟩

theorem not_revealed_nil : ¬ Revealed [] := by
  rintro ⟨before, op, after, h, -⟩
  cases before <;> cases h

theorem layered_performAll (ops : List Operation) (columns rows : UInt16) :
    (performAll ops (empty columns rows)).layered = true ↔ Revealed ops := by
  induction ops using List.reverseRecOn with
  | nil => exact ⟨nofun, fun h => absurd h not_revealed_nil⟩
  | append_singleton ops op ih =>
    rw [revealed_concat, ← ih, ← layered_perform, performAll, List.foldl_concat]
    rfl

/-- Where dots stand: on every second row, on every fourth column of the layer as it was moved. -/
def Dotted (ops : List Operation) (c r : Nat) : Prop :=
  r % 2 = 0 ∧ 4 ∣ (c : Int) + scrolled ops ∧ Revealed ops

theorem dotted_iff {ops : List Operation} {columns rows : UInt16} {c r : Nat}
    (hr : (r : Int) ≤ greatest) :
    let plane := performAll ops (empty columns rows)
    (plane.layered ∧ (Int32.ofNat c + plane.scroll).toInt % 4 = 0 ∧
      (Int32.ofNat r).toInt % 2 = 0) ↔ Dotted ops c r := by
  intro plane
  have hrow := toInt_ofNat hr
  rw [layered_performAll, emod_scrolled, hrow, Dotted, Int.dvd_iff_emod_eq_zero]
  constructor
  · rintro ⟨hrevealed, hcolumn, heven⟩
    exact ⟨by omega, hcolumn, hrevealed⟩
  · rintro ⟨heven, hcolumn, hrevealed⟩
    exact ⟨hrevealed, hcolumn, by omega⟩

/-- Every tile shows its own symbol unless it is blank. A blank one shows a dot where the exact sum of
all steps so far puts one, if the layer is shown, and nothing elsewhere. What hides the layer leaves it
where it is. -/
theorem layer_behind_blanks (columns rows : UInt16) (ops : List Operation) :
    let plane := performAll ops (empty columns rows)
    (∀ r < plane.rows.toNat, ∀ c < plane.columns.toNat, ∃ line tile symbol,
      plane.lines[r]? = some line ∧ (line.flatMap Span.text)[c]? = some symbol ∧
      plane.tile? (Int32.ofNat c) (Int32.ofNat r) = some tile ∧
      (tile ≠ .blank → symbol = tile.symbol) ∧
      (tile = .blank → Dotted ops c r → symbol = dot) ∧
      (tile = .blank → ¬ Dotted ops c r → symbol = ' ')) ∧
    ∀ op : Operation, op.Hides →
      (op.perform plane).layered = false ∧ (op.perform plane).scroll = plane.scroll := by
  intro plane
  constructor
  · intro r hr c hc
    have hrows : plane.rows.toNat < 65536 := plane.rows.toNat_lt
    obtain ⟨tile, htile, hcell⟩ := getElem?_cells hr hc
    have hcanonical : Span.Canonical (plane.cells (Int32.ofNat r)) _ := Span.canonical_iff.2 rfl
    refine ⟨_, tile, plane.symbolAt (Int32.ofNat c) (Int32.ofNat r) tile, getElem?_lines hr, ?_,
      htile, ?_, ?_, ?_⟩
    · rw [hcanonical.text, List.getElem?_map, hcell]
      rfl
    · exact fun hblank => if_neg hblank
    · intro hblank hdotted
      rw [symbolAt, if_pos hblank, layerSymbol,
        if_pos ((dotted_iff (by unfold greatest; omega)).2 hdotted)]
    · intro hblank hplain
      rw [symbolAt, if_pos hblank, layerSymbol,
        if_neg (mt (dotted_iff (by unfold greatest; omega)).1 hplain)]
  · intro op hop
    cases op with
    | clear => exact ⟨rfl, rfl⟩
    | titleCard title => exact ⟨layered_titleCard title plane, scroll_titleCard title plane⟩
    | _ => exact hop.elim

theorem dotted_far :
    let ops : List Operation := [.scrollLayer 0x7FFFFFFF, .put 0 0 'a', .clear,
      .scrollLayer 0x7FFFFFFF, .put 1 0 'b']
    let plane := performAll ops (empty 3 1)
    0 < plane.rows.toNat ∧ 2 < plane.columns.toNat ∧ greatest < scrolled ops ∧
      plane.tile? 2 0 = some .blank ∧
      ∃ line, plane.lines[0]? = some line ∧ (line.flatMap Span.text)[2]? = some dot := by
  intro ops plane
  have hrows : 0 < plane.rows.toNat := by decide
  have hcolumns : 2 < plane.columns.toNat := by decide
  have hblank : plane.tile? 2 0 = some .blank := by decide +kernel
  have hdotted : Dotted ops 2 0 :=
    ⟨rfl, by decide, [.scrollLayer 0x7FFFFFFF, .put 0 0 'a', .clear], .scrollLayer 0x7FFFFFFF,
      [.put 1 0 'b'], rfl, trivial, List.forall_mem_singleton.2 id⟩
  obtain ⟨line, tile, symbol, hline, hsymbol, htile, -, hdot, -⟩ :=
    (layer_behind_blanks 3 1 ops).1 0 hrows 2 hcolumns
  obtain rfl := Option.some.inj (hblank.symm.trans htile)
  obtain rfl := hdot rfl hdotted
  exact ⟨hrows, hcolumns, by decide, hblank, line, hline, hsymbol⟩

end Plane

end TileDeck
