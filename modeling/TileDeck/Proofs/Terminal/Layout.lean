import TileDeck.Proofs.Plane.Clearing
import TileDeck.Terminal.Reckoned
import TileDeck.Terminal.Settings

set_option autoImplicit false

namespace TileDeck.Terminal

theorem toNat_less (a b : UInt16) : (less a b).toNat = a.toNat - b.toNat := by
  unfold less
  split
  · rename_i h
    exact UInt16.toNat_sub_of_le a b h
  · rename_i h
    rw [UInt16.le_iff_toNat_le] at h
    rw [UInt16.toNat_zero]
    omega

theorem toNat_min (a b : UInt16) : (min a b).toNat = min a.toNat b.toNat := by
  change (if a ≤ b then a else b).toNat = _
  split
  · rename_i h
    exact (Nat.min_eq_left (UInt16.le_iff_toNat_le.1 h)).symm
  · rename_i h
    rw [UInt16.le_iff_toNat_le] at h
    omega

theorem sum?_of_lt {a b : UInt16} (h : a.toNat + b.toNat < UInt16.size) :
    sum? a b = some (a + b) :=
  if_pos h

theorem toNat_sum {a b : UInt16} (h : a.toNat + b.toNat < UInt16.size) :
    (a + b).toNat = a.toNat + b.toNat := by
  rw [UInt16.toNat_add]
  exact Nat.mod_eq_of_lt h

theorem difference?_of_le {a b : UInt16} (h : b.toNat ≤ a.toNat) :
    difference? a b = some (a - b) :=
  if_pos (UInt16.le_iff_toNat_le.2 h)

namespace Layout

def HasRoom (columns rows : UInt16) : Prop := columns.toNat ≤ 65533 ∧ rows.toNat ≤ 65533

instance (columns rows : UInt16) : Decidable (HasRoom columns rows) :=
  inferInstanceAs (Decidable (_ ∧ _))

theorem place?_of_hasRoom {columns rows : UInt16} (h : HasRoom columns rows)
    (width height : UInt16) :
    place? columns rows width height = some (place columns rows width height) := by
  have hwidth := width.toNat_lt
  have hheight := height.toNat_lt
  have hcolumns : columns.toNat + (2 : UInt16).toNat < UInt16.size := by
    have := h.1
    change columns.toNat + 2 < 65536
    omega
  have hrows : rows.toNat + (2 : UInt16).toNat < UInt16.size := by
    have := h.2
    change rows.toNat + 2 < 65536
    omega
  unfold place? place
  rw [sum?_of_lt hcolumns, sum?_of_lt hrows]
  simp only [Option.bind_eq_bind, Option.bind_some]
  -- from here on only the bounds of the two sizes count, not that they are sums
  generalize columns + 2 = framedColumns
  generalize rows + 2 = framedRows
  have hw : (min framedColumns width).toNat ≤ width.toNat := by
    rw [toNat_min]
    omega
  have hh : (min framedRows (less height 1)).toNat ≤ height.toNat - 1 := by
    rw [toNat_min, toNat_less]
    exact Nat.min_le_right _ _
  generalize min framedColumns width = w at hw ⊢
  generalize min framedRows (less height 1) = h at hh ⊢
  have hone : h.toNat + (1 : UInt16).toNat < UInt16.size := by
    change h.toNat + 1 < 65536
    omega
  have hy : (less height (h + 1) / 2).toNat + h.toNat < UInt16.size := by
    rw [UInt16.toNat_div, toNat_less, toNat_sum hone]
    change (height.toNat - (h.toNat + 1)) / 2 + h.toNat < 65536
    omega
  rw [difference?_of_le hw, sum?_of_lt hone]
  simp only [Option.bind_some]
  rw [sum?_of_lt hy]
  rfl

theorem place?_of_not_hasRoom {columns rows : UInt16} (h : ¬ HasRoom columns rows)
    (width height : UInt16) : place? columns rows width height = none := by
  unfold place?
  by_cases hc : columns.toNat ≤ 65533
  · have hrows : sum? rows 2 = none := by
      refine if_neg fun hr => h ⟨hc, ?_⟩
      change rows.toNat + 2 < 65536 at hr
      omega
    rw [hrows]
    cases sum? columns 2 <;> rfl
  · have hcolumns : sum? columns 2 = none := by
      refine if_neg fun hr => hc ?_
      change columns.toNat + 2 < 65536 at hr
      omega
    rw [hcolumns]
    rfl

theorem place?_eq (columns rows width height : UInt16) :
    place? columns rows width height =
      if HasRoom columns rows then some (place columns rows width height) else none := by
  split
  · rename_i h
    exact place?_of_hasRoom h width height
  · rename_i h
    exact place?_of_not_hasRoom h width height

theorem wrapped_le_one {n : UInt16} (h : ¬ n.toNat ≤ 65533) (most : UInt16) :
    (min (n + 2) most).toNat ≤ 1 := by
  have hn := n.toNat_lt
  have hsum : (n + 2).toNat = n.toNat + 2 - 65536 := by
    rw [UInt16.toNat_add]
    change (n.toNat + 2) % 65536 = _
    omega
  rw [toNat_min, hsum]
  omega

end Layout

end TileDeck.Terminal

namespace TileDeck.Config

/-- A configuration may ask for any size that is not empty. -/
theorem exists_valid_size {columns rows : UInt16} :
    (∃ config : Config, config.validate = .ok () ∧ config.display.columns = columns ∧
      config.display.rows = rows) ↔ columns ≠ 0 ∧ rows ≠ 0 := by
  constructor
  · rintro ⟨config, h, rfl, rfl⟩
    unfold validate at h
    split at h
    · cases h
    · rename_i hsize
      exact not_or.1 hsize
  · intro h
    refine ⟨{ Config.standard with display := ⟨columns, rows, 60⟩ }, ?_, rfl, rfl⟩
    unfold validate
    rw [if_neg (not_or.2 h)]
    rfl

end TileDeck.Config

namespace TileDeck.Terminal

theorem fixed_performAll (ps : List Primitive) (t : Terminal) :
    Fixed t (Surface.performAll ps t) :=
  Surface.performAll_keeps (A := fun _ => True) (fun p _ _ h => h.trans (fixed_perform p _))
    (fun _ _ => trivial) (.refl t)

theorem layout?_eq (t : Terminal) :
    t.layout? = if Layout.HasRoom t.plane.columns t.plane.rows then some t.layout else none :=
  Layout.place?_eq t.plane.columns t.plane.rows t.width t.height

theorem present?_of_not_hasRoom {t : Terminal}
    (h : ¬ Layout.HasRoom t.plane.columns t.plane.rows) : t.present? = none := by
  rw [present?, layout?_eq, if_neg h]
  cases t.status? <;> rfl

/-- On a terminal of any size no word of the layout goes round just if there is room for the frame,
whatever has been drawn; where there is none, nothing is shown. A configuration may ask for a plane
without that room. Were the words to go round, at most one column or row of it would be left, the
frame among them. -/
theorem layout_exact_iff_hasRoom (columns rows width height : UInt16) :
    (Layout.place? columns rows width height =
      if Layout.HasRoom columns rows then some (.place columns rows width height) else none) ∧
    (∀ (config : Config) colours title size gallery ps t,
      config.display.columns = columns → config.display.rows = rows →
      machine.performAll ps (start size (config.settings colours title) gallery) = some t →
      (t.layout? = if Layout.HasRoom columns rows then some t.layout else none) ∧
        (¬ Layout.HasRoom columns rows → t.present? = none ∧ machine.nextFrame t = none)) ∧
    ((∃ config : Config, config.validate = .ok () ∧ config.display.columns = columns ∧
      config.display.rows = rows) ↔ columns ≠ 0 ∧ rows ≠ 0) ∧
    (¬ columns.toNat ≤ 65533 →
      (Layout.place columns rows width height).plane.width.toNat ≤ 1) ∧
    (¬ rows.toNat ≤ 65533 →
      (Layout.place columns rows width height).plane.height.toNat ≤ 1) := by
  refine ⟨Layout.place?_eq columns rows width height, ?_, Config.exists_valid_size, ?_, ?_⟩
  · rintro config colours title size gallery ps t rfl rfl ht
    obtain rfl := machine.agrees_performAll ps _ t ht
    have hfixed := fixed_performAll ps (start size (config.settings colours title) gallery)
    have hcolumns := hfixed.columns
    have hrows := hfixed.rows
    refine ⟨?_, fun h => ?_⟩
    · rw [layout?_eq, hcolumns, hrows]
      rfl
    · have hpresent := present?_of_not_hasRoom (t := Surface.performAll ps
        (start size (config.settings colours title) gallery)) (by rwa [hcolumns, hrows])
      exact ⟨hpresent, congrArg (Option.bind · _) hpresent⟩
  · exact fun h => Layout.wrapped_le_one h width
  · exact fun h => Layout.wrapped_le_one h (less height 1)

/-- A plane of 65534 columns is one that a configuration may ask for. It is never shown. -/
theorem not_layout_exact :
    let config := { Config.standard with display := ⟨65534, 1, 60⟩ }
    config.validate = .ok () ∧ (start ⟨6, 4⟩ (config.settings [] "") .empty).present? = none ∧
    ¬ ∀ config : Config, config.validate = .ok () → ∀ colours title size gallery,
      ((start size (config.settings colours title) gallery).layout?).isSome := by
  intro config
  refine ⟨rfl, present?_of_not_hasRoom (by decide), fun h => ?_⟩
  have hexact := h config rfl [] "" ⟨6, 4⟩ .empty
  rw [layout?_eq, if_neg (by decide)] at hexact
  cases hexact

end TileDeck.Terminal
