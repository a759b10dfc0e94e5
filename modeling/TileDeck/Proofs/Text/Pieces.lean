import Mathlib.Data.List.DropRight
import TileDeck.Proofs.Text.Lines
import TileDeck.Text.Blank

set_option autoImplicit false

namespace TileDeck.Text

theorem cut?_eq_some {mark : Char} {s before after : List Char} :
    cut? mark s = some (before, after) ↔ mark ∉ before ∧ s = before ++ mark :: after := by
  induction s generalizing before with
  | nil => simp [cut?]
  | cons c s ih =>
    unfold cut?
    split
    · rename_i hc
      subst hc
      cases before with
      | nil => simp
      | cons b before =>
        constructor
        · intro h
          simp at h
        · rintro ⟨hm, hs⟩
          obtain rfl := (List.cons.inj hs).1
          simp at hm
    · rename_i hc
      constructor
      · intro h
        obtain ⟨⟨front, rest⟩, hr, hp⟩ := Option.map_eq_some_iff.1 h
        obtain ⟨rfl, rfl⟩ := Prod.mk.inj hp
        obtain ⟨hm, rfl⟩ := ih.1 hr
        rw [List.mem_cons, not_or]
        exact ⟨⟨fun h => hc h.symm, hm⟩, rfl⟩
      · rintro ⟨hm, hs⟩
        cases before with
        | nil => exact absurd (List.cons.inj hs).1 hc
        | cons b before =>
          obtain ⟨rfl, rfl⟩ := List.cons.inj hs
          rw [List.mem_cons, not_or] at hm
          rw [ih.2 ⟨hm.2, rfl⟩]
          rfl

theorem mem_of_mem_intercalate {between : List Char} {pieces : List (List Char)} {c : Char}
    (h : c ∈ between.intercalate pieces) : c ∈ between ∨ ∃ piece ∈ pieces, c ∈ piece := by
  induction pieces with
  | nil => simp at h
  | cons piece pieces ih =>
    cases pieces with
    | nil =>
      rw [List.intercalate_singleton] at h
      exact .inr ⟨piece, List.mem_cons_self, h⟩
    | cons next pieces =>
      rw [List.intercalate_cons_cons, List.mem_append, List.mem_append] at h
      rcases h with (h | h) | h
      · exact .inr ⟨piece, List.mem_cons_self, h⟩
      · exact .inl h
      · rcases ih h with h | ⟨other, ho, hc⟩
        · exact .inl h
        · exact .inr ⟨other, List.mem_cons_of_mem _ ho, hc⟩

theorem trimEnd_eq_rdropWhile (s : List Char) : trimEnd s = s.rdropWhile isBlank := rfl

theorem trimEnd_isPrefix (s : List Char) : trimEnd s <+: s := List.rdropWhile_prefix isBlank s

/-- What is left after trimming is followed by blanks alone and does not end in one. -/
theorem trimEnd_eq_iff {s t : List Char} :
    trimEnd s = t ↔
      (∃ blanks, (∀ c ∈ blanks, isBlank c = true) ∧ s = t ++ blanks) ∧
        ∀ h : t ≠ [], isBlank (t.getLast h) = false := by
  constructor
  · rintro rfl
    refine ⟨⟨s.rtakeWhile isBlank, fun c hc => List.mem_rtakeWhile_imp hc, ?_⟩, fun h => ?_⟩
    · exact List.rdropWhile_append_rtakeWhile.symm
    · exact eq_false_of_ne_true (List.rdropWhile_last_not isBlank s h)
  · rintro ⟨⟨blanks, hblanks, rfl⟩, hlast⟩
    -- the blanks go one by one, from the last to the first
    induction blanks using List.reverseRecOn with
    | nil =>
      rw [List.append_nil]
      exact List.rdropWhile_eq_self_iff.2 fun h hb => Bool.false_ne_true ((hlast h).symm.trans hb)
    | append_singleton blanks c ih =>
      rw [List.forall_mem_append, List.forall_mem_singleton] at hblanks
      rw [← List.append_assoc, trimEnd_eq_rdropWhile, List.rdropWhile_concat_pos _ _ _ hblanks.2]
      exact ih hblanks.1

theorem trimStart_of_isPrefix {s t : List Char} (h : s <+: t) (ht : trimStart t = t) :
    trimStart s = s := by
  obtain ⟨u, rfl⟩ := h
  cases s with
  | nil => rfl
  | cons c s =>
    have hc : ¬isBlank c = true := List.dropWhile_eq_self_iff.1 ht (Nat.succ_pos _)
    exact List.dropWhile_cons_of_neg hc

theorem trim_trim (s : List Char) : trim (trim s) = trim s := by
  have ht : trimStart (trimStart s) = trimStart s := List.dropWhile_idempotent isBlank s
  have hs : trimStart (trimEnd (trimStart s)) = trimEnd (trimStart s) :=
    trimStart_of_isPrefix (trimEnd_isPrefix _) ht
  unfold trim
  rw [hs, trimEnd_eq_rdropWhile, trimEnd_eq_rdropWhile, List.rdropWhile_idempotent]

theorem trim_subset (s : List Char) : trim s ⊆ s :=
  List.Subset.trans (trimEnd_isPrefix _).subset (List.dropWhile_subset isBlank)

theorem trim_of_no_blank {s : List Char} (h : ∀ c ∈ s, isBlank c = false) : trim s = s := by
  have hstart : trimStart s = s := by
    refine List.dropWhile_eq_self_iff.2 fun hl => ?_
    rw [h _ (List.getElem_mem hl)]
    exact Bool.false_ne_true
  have hend : trimEnd s = s := by
    refine List.rdropWhile_eq_self_iff.2 fun hl => ?_
    rw [h _ (List.getLast_mem hl)]
    exact Bool.false_ne_true
  rw [trim, hstart, hend]

end TileDeck.Text
