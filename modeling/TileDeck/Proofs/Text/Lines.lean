import TileDeck.Text.Lines

set_option autoImplicit false

namespace TileDeck.Text

theorem mem_of_mem_splitOn {mark : Char} {s piece : List Char} (h : piece ∈ s.splitOn mark) :
    ∀ c ∈ piece, c ∈ s ∧ c ≠ mark := by
  induction s generalizing piece with
  | nil =>
    obtain rfl : piece = [] := by simpa using h
    simp
  | cons first s ih =>
    have hcons : ∀ piece ∈ s.splitOn mark, ∀ c ∈ piece, c ∈ first :: s ∧ c ≠ mark :=
      fun piece hp c hc => ⟨List.mem_cons_of_mem _ (ih hp c hc).1, (ih hp c hc).2⟩
    rw [List.splitOn_cons_eq_if_modifyHead] at h
    split at h
    · rcases List.mem_cons.1 h with rfl | h
      · simp
      · exact hcons piece h
    · rename_i hf
      obtain ⟨next, rest, hs⟩ := List.exists_cons_of_ne_nil (List.splitOn_ne_nil mark s)
      rw [hs] at h hcons
      rcases List.mem_cons.1 h with rfl | h
      · rw [List.forall_mem_cons]
        exact ⟨⟨List.mem_cons_self, fun he => hf (beq_iff_eq.2 he)⟩, hcons next List.mem_cons_self⟩
      · exact hcons piece (List.mem_cons_of_mem _ h)

theorem notMem_of_mem_splitOn {mark : Char} {s piece : List Char} (h : piece ∈ s.splitOn mark) :
    mark ∉ piece :=
  fun hm => (mem_of_mem_splitOn h mark hm).2 rfl

theorem length_splitOn (mark : Char) (s : List Char) :
    (s.splitOn mark).flatten.length + (s.splitOn mark).length = s.length + 1 := by
  induction s with
  | nil => rfl
  | cons first s ih =>
    rw [List.splitOn_cons_eq_if_modifyHead]
    split
    · simp only [List.flatten_cons, List.nil_append, List.length_cons]
      omega
    · obtain ⟨next, rest, hs⟩ := List.exists_cons_of_ne_nil (List.splitOn_ne_nil mark s)
      rw [hs] at ih ⊢
      simp only [List.modifyHead_cons, List.flatten_cons, List.length_append, List.length_cons] at *
      omega

theorem length_le_of_mem_splitOn {mark : Char} {s piece : List Char} (h : piece ∈ s.splitOn mark) :
    piece.length ≤ s.length := by
  have hs := length_splitOn mark s
  have hpos := List.length_pos_of_mem h
  have hle := (List.sublist_flatten_of_mem h).length_le
  omega

theorem length_splitOn_eq_count (mark : Char) (s : List Char) :
    (s.splitOn mark).length = s.count mark + 1 := by
  induction s with
  | nil => rfl
  | cons first s ih =>
    rw [List.splitOn_cons_eq_if_modifyHead, List.count_cons]
    split
    · rw [List.length_cons, ih]
    · rw [List.length_modifyHead, ih, Nat.add_zero]

theorem joined_splitOn {mark : Char} {s piece : List Char} {rest : List (List Char)}
    (h : s.splitOn mark = piece :: rest) : s = piece ++ rest.flatMap (mark :: ·) := by
  have hs : [mark].intercalate (s.splitOn mark) = s := List.intercalate_splitOn mark
  rw [← hs, h]
  clear hs h
  induction rest generalizing piece with
  | nil => simp
  | cons next rest ih =>
    rw [List.intercalate_cons_cons, ih, List.flatMap_cons, List.append_assoc]
    rfl

theorem newline_notMem {s line : List Char} (h : line ∈ lines s) : '\n' ∉ line :=
  notMem_of_mem_splitOn h

theorem lines_joined {line : List Char} {rest : List (List Char)} (hl : '\n' ∉ line)
    (hr : ∀ line ∈ rest, '\n' ∉ line) :
    lines (line ++ rest.flatMap ('\n' :: ·)) = line :: rest := by
  induction rest generalizing line with
  | nil => simpa [lines] using List.splitOn_eq_singleton hl
  | cons next rest ih =>
    rw [List.forall_mem_cons] at hr
    rw [List.flatMap_cons, List.cons_append, lines, List.splitOn_append_cons_self_of_not_mem hl]
    exact congrArg (line :: ·) (ih hr.1 hr.2)

theorem joined_lines {s line : List Char} {rest : List (List Char)} (h : lines s = line :: rest) :
    s = line ++ rest.flatMap ('\n' :: ·) :=
  joined_splitOn h

end TileDeck.Text
