import TileDeck.Proofs.Text.Lines
import TileDeck.Text.Blank

set_option autoImplicit false

namespace TileDeck.Text

/-- A text with a carriage return before each newline. -/
def withReturns (s : List Char) : List Char := s.flatMap fun c => if c = '\n' then ['\r', c] else [c]

theorem dropReturn_cons {c : Char} (hc : c ≠ '\r') (s : List Char) :
    dropReturn (c :: s) = c :: dropReturn s := by
  cases s with
  | nil => simp [dropReturn, hc]
  | cons d s =>
    unfold dropReturn
    rw [List.getLast?_cons_cons]
    split <;> rfl

theorem dropReturn_concat (s : List Char) : dropReturn (s ++ ['\r']) = s := by
  rw [dropReturn, List.getLast?_concat, if_pos rfl, List.dropLast_concat]

theorem dropReturn_cases (s : List Char) : dropReturn s = s ∨ s = dropReturn s ++ ['\r'] := by
  unfold dropReturn
  split
  · rename_i hl
    obtain ⟨t, rfl⟩ := List.getLast?_eq_some_iff.1 hl
    exact .inr (by rw [List.dropLast_concat])
  · exact .inl rfl

theorem trimEnd_dropReturn (s : List Char) : trimEnd (dropReturn s) = trimEnd s := by
  rcases dropReturn_cases s with h | h
  · rw [h]
  · have hr : s.reverse = '\r' :: (dropReturn s).reverse := by
      conv => lhs; rw [h, List.reverse_concat]
    unfold trimEnd
    rw [hr]
    rfl

theorem blank_dropReturn (s : List Char) : (dropReturn s).all isBlank = s.all isBlank := by
  rcases dropReturn_cases s with h | h
  · rw [h]
  · conv => rhs; rw [h, List.all_append]
    exact (Bool.and_true _).symm

theorem lines_cons (c : Char) (s : List Char) :
    lines (c :: s) = if c = '\n' then [] :: lines s else (lines s).modifyHead (c :: ·) := by
  unfold lines
  rw [List.splitOn_cons_eq_if_modifyHead]
  simp only [beq_iff_eq]

theorem blank_lines (s : List Char) : (lines s).all (·.all isBlank) = s.all isBlank := by
  induction s with
  | nil => rfl
  | cons c s ih =>
    rw [lines_cons, List.all_cons, ← ih]
    split
    · rename_i hn
      subst hn
      rfl
    · obtain ⟨first, rest, hs⟩ := List.exists_cons_of_ne_nil (List.splitOn_ne_nil '\n' s)
      change lines s = first :: rest at hs
      rw [hs, List.modifyHead_cons, List.all_cons, List.all_cons, List.all_cons, Bool.and_assoc]

theorem dropReturn_modifyHead {c : Char} (hc : c ≠ '\r') (ls : List (List Char)) :
    (ls.modifyHead (c :: ·)).map dropReturn = (ls.map dropReturn).modifyHead (c :: ·) := by
  cases ls with
  | nil => rfl
  | cons line ls => simp [dropReturn_cons hc]

theorem dropReturn_lines {s : List Char} (h : '\r' ∉ s) : (lines s).map dropReturn = lines s := by
  induction s with
  | nil => rfl
  | cons c s ih =>
    rw [List.mem_cons, not_or] at h
    have hc : c ≠ '\r' := fun hc => h.1 hc.symm
    rw [lines_cons]
    split
    · rw [List.map_cons, ih h.2]
      rfl
    · rw [dropReturn_modifyHead hc, ih h.2]

theorem dropReturn_lines_withReturns {s : List Char} (h : '\r' ∉ s) :
    (lines (withReturns s)).map dropReturn = lines s := by
  induction s with
  | nil => rfl
  | cons c s ih =>
    rw [List.mem_cons, not_or] at h
    have hc : c ≠ '\r' := fun hc => h.1 hc.symm
    have hw : withReturns (c :: s) = (if c = '\n' then ['\r', c] else [c]) ++ withReturns s := rfl
    rw [hw, lines_cons]
    split
    · rename_i hn
      subst hn
      change (lines ('\r' :: '\n' :: withReturns s)).map dropReturn = _
      rw [lines_cons, if_neg (by decide), lines_cons, if_pos rfl, List.modifyHead_cons, List.map_cons,
        ih h.2]
      rfl
    · rename_i hn
      rw [List.singleton_append, lines_cons, if_neg hn, dropReturn_modifyHead hc, ih h.2]

end TileDeck.Text
