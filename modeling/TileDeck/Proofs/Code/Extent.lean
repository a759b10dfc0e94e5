import TileDeck.Proofs.Code.Tokens

set_option autoImplicit false

/-!
# How far code reaches

A line of code takes as many columns as its closed line has characters: its last token ends with the
line and no other one ends later. So the words for its tokens are exact just if that many columns are
a word and the last of them is a coordinate.
-/
namespace TileDeck.Code

open Coordinate

variable {x : Int32} {token : Token} {start : Nat}

theorem width_written (pieces : List (List Char)) (column : Nat) :
    codeWidth pieces = ((codeFirst column pieces).flatMap Token.written).length ∧
      literalWidth pieces = ((literalFirst column pieces).flatMap Token.written).length := by
  induction pieces generalizing column with
  | nil => exact ⟨rfl, rfl⟩
  | cons piece rest ih =>
    constructor
    · rw [codeWidth, codeFirst, List.flatMap_append, List.length_append, written_place,
        flatten_runs, (ih _).2]
    · have hw : (⟨.literal, piece, column + 1⟩ : Token).written.length = piece.length + 2 := by
        simp [Token.written]
      rw [literalWidth, literalFirst, List.flatMap_cons, List.length_append, hw, (ih _).1]

theorem codeWidth_eq (line : List Char) : codeWidth (fragments line) = (closed line).length := by
  rw [(width_written (fragments line) 0).1, ← written_tokenize]
  rfl

/-- The column after a token and the quotes around it. -/
def Token.past (token : Token) : Nat :=
  token.column + token.text.length + if token.kind = .literal then 1 else 0

theorem past_eq (h : token.column = textColumn token.kind start) :
    token.past = start + token.written.length := by
  unfold Token.past Token.written
  rw [h]
  unfold textColumn
  split
  · simp only [List.length_cons, List.length_append, List.length_nil]
    omega
  · rfl

section Side
variable {tokens : List Token} (h : SideBySide start tokens)
include h

theorem past_le (ht : token ∈ tokens) :
    token.past ≤ start + (tokens.flatMap Token.written).length := by
  obtain ⟨before, after, rfl⟩ := List.append_of_mem ht
  rw [past_eq (column_of_sideBySide h), List.flatMap_append, List.flatMap_cons,
    List.length_append, List.length_append]
  omega

theorem exists_past (hn : tokens ≠ []) :
    ∃ token ∈ tokens, token.past = start + (tokens.flatMap Token.written).length := by
  obtain ⟨before, last, rfl⟩ := (List.eq_nil_or_concat' tokens).resolve_left hn
  refine ⟨last, List.mem_append_right before List.mem_cons_self, ?_⟩
  rw [past_eq (column_of_sideBySide h), List.flatMap_append, List.length_append,
    List.flatMap_singleton, Nat.add_assoc]

end Side

theorem past_le_closed {line : List Char} (ht : token ∈ tokenize line) :
    token.past ≤ (closed line).length := by
  have hpast := past_le (sideBySide_tokenize line) ht
  rwa [written_tokenize, Nat.zero_add] at hpast

/-- There is room for all tokens just if there is room for the last character of the line. -/
theorem room_past_iff (line : List Char) :
    (∀ token ∈ tokenize line, Room x (token.past - 1)) ↔ Room x ((closed line).length - 1) := by
  constructor
  · intro h
    have hwritten := written_tokenize line
    by_cases hn : tokenize line = []
    · rw [hn] at hwritten
      rw [← hwritten]
      exact room_zero x
    · obtain ⟨token, ht, hpast⟩ := exists_past (sideBySide_tokenize line) hn
      rw [hwritten, Nat.zero_add] at hpast
      rw [← hpast]
      exact h token ht
  · exact fun h token ht => h.mono (Nat.sub_le_sub_right (past_le_closed ht) 1)

theorem room_token_iff (h : WellMade token.kind token.text) (hpast : (token.past : Int) ≤ greatest) :
    Room x token.lastColumn ∧ Room (columnAt x token.column) (token.text.length - 1) ↔
      Room x (token.past - 1) := by
  unfold Token.past at hpast ⊢
  unfold Token.lastColumn columnAt
  by_cases hk : token.kind = .literal
  · rw [if_pos hk] at hpast ⊢
    rw [if_pos hk, Nat.add_sub_cancel]
    refine and_iff_left_of_imp fun hroom => ?_
    exact hroom.after.mono (Nat.sub_le _ _)
  · rw [if_neg hk] at hpast ⊢
    have hn : token.text ≠ [] := by
      rcases h.kinds with ⟨hl, -⟩ | ⟨-, hn, -⟩ | ⟨-, hn, -⟩
      · exact absurd hl hk
      · exact hn
      · exact hn
    have hlength := List.length_pos_of_ne_nil hn
    have hsplit : token.column + token.text.length + 0 - 1 =
        token.column + (token.text.length - 1) := by omega
    rw [if_neg hk, hsplit, room_after_iff (by omega)]

theorem column_pos {line : List Char} (ht : token ∈ tokenize line) (hk : token.kind = .literal) :
    0 < token.column := by
  obtain ⟨before, after, hs⟩ := List.append_of_mem ht
  have hside := sideBySide_tokenize line
  rw [hs] at hside
  rw [column_of_sideBySide hside, hk, textColumn, if_pos rfl]
  omega

theorem answers_code (r : Reckoning) {line : List Char}
    (hwidth : ((closed line).length : Int) ≤ greatest) (x y : Int32) (palettes : Palettes) :
    Answers (r.code line x y palettes) (∀ token ∈ tokenize line, Room x token.lastColumn)
      (draw line x y palettes) := by
  have hdrawn : ∀ token ∈ tokenize line,
      Answers (r.token x y palettes token.placed) (Room x token.lastColumn)
        (token.draw x y palettes) := by
    intro token ht
    refine answers_token r ?_ fun hk => ?_
    · have hpast := past_le_closed ht
      unfold Token.past at hpast
      omega
    · have hx : least ≤ x.toInt := x.le_toInt
      have hcolumn := column_pos ht hk
      omega
  rw [Reckoning.code, tokenize_eq r (by rwa [codeWidth_eq]), Option.bind_eq_bind,
    Option.bind_some, List.mapM_map, draw, List.flatMap_def]
  exact ((Answers.mapM hdrawn).bind (f := fun drawn => some drawn.flatten) fun _ =>
    .always _).congr (and_iff_left trivial)

end TileDeck.Code
