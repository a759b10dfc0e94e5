import Mathlib.Data.List.SplitBy
import TileDeck.Code.Reckoned
import TileDeck.Proofs.Coordinate
import TileDeck.Proofs.Text.Lines

set_option autoImplicit false

namespace TileDeck.Code

open Coordinate

mutual

def codeWidth : List (List Char) → Nat
  | [] => 0
  | code :: rest => code.length + literalWidth rest

def literalWidth : List (List Char) → Nat
  | [] => 0
  | body :: rest => body.length + 2 + codeWidth rest

end

theorem width_le (pieces : List (List Char)) :
    codeWidth pieces ≤ pieces.flatten.length + pieces.length ∧
      literalWidth pieces ≤ pieces.flatten.length + pieces.length + 1 := by
  induction pieces with
  | nil => exact ⟨Nat.le_refl _, Nat.zero_le _⟩
  | cons piece rest ih =>
    simp only [codeWidth, literalWidth, List.flatten_cons, List.length_append, List.length_cons]
    omega

/-- A literal that is not closed still counts its closing quote. -/
theorem codeWidth_fragments (line : List Char) : codeWidth (fragments line) ≤ line.length + 1 := by
  rw [← Text.length_splitOn '"' line]
  exact (width_le _).1

theorem place_eq (r : Reckoning) (pieces : List (List Char)) {column : Nat}
    (h : ((column + pieces.flatten.length : Nat) : Int) ≤ greatest) :
    r.place (Int32.ofNat column) pieces =
      some ((place column pieces).map Token.placed,
        Int32.ofNat (column + pieces.flatten.length)) := by
  induction pieces generalizing column with
  | nil => rfl
  | cons run rest ih =>
    rw [List.flatten_cons, List.length_append, ← Nat.add_assoc] at h ⊢
    have hcount := count?_of_le r (n := run.length) (by omega)
    have hnext := @sum?_ofNat run.length column (by omega)
    simp only [Reckoning.place, Option.bind_eq_bind, hcount, Option.bind_some, hnext, ih h]
    rfl

theorem tokens_eq (r : Reckoning) (pieces : List (List Char)) (column : Nat) :
    (((column + codeWidth pieces : Nat) : Int) ≤ greatest →
      r.codeFirst (Int32.ofNat column) pieces =
        some ((codeFirst column pieces).map Token.placed)) ∧
    (((column + literalWidth pieces : Nat) : Int) ≤ greatest →
      r.literalFirst (Int32.ofNat column) pieces =
        some ((literalFirst column pieces).map Token.placed)) := by
  induction pieces generalizing column with
  | nil => exact ⟨fun _ => rfl, fun _ => rfl⟩
  | cons piece rest ih =>
    rw [codeWidth, literalWidth]
    constructor
    · intro h
      rw [← Nat.add_assoc] at h
      have hplace := @place_eq r (runs piece) column (by rw [flatten_runs]; omega)
      rw [flatten_runs] at hplace
      rw [codeFirst, List.map_append]
      simp only [Reckoning.codeFirst, Option.bind_eq_bind, hplace, Option.bind_some, (ih _).2 h]
      rfl
    · intro h
      rw [← Nat.add_assoc, ← Nat.add_assoc] at h
      have hstart : sum? (Int32.ofNat column) 1 = some (Int32.ofNat (column + 1)) :=
        @sum?_ofNat 1 column (by omega)
      have hcount := count?_of_le r (n := piece.length) (by omega)
      have hwidth : sum? (Int32.ofNat piece.length) 2 = some (Int32.ofNat (piece.length + 2)) :=
        @sum?_ofNat 2 piece.length (by omega)
      have hnext := @sum?_ofNat (piece.length + 2) column (by omega)
      rw [← Nat.add_assoc] at hnext
      rw [literalFirst, List.map_cons]
      simp only [Reckoning.literalFirst, Option.bind_eq_bind, hstart, hcount, hwidth, hnext,
        Option.bind_some, (ih _).1 h]
      rfl

theorem tokenize_eq (r : Reckoning) {line : List Char}
    (h : (codeWidth (fragments line) : Int) ≤ greatest) :
    r.tokenize line = some ((tokenize line).map Token.placed) := by
  refine (tokens_eq r (fragments line) 0).1 ?_
  rwa [Nat.zero_add]

theorem end_le_place {pieces : List (List Char)} {column : Nat} {token : Token}
    (h : token ∈ place column pieces) :
    token.column + token.text.length ≤ column + pieces.flatten.length := by
  induction pieces generalizing column with
  | nil => cases h
  | cons run rest ih =>
    rw [List.flatten_cons, List.length_append]
    rcases List.mem_cons.1 h with rfl | h
    · dsimp only
      omega
    · have := ih h
      omega

theorem end_le_tokens (pieces : List (List Char)) (column : Nat) (token : Token) :
    (token ∈ codeFirst column pieces →
      token.column + token.text.length ≤ column + codeWidth pieces) ∧
    (token ∈ literalFirst column pieces →
      token.column + token.text.length ≤ column + literalWidth pieces) := by
  induction pieces generalizing column with
  | nil => exact ⟨(fun h => nomatch h), (fun h => nomatch h)⟩
  | cons piece rest ih =>
    rw [codeFirst, codeWidth, literalFirst, literalWidth]
    constructor
    · intro h
      rcases List.mem_append.1 h with h | h
      · have hp := end_le_place h
        rw [flatten_runs] at hp
        omega
      · have hrest := (ih _).2 h
        omega
    · intro h
      rcases List.mem_cons.1 h with rfl | h
      · dsimp only
        omega
      · have hrest := (ih _).1 h
        omega

theorem end_le_tokenize {line : List Char} {token : Token} (h : token ∈ tokenize line) :
    token.column + token.text.length ≤ line.length + 1 := by
  have hw := codeWidth_fragments line
  have hend := (end_le_tokens (fragments line) 0 token).1 h
  omega

/-- The last column that is reckoned for a token: that of its closing quote if it has one. -/
def Token.lastColumn (token : Token) : Nat :=
  if token.kind = .literal then token.column + token.text.length else token.column

/-- A token is drawn just if its last column is one. The opening quote stands where the line begins
or later. -/
theorem answers_token (r : Reckoning) {x y : Int32} {palettes : Palettes} {token : Token}
    (hend : ((token.column + token.text.length : Nat) : Int) ≤ greatest)
    (hopening : token.kind = .literal → least < x.toInt + token.column) :
    Answers (r.token x y palettes token.placed) (Room x token.lastColumn)
      (token.draw x y palettes) := by
  have hcolumn : (token.column : Int) ≤ greatest := by omega
  have hcount := count?_of_le r (n := token.text.length) (by omega)
  have hclose := @sum?_ofNat token.text.length token.column hend
  have hstart := @answers_sum_count x token.column hcolumn
  have hquote : Room x token.column → token.kind = .literal →
      difference? (x + Int32.ofNat token.column) 1 = some (x + Int32.ofNat token.column - 1) := by
    intro hroom hk
    have hi := toInt_after hroom
    have hx := hopening hk
    have hl := hroom.last
    have h1 : (1 : Int32).toInt = 1 := rfl
    exact difference?_of_le (by omega) (by omega)
  unfold Reckoning.token Token.draw Token.placed Token.lastColumn
  dsimp only
  by_cases hk : token.kind = .literal
  · simp only [hk, if_true]
    refine Answers.congr (hstart.bind fun hroom => (Answers.of_eq (hquote hroom hk)).bind fun _ =>
      (Answers.of_eq hcount).bind fun _ => (Answers.of_eq hclose).bind fun _ =>
      (answers_sum_count hend).bind fun _ => .always _) ?_
    exact ⟨fun h => h.2.2.2.2.1,
      fun h => ⟨h.mono (Nat.le_add_right _ _), trivial, trivial, trivial, h, trivial⟩⟩
  · simp only [hk, if_false]
    exact Answers.congr (hstart.bind fun _ => .always _) (and_iff_left trivial)

theorem code_eq (r : Reckoning) {line : List Char} {x y : Int32} {palettes : Palettes}
    (hx : least < x.toInt) (h : Room x (line.length + 1)) :
    r.code line x y palettes = some (draw line x y palettes) := by
  have hcount := h.count
  have hwidth := codeWidth_fragments line
  have hdrawn : ((tokenize line).map Token.placed).mapM (r.token x y palettes) =
      some ((tokenize line).map (Token.draw x y palettes)) := by
    rw [List.mapM_map]
    refine mapM_of_forall fun token ht => ?_
    have hend := end_le_tokenize ht
    refine (answers_token r (by omega) fun _ => by omega).of_holds (h.mono ?_)
    unfold Token.lastColumn
    split <;> omega
  rw [Reckoning.code, tokenize_eq r (by omega), Option.bind_eq_bind, Option.bind_some, hdrawn]
  rfl

end TileDeck.Code
