import Mathlib.Data.List.Chain
import TileDeck.Proofs.Code.Columns

set_option autoImplicit false

namespace TileDeck.Code

open Coordinate

/-- A token as it stands in its line, quotes included. -/
def Token.written (token : Token) : List Char :=
  if token.kind = .literal then '"' :: token.text ++ ['"'] else token.text

def textColumn (kind : TokenKind) (start : Nat) : Nat :=
  if kind = .literal then start + 1 else start

/-- A line with the quote that closes its last literal, should that be missing. -/
def closed (line : List Char) : List Char :=
  if line.count '"' % 2 = 1 then line ++ ['"'] else line

inductive WellMade : TokenKind → List Char → Prop
  | literal {body : List Char} (quotes : '"' ∉ body) : WellMade .literal body
  | whitespace {run : List Char} (nonempty : run ≠ []) (spaces : ∀ c ∈ run, c = ' ') :
    WellMade .whitespace run
  | word {run : List Char} (nonempty : run ≠ []) (letters : ∀ c ∈ run, c ≠ ' ' ∧ c ≠ '"') :
    WellMade (classify run) run

theorem WellMade.kinds {kind : TokenKind} {text : List Char} (h : WellMade kind text) :
    (kind = .literal ∧ '"' ∉ text) ∨
      (kind = .whitespace ∧ text ≠ [] ∧ ∀ c ∈ text, c = ' ') ∨
        (kind = classify text ∧ text ≠ [] ∧ ∀ c ∈ text, c ≠ ' ' ∧ c ≠ '"') := by
  cases h with
  | literal quotes => exact .inl ⟨rfl, quotes⟩
  | whitespace nonempty spaces => exact .inr (.inl ⟨rfl, nonempty, spaces⟩)
  | word nonempty letters => exact .inr (.inr ⟨rfl, nonempty, letters⟩)

/-- Two tokens that may follow each other: a run ends where its kind does. -/
def Apart (token next : Token) : Prop :=
  token.kind = .literal ∨ next.kind = .literal ∨
    (token.kind = .whitespace ↔ next.kind ≠ .whitespace)

def SideBySide : Nat → List Token → Prop
  | _, [] => True
  | start, token :: rest =>
    token.column = textColumn token.kind start ∧ SideBySide (start + token.written.length) rest

theorem sideBySide_append {start : Nat} {tokens others : List Token} :
    SideBySide start (tokens ++ others) ↔
      SideBySide start tokens ∧
        SideBySide (start + (tokens.flatMap Token.written).length) others := by
  induction tokens generalizing start with
  | nil => simp [SideBySide]
  | cons token tokens ih =>
    rw [List.cons_append, SideBySide, SideBySide, ih, List.flatMap_cons, List.length_append,
      ← Nat.add_assoc, and_assoc]

theorem classify_cases (word : List Char) :
    classify word = .identifier ∨ classify word = .keyword ∨ classify word = .plain := by
  unfold classify
  split
  · exact .inl rfl
  · split
    · exact .inr (.inl rfl)
    · exact .inr (.inr rfl)

theorem classify_ne_whitespace (word : List Char) : classify word ≠ .whitespace := by
  rcases classify_cases word with h | h | h <;> simp [h]

theorem classify_ne_literal (word : List Char) : classify word ≠ .literal := by
  rcases classify_cases word with h | h | h <;> simp [h]

theorem runKind_ne_literal (run : List Char) : runKind run ≠ .literal := by
  unfold runKind
  split
  · decide
  · exact classify_ne_literal run

theorem runKind_eq_whitespace {run : List Char} :
    runKind run = .whitespace ↔ run.head? = some ' ' := by
  unfold runKind
  split
  · rename_i h
    exact ⟨fun _ => h, fun _ => rfl⟩
  · rename_i h
    exact ⟨fun hc => absurd hc (classify_ne_whitespace run), fun hs => absurd hs h⟩

theorem runKind_of_ne_whitespace {run : List Char} (h : runKind run ≠ .whitespace) :
    runKind run = classify run :=
  if_neg fun hs => h (runKind_eq_whitespace.2 hs)

/-- All characters of a run are spaces or none is. -/
theorem eq_space_iff {code run : List Char} (h : run ∈ runs code) {c : Char} (hc : c ∈ run) :
    c = ' ' ↔ runKind run = .whitespace := by
  obtain ⟨first, rest, rfl⟩ := List.exists_cons_of_ne_nil (List.ne_nil_of_mem_splitBy h)
  have hchain : ((first :: rest).map (· == ' ')).IsChain (· = ·) := by
    rw [List.isChain_map]
    exact (List.isChain_of_mem_splitBy h).imp fun _ _ => beq_iff_eq.1
  rw [List.map_cons, List.isChain_cons_eq_iff_eq_replicate, List.eq_replicate_iff] at hchain
  have hsame : (c == ' ') = (first == ' ') := by
    rcases List.mem_cons.1 hc with rfl | hc
    · rfl
    · exact hchain.2 _ (List.mem_map_of_mem hc)
  rw [runKind_eq_whitespace, List.head?_cons, Option.some_inj, ← beq_iff_eq, hsame, beq_iff_eq]

theorem wellMade_of_mem_runs {code run : List Char} (hq : '"' ∉ code) (h : run ∈ runs code) :
    WellMade (runKind run) run := by
  have hn : run ≠ [] := List.ne_nil_of_mem_splitBy h
  by_cases hk : runKind run = .whitespace
  · rw [hk]
    exact .whitespace hn fun c hc => (eq_space_iff h hc).2 hk
  · rw [runKind_of_ne_whitespace hk]
    refine .word hn fun c hc => ⟨fun hs => hk ((eq_space_iff h hc).1 hs), fun he => hq ?_⟩
    rw [← flatten_runs code, ← he]
    exact List.mem_flatten_of_mem h hc

theorem apart_runs (code : List Char) :
    (runs code).IsChain fun run next => runKind run = .whitespace ↔ runKind next ≠ .whitespace := by
  refine (List.isChain_getLast_head_splitBy _ code).imp_of_mem_imp fun run next hr hn => ?_
  rintro ⟨hrun, hnext, hd⟩
  rw [← eq_space_iff hr (List.getLast_mem hrun), Ne, ← eq_space_iff hn (List.head_mem hnext)]
  by_cases hl : run.getLast hrun = ' '
  · simpa [hl] using hd
  · simpa [hl] using hd

theorem kind_of_mem_place {column : Nat} {pieces : List (List Char)} {token : Token}
    (h : token ∈ place column pieces) : token.text ∈ pieces ∧ token.kind = runKind token.text := by
  induction pieces generalizing column with
  | nil => cases h
  | cons run rest ih =>
    rcases List.mem_cons.1 h with rfl | h
    · exact ⟨List.mem_cons_self, rfl⟩
    · exact ⟨List.mem_cons_of_mem run (ih h).1, (ih h).2⟩

theorem text_place (column : Nat) (pieces : List (List Char)) :
    (place column pieces).map Token.text = pieces := by
  induction pieces generalizing column with
  | nil => rfl
  | cons run rest ih => rw [place, List.map_cons, ih]

theorem written_of_mem_place {column : Nat} {pieces : List (List Char)} {token : Token}
    (h : token ∈ place column pieces) : token.written = token.text := by
  have hk := runKind_ne_literal token.text
  rw [← (kind_of_mem_place h).2] at hk
  exact if_neg hk

theorem written_place (column : Nat) (pieces : List (List Char)) :
    (place column pieces).flatMap Token.written = pieces.flatten := by
  have hw : (place column pieces).map Token.written = (place column pieces).map Token.text :=
    List.map_congr_left fun token ht => written_of_mem_place ht
  rw [List.flatMap_def, hw, text_place]

theorem sideBySide_place (column : Nat) (pieces : List (List Char)) :
    SideBySide column (place column pieces) := by
  induction pieces generalizing column with
  | nil => trivial
  | cons run rest ih =>
    have hk := runKind_ne_literal run
    have hw : (⟨runKind run, run, column⟩ : Token).written = run := if_neg hk
    rw [place, SideBySide, hw]
    exact ⟨(if_neg hk).symm, ih _⟩

theorem apart_place (column : Nat) (code : List Char) :
    (place column (runs code)).IsChain Apart := by
  have hchain := apart_runs code
  rw [← text_place column (runs code), List.isChain_map] at hchain
  refine hchain.imp_of_mem_imp fun token next ht hn h => ?_
  rw [← (kind_of_mem_place ht).2, ← (kind_of_mem_place hn).2] at h
  exact .inr (.inr h)

theorem wellMade_tokens {pieces : List (List Char)} (h : ∀ piece ∈ pieces, '"' ∉ piece)
    (column : Nat) (token : Token) :
    (token ∈ codeFirst column pieces → WellMade token.kind token.text) ∧
      (token ∈ literalFirst column pieces → WellMade token.kind token.text) := by
  induction pieces generalizing column with
  | nil => exact ⟨(fun ht => nomatch ht), (fun ht => nomatch ht)⟩
  | cons piece rest ih =>
    rw [List.forall_mem_cons] at h
    rw [codeFirst, literalFirst]
    constructor
    · intro ht
      rcases List.mem_append.1 ht with ht | ht
      · rw [(kind_of_mem_place ht).2]
        exact wellMade_of_mem_runs h.1 (kind_of_mem_place ht).1
      · exact (ih h.2 _).2 ht
    · intro ht
      rcases List.mem_cons.1 ht with rfl | ht
      · exact .literal h.1
      · exact (ih h.2 _).1 ht

theorem literal_of_head?_literalFirst {column : Nat} {pieces : List (List Char)} {token : Token}
    (h : token ∈ (literalFirst column pieces).head?) : token.kind = .literal := by
  cases pieces with
  | nil => cases h
  | cons body rest =>
    rw [literalFirst, List.head?_cons] at h
    rw [← Option.some.inj h]

theorem apart_tokens (pieces : List (List Char)) (column : Nat) :
    (codeFirst column pieces).IsChain Apart ∧ (literalFirst column pieces).IsChain Apart := by
  induction pieces generalizing column with
  | nil => exact ⟨.nil, .nil⟩
  | cons piece rest ih =>
    rw [codeFirst, literalFirst]
    constructor
    · refine List.isChain_append.2 ⟨apart_place column piece, (ih _).2, fun _ _ next hn => ?_⟩
      exact .inr (.inl (literal_of_head?_literalFirst hn))
    · exact List.isChain_cons.2 ⟨fun _ _ => .inl rfl, (ih _).1⟩

theorem sideBySide_tokens (pieces : List (List Char)) (column : Nat) :
    SideBySide column (codeFirst column pieces) ∧ SideBySide column (literalFirst column pieces) := by
  induction pieces generalizing column with
  | nil => exact ⟨trivial, trivial⟩
  | cons piece rest ih =>
    rw [codeFirst, literalFirst]
    constructor
    · rw [sideBySide_append, written_place, flatten_runs]
      exact ⟨sideBySide_place column _, (ih _).2⟩
    · refine ⟨rfl, ?_⟩
      have hw : (⟨.literal, piece, column + 1⟩ : Token).written.length = piece.length + 2 := by
        simp [Token.written]
      rw [hw, ← Nat.add_assoc]
      exact (ih _).1

theorem written_literalFirst (column : Nat) : ∀ pieces : List (List Char),
    (literalFirst column pieces).flatMap Token.written =
      pieces.flatMap ('"' :: ·) ++ if pieces.length % 2 = 1 then ['"'] else []
  | [] => rfl
  | [body] => by simp [literalFirst, codeFirst, Token.written]
  | body :: code :: rest => by
    have ih := written_literalFirst (column + body.length + 2 + code.length) rest
    have hlength : (body :: code :: rest).length % 2 = rest.length % 2 := by
      rw [List.length_cons, List.length_cons]
      omega
    rw [literalFirst, codeFirst, List.flatMap_cons, List.flatMap_append, ih, written_place,
      flatten_runs, hlength, List.flatMap_cons, List.flatMap_cons]
    simp [Token.written]

theorem written_tokenize (line : List Char) :
    (tokenize line).flatMap Token.written = closed line := by
  obtain ⟨code, rest, hf⟩ := List.exists_cons_of_ne_nil (List.splitOn_ne_nil '"' line)
  have hline := Text.joined_splitOn hf
  have hcount := Text.length_splitOn_eq_count '"' line
  rw [hf, List.length_cons, Nat.add_right_cancel_iff] at hcount
  rw [tokenize, fragments, hf, codeFirst, List.flatMap_append, written_place, flatten_runs,
    written_literalFirst, hcount, closed, ← List.append_assoc, ← hline]
  split
  · rfl
  · exact List.append_nil line

theorem wellMade_tokenize {line : List Char} {token : Token} (h : token ∈ tokenize line) :
    WellMade token.kind token.text :=
  (wellMade_tokens (fun _ hp => Text.notMem_of_mem_splitOn hp) 0 token).1 h

theorem apart_tokenize (line : List Char) : (tokenize line).IsChain Apart :=
  (apart_tokens (fragments line) 0).1

theorem sideBySide_tokenize (line : List Char) : SideBySide 0 (tokenize line) :=
  (sideBySide_tokens (fragments line) 0).1

theorem column_of_sideBySide {start : Nat} {before after : List Token} {token : Token}
    (h : SideBySide start (before ++ token :: after)) :
    token.column = textColumn token.kind (start + (before.flatMap Token.written).length) :=
  (sideBySide_append.1 h).2.1

theorem toInt_offset {line : List Char} (h : Moderate line.length) {token : Token}
    (ht : token ∈ tokenize line) : token.placed.offset.toInt = token.column := by
  have hend := end_le_tokenize ht
  unfold Moderate at h
  exact toInt_ofNat (by unfold greatest; omega)

/-- The tokens of a line are the line, closed, without gap or overlap: each is made as its kind says,
no run goes on in the next one, and each text begins where all before it ends, after the quote that
opens it. In a line of less than half the range the words for the columns are exact. -/
theorem tokenize_canonical (line : List Char) :
    (tokenize line).flatMap Token.written = closed line ∧
      (∀ token ∈ tokenize line, WellMade token.kind token.text) ∧
      (tokenize line).IsChain Apart ∧
      (∀ before token after, tokenize line = before ++ token :: after →
        token.column = textColumn token.kind (before.flatMap Token.written).length) ∧
      (Moderate line.length →
        (∀ r : Reckoning, r.tokenize line = some ((tokenize line).map Token.placed)) ∧
          ∀ token ∈ tokenize line, token.placed.offset.toInt = token.column) := by
  refine ⟨written_tokenize line, fun _ => wellMade_tokenize, apart_tokenize line, ?_, fun h => ?_⟩
  · intro before token after hs
    have hside := sideBySide_tokenize line
    rw [hs] at hside
    have hcolumn := column_of_sideBySide hside
    rwa [Nat.zero_add] at hcolumn
  · have hwidth := codeWidth_fragments line
    refine ⟨fun r => tokenize_eq r ?_, fun token => toInt_offset h⟩
    unfold Moderate at h
    unfold greatest
    omega

def unclosed : List Char := "if Aé \"b  c".toList

theorem unclosed_canonical :
    Moderate unclosed.length ∧
      (tokenize unclosed).flatMap Token.written = "if Aé \"b  c\"".toList ∧
      Reckoning.exact.tokenize unclosed = some [⟨.keyword, "if".toList, 0⟩, ⟨.whitespace, " ".toList, 2⟩,
        ⟨.identifier, "Aé".toList, 3⟩, ⟨.whitespace, " ".toList, 5⟩,
        ⟨.literal, "b  c".toList, 7⟩] := by
  have hm : Moderate unclosed.length := by decide
  obtain ⟨hwritten, _, _, _, hwords⟩ := tokenize_canonical unclosed
  exact ⟨hm, hwritten.trans (by decide), ((hwords hm).1 .exact).trans (by decide +kernel)⟩

end TileDeck.Code
