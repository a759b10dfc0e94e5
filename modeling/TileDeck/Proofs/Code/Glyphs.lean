import Mathlib.Data.List.DropRight
import TileDeck.Proofs.Code.Tokens
import TileDeck.Proofs.Plane.Marks

set_option autoImplicit false

namespace TileDeck.Code

def Inside (line : List Char) (k : Nat) : Prop := (line.take k).count '"' % 2 = 1

instance (line : List Char) (k : Nat) : Decidable (Inside line k) := by
  unfold Inside
  infer_instance

def inWord (c : Char) : Bool := c ≠ ' ' && c ≠ '"'

/-- The longest run around a place of characters that are neither spaces nor quotes. -/
def wordAt (line : List Char) (k : Nat) : List Char :=
  (line.take k).rtakeWhile inWord ++ (line.drop k).takeWhile inWord

/-- What is shown for a character at a place: quotes open and close in turn. -/
def symbolAt (line : List Char) (k : Nat) (c : Char) : Char :=
  if c = '"' then (if Inside line k then QuoteSide.closing else QuoteSide.opening).glyph else c

def slotAt (palettes : Palettes) (line : List Char) (k : Nat) (c : Char) : PaletteId :=
  if c = '"' ∨ Inside line k then palettes.literal
  else if c = ' ' then palettes.plain
  else if (wordAt line k).head?.any Char.isUpper then palettes.identifier
  else if String.ofList (wordAt line k) ∈ reservedWords then palettes.keyword
  else palettes.plain

def glyphAt (palettes : Palettes) (line : List Char) (k : Nat) (c : Char) : Glyph :=
  ⟨symbolAt line k c, slotAt palettes line k c⟩

def Token.glyphs (palettes : Palettes) (token : Token) : List Glyph :=
  let slot := palettes.slot token.kind
  let body := Glyph.ofText slot token.text
  if token.kind = .literal then
    ⟨QuoteSide.opening.glyph, slot⟩ :: body ++ [⟨QuoteSide.closing.glyph, slot⟩]
  else body

theorem length_glyphs (palettes : Palettes) (token : Token) :
    (token.glyphs palettes).length = token.written.length := by
  unfold Token.glyphs Token.written Glyph.ofText
  dsimp only
  split <;> simp

theorem length_flatMap_glyphs (palettes : Palettes) (tokens : List Token) :
    (tokens.flatMap (Token.glyphs palettes)).length = (tokens.flatMap Token.written).length := by
  induction tokens with
  | nil => rfl
  | cons token tokens ih =>
    rw [List.flatMap_cons, List.flatMap_cons, List.length_append, List.length_append,
      length_glyphs, ih]

theorem slot_classify (palettes : Palettes) (word : List Char) :
    palettes.slot (classify word) =
      if word.head?.any Char.isUpper then palettes.identifier
      else if String.ofList word ∈ reservedWords then palettes.keyword
      else palettes.plain := by
  unfold classify
  simp only [List.contains_iff_mem]
  split
  · rfl
  · split <;> rfl

theorem exists_token_at {tokens : List Token} {k : Nat} {c : Char}
    (h : (tokens.flatMap Token.written)[k]? = some c) :
    ∃ before token after j, tokens = before ++ token :: after ∧
      k = (before.flatMap Token.written).length + j ∧ token.written[j]? = some c := by
  induction tokens generalizing k with
  | nil => cases h
  | cons token tokens ih =>
    rw [List.flatMap_cons] at h
    by_cases hk : k < token.written.length
    · rw [List.getElem?_append_left hk] at h
      exact ⟨[], token, tokens, k, rfl, (Nat.zero_add k).symm, h⟩
    · rw [List.getElem?_append_right (by omega)] at h
      obtain ⟨before, other, after, j, rfl, hj, hc⟩ := ih h
      refine ⟨token :: before, other, after, j, rfl, ?_, hc⟩
      rw [List.flatMap_cons, List.length_append]
      omega

theorem count_of_wellMade {kind : TokenKind} {text : List Char} (h : WellMade kind text) :
    text.count '"' = 0 := by
  rw [List.count_eq_zero]
  cases h with
  | literal quotes => exact quotes
  | whitespace _ spaces => exact fun hq => absurd (spaces _ hq) (by decide)
  | word _ letters => exact fun hq => (letters _ hq).2 rfl

theorem even_written {tokens : List Token} (h : ∀ token ∈ tokens, WellMade token.kind token.text) :
    (tokens.flatMap Token.written).count '"' % 2 = 0 := by
  induction tokens with
  | nil => rfl
  | cons token tokens ih =>
    rw [List.forall_mem_cons] at h
    have htext := count_of_wellMade h.1
    have hrest := ih h.2
    rw [List.flatMap_cons, List.count_append, Token.written]
    split
    · simp [htext]
      omega
    · omega

theorem inside_iff {before text after : List Char} {j : Nat} (h : before.count '"' % 2 = 0)
    (hj : j ≤ text.length) :
    Inside (before ++ (text ++ after)) (before.length + j) ↔ (text.take j).count '"' % 2 = 1 := by
  unfold Inside
  rw [List.take_length_add_append, List.take_append_of_le_length hj, List.count_append]
  omega

theorem count_take {text : List Char} (h : text.count '"' = 0) (j : Nat) :
    (text.take j).count '"' = 0 := by
  rw [List.count_eq_zero] at h ⊢
  exact fun hm => h (List.mem_of_mem_take hm)

theorem not_inside {before text after : List Char} {j : Nat} (h : before.count '"' % 2 = 0)
    (hquotes : text.count '"' = 0) (hj : j ≤ text.length) :
    ¬Inside (before ++ (text ++ after)) (before.length + j) := by
  rw [inside_iff h hj, count_take hquotes]
  decide

theorem ends_of_not_word {token : Token} (h : WellMade token.kind token.text)
    (hk : token.kind = .literal ∨ token.kind = .whitespace) :
    (∃ front c, token.written = front ++ [c] ∧ inWord c = false) ∧
      ∃ c back, token.written = c :: back ∧ inWord c = false := by
  rcases h.kinds with ⟨hl, -⟩ | ⟨hw, nonempty, spaces⟩ | ⟨hword, -⟩
  · rw [Token.written, if_pos hl]
    exact ⟨⟨'"' :: token.text, '"', rfl, rfl⟩, ⟨'"', token.text ++ ['"'], rfl, rfl⟩⟩
  · rw [Token.written, if_neg (by simp [hw])]
    constructor
    · refine ⟨_, _, (List.dropLast_append_getLast nonempty).symm, ?_⟩
      rw [spaces _ (List.getLast_mem nonempty)]
      rfl
    · refine ⟨_, _, (List.cons_head_tail nonempty).symm, ?_⟩
      rw [spaces _ (List.head_mem nonempty)]
      rfl
  · rw [hword] at hk
    rcases hk with hk | hk
    · exact absurd hk (classify_ne_literal _)
    · exact absurd hk (classify_ne_whitespace _)

theorem rtakeWhile_append {p : Char → Bool} {s t : List Char} (h : ∀ c ∈ t, p c = true) :
    (s ++ t).rtakeWhile p = s.rtakeWhile p ++ t := by
  have hr : ∀ c ∈ t.reverse, p c = true := fun c hc => h c (List.mem_reverse.1 hc)
  rw [List.rtakeWhile, List.reverse_append, List.takeWhile_append_of_pos hr, List.reverse_append,
    List.reverse_reverse]
  rfl

variable {before after : List Token} {token : Token}

theorem rtakeWhile_written (hmade : ∀ token ∈ before, WellMade token.kind token.text)
    (hapart : (before ++ token :: after).IsChain Apart) (hl : token.kind ≠ .literal)
    (hw : token.kind ≠ .whitespace) :
    (before.flatMap Token.written).rtakeWhile inWord = [] := by
  rcases List.eq_nil_or_concat before with rfl | ⟨front, last, rfl⟩
  · rfl
  · have happart : Apart last token :=
      (List.isChain_append.1 hapart).2.2 last (by simp) token (by simp)
    have hk : last.kind = .literal ∨ last.kind = .whitespace := by
      rcases happart with h | h | h
      · exact .inl h
      · exact absurd h hl
      · exact .inr (h.2 hw)
    obtain ⟨s, c, hs, hc⟩ := (ends_of_not_word (hmade last (by simp)) hk).1
    rw [List.concat_eq_append, List.flatMap_append, List.flatMap_singleton, hs, ← List.append_assoc]
    exact List.rtakeWhile_concat_neg _ _ _ (by simp [hc])

theorem takeWhile_written (hmade : ∀ token ∈ after, WellMade token.kind token.text)
    (hapart : (token :: after).IsChain Apart) (hl : token.kind ≠ .literal)
    (hw : token.kind ≠ .whitespace) :
    (after.flatMap Token.written).takeWhile inWord = [] := by
  cases after with
  | nil => rfl
  | cons next rest =>
    have hk : next.kind = .literal ∨ next.kind = .whitespace := by
      rcases (List.isChain_cons_cons.1 hapart).1 with h | h | h
      · exact absurd h hl
      · exact .inl h
      · exact .inr (not_not.1 fun hn => hw (h.2 hn))
    obtain ⟨c, s, hs, hc⟩ := (ends_of_not_word (hmade next List.mem_cons_self) hk).2
    rw [List.flatMap_cons, hs, List.cons_append]
    exact List.takeWhile_cons_of_neg (by simp [hc])

theorem wordAt_eq {left word right : List Char} (hword : ∀ c ∈ word, inWord c = true)
    (hleft : left.rtakeWhile inWord = []) (hright : right.takeWhile inWord = []) {j : Nat}
    (hj : j ≤ word.length) : wordAt (left ++ (word ++ right)) (left.length + j) = word := by
  have htake : ∀ c ∈ word.take j, inWord c = true := fun c hc => hword c (List.mem_of_mem_take hc)
  have hdrop : ∀ c ∈ word.drop j, inWord c = true := fun c hc => hword c (List.mem_of_mem_drop hc)
  rw [wordAt, List.take_length_add_append, List.drop_length_add_append,
    List.take_append_of_le_length hj, List.drop_append_of_le_length hj, rtakeWhile_append htake,
    List.takeWhile_append_of_pos hdrop, hleft, hright, List.nil_append, List.append_nil,
    List.take_append_drop]

variable (palettes : Palettes)

section
variable {line : List Char} {k : Nat} {c : Char}

theorem glyphAt_quote : glyphAt palettes line k '"' =
    ⟨(if Inside line k then QuoteSide.closing else QuoteSide.opening).glyph, palettes.literal⟩ := by
  simp [glyphAt, symbolAt, slotAt]

theorem glyphAt_inside (h : Inside line k) (hc : c ≠ '"') :
    glyphAt palettes line k c = ⟨c, palettes.literal⟩ := by
  simp [glyphAt, symbolAt, slotAt, h, hc]

theorem glyphAt_space (h : ¬Inside line k) : glyphAt palettes line k ' ' = ⟨' ', palettes.plain⟩ := by
  simp [glyphAt, symbolAt, slotAt, h]

theorem glyphAt_word (h : ¬Inside line k) (hc : c ≠ ' ' ∧ c ≠ '"') :
    glyphAt palettes line k c = ⟨c, palettes.slot (classify (wordAt line k))⟩ := by
  simp [glyphAt, symbolAt, slotAt, h, hc, slot_classify]

end

section
variable {left text right : List Char} {j : Nat} {c : Char}

theorem getElem?_ofText {ink : PaletteId} (h : text[j]? = some c) :
    (Glyph.ofText ink text)[j]? = some ⟨c, ink⟩ := by
  rw [Glyph.ofText, List.getElem?_map, h, Option.map_some]

/-- The glyphs of a literal that stands behind an even number of quotes. -/
theorem getElem?_literal (quotes : '"' ∉ text) (heven : left.count '"' % 2 = 0)
    (hc : ('"' :: text ++ ['"'])[j]? = some c) :
    (⟨QuoteSide.opening.glyph, palettes.literal⟩ :: Glyph.ofText palettes.literal text ++
        [⟨QuoteSide.closing.glyph, palettes.literal⟩])[j]? =
      some (glyphAt palettes (left ++ (('"' :: text ++ ['"']) ++ right)) (left.length + j) c) := by
  obtain ⟨hj, -⟩ := List.getElem?_eq_some_iff.1 hc
  have hinside := @inside_iff left ('"' :: text ++ ['"']) right j heven hj.le
  cases j with
  | zero =>
    -- the quote in front is the only character of the literal with no quote of it before
    obtain rfl : '"' = c := Option.some.inj hc
    rw [glyphAt_quote, if_neg fun h => absurd (hinside.1 h) (by simp)]
    rfl
  | succ j =>
    have hle : j ≤ text.length := Nat.le_of_lt_succ (by simpa using hj)
    have hin : Inside (left ++ (('"' :: text ++ ['"']) ++ right)) (left.length + (j + 1)) := by
      rw [hinside, List.cons_append, List.take_succ_cons, List.count_cons_self,
        List.take_append_of_le_length hle, count_take (List.count_eq_zero.2 quotes)]
    rw [List.cons_append, List.getElem?_cons_succ] at hc ⊢
    rcases Nat.lt_or_eq_of_le hle with hlt | rfl
    · rw [List.getElem?_append_left hlt] at hc
      have hq : c ≠ '"' := fun he => quotes (he ▸ List.mem_of_getElem? hc)
      rw [glyphAt_inside palettes hin hq, List.getElem?_append_left (by simpa [Glyph.ofText] using hlt)]
      exact getElem?_ofText hc
    · obtain rfl : '"' = c := by simpa using hc
      rw [glyphAt_quote, if_pos hin]
      simp [Glyph.ofText]

theorem getElem?_spaces (spaces : ∀ c ∈ text, c = ' ') (quotes : text.count '"' = 0)
    (heven : left.count '"' % 2 = 0) (hc : text[j]? = some c) :
    (Glyph.ofText palettes.plain text)[j]? =
      some (glyphAt palettes (left ++ (text ++ right)) (left.length + j) c) := by
  obtain ⟨hj, -⟩ := List.getElem?_eq_some_iff.1 hc
  obtain rfl := spaces c (List.mem_of_getElem? hc)
  rw [getElem?_ofText hc, glyphAt_space palettes (not_inside heven quotes hj.le)]

theorem getElem?_word (letters : ∀ c ∈ text, c ≠ ' ' ∧ c ≠ '"') (quotes : text.count '"' = 0)
    (heven : left.count '"' % 2 = 0) (hleft : left.rtakeWhile inWord = [])
    (hright : right.takeWhile inWord = []) (hc : text[j]? = some c) :
    (Glyph.ofText (palettes.slot (classify text)) text)[j]? =
      some (glyphAt palettes (left ++ (text ++ right)) (left.length + j) c) := by
  have hword : ∀ d ∈ text, inWord d = true := fun d hd => by simp [inWord, letters d hd]
  obtain ⟨hj, -⟩ := List.getElem?_eq_some_iff.1 hc
  rw [getElem?_ofText hc, glyphAt_word palettes (not_inside heven quotes hj.le)
    (letters c (List.mem_of_getElem? hc)), wordAt_eq hword hleft hright hj.le]

end

theorem getElem?_glyphs {j : Nat} {c : Char}
    (hmade : ∀ other ∈ before ++ token :: after, WellMade other.kind other.text)
    (hapart : (before ++ token :: after).IsChain Apart) (hc : token.written[j]? = some c) :
    (token.glyphs palettes)[j]? =
      some (glyphAt palettes ((before ++ token :: after).flatMap Token.written)
        ((before.flatMap Token.written).length + j) c) := by
  rw [List.forall_mem_append, List.forall_mem_cons] at hmade
  obtain ⟨hbefore, htoken, hafter⟩ := hmade
  -- the tokens before have all their quotes in pairs, so only those of the token itself count
  have heven := even_written hbefore
  have hzero := count_of_wellMade htoken
  rw [List.flatMap_append, List.flatMap_cons]
  unfold Token.glyphs
  rcases htoken.kinds with ⟨hl, quotes⟩ | ⟨hw, -, spaces⟩ | ⟨hword, -, letters⟩
  · have hwritten : token.written = '"' :: token.text ++ ['"'] := if_pos hl
    rw [hwritten] at hc ⊢
    rw [if_pos hl, hl]
    exact getElem?_literal palettes quotes heven hc
  · have hl : token.kind ≠ .literal := by simp [hw]
    have hwritten : token.written = token.text := if_neg hl
    rw [hwritten] at hc ⊢
    rw [if_neg hl, hw]
    exact getElem?_spaces palettes spaces hzero heven hc
  · have hl : token.kind ≠ .literal := hword ▸ classify_ne_literal token.text
    have hw : token.kind ≠ .whitespace := hword ▸ classify_ne_whitespace token.text
    have hwritten : token.written = token.text := if_neg hl
    rw [hwritten] at hc ⊢
    rw [if_neg hl, hword]
    exact getElem?_word palettes letters hzero heven
      (rtakeWhile_written hbefore hapart hl hw)
      (takeWhile_written hafter (List.isChain_append.1 hapart).2.1 hl hw) hc

/-- Each character of a line is shown by the tokens as the line alone tells. -/
theorem getElem?_flatMap_glyphs {tokens : List Token} {k : Nat} {c : Char}
    (hmade : ∀ token ∈ tokens, WellMade token.kind token.text) (hapart : tokens.IsChain Apart)
    (hc : (tokens.flatMap Token.written)[k]? = some c) :
    (tokens.flatMap (Token.glyphs palettes))[k]? =
      some (glyphAt palettes (tokens.flatMap Token.written) k c) := by
  obtain ⟨before, token, after, j, rfl, rfl, hj⟩ := exists_token_at hc
  rw [← getElem?_glyphs palettes hmade hapart hj, List.flatMap_append, List.flatMap_cons,
    ← length_flatMap_glyphs palettes, List.getElem?_append_right (by omega), Nat.add_sub_cancel_left,
    List.getElem?_append_left]
  rw [length_glyphs]
  exact (List.getElem?_eq_some_iff.1 hj).1

end TileDeck.Code
