import TileDeck.Proofs.Deck.Sections

set_option autoImplicit false

namespace TileDeck

/-- A text that a page of a deck can have. -/
structure Page.Clean (page : Page) : Prop where
  inside : ∀ line ∈ Text.lines page.text.toList, Deck.isSeparator line = false
  top : page.text.toList.head? ≠ some '\n'

theorem Page.clean_iff (page : Page) :
    page.Clean ↔ (∀ line ∈ Text.lines page.text.toList, Deck.isSeparator line = false) ∧
      page.text.toList.head? ≠ some '\n' :=
  ⟨fun h => ⟨h.inside, h.top⟩, fun h => ⟨h.1, h.2⟩⟩

instance (page : Page) : Decidable page.Clean := decidable_of_iff' _ page.clean_iff

namespace Deck

def closed (page : Page) : List Char := page.text.toList ++ "\n---\n".toList

theorem lines_closed (page : Page) (rest : List Char) :
    Text.lines (closed page ++ rest) =
      Text.lines page.text.toList ++ ['-', '-', '-'] :: Text.lines rest := by
  have hmark : closed page ++ rest = page.text.toList ++ '\n' :: (['-', '-', '-'] ++ '\n' :: rest) := by
    unfold closed
    rw [List.append_assoc]
    rfl
  have hdashes : '\n' ∉ ['-', '-', '-'] := by decide
  rw [hmark, Text.lines, List.splitOn_append_cons_self,
    List.splitOn_append_cons_self_of_not_mem hdashes]
  rfl

theorem divide_append {body : List (List Char)} (h : ∀ line ∈ body, isSeparator line = false)
    (text : List Char) (rest : List (List Char)) :
    divide text (body ++ rest) = divide (body.foldl extend text) rest := by
  induction body generalizing text with
  | nil => rfl
  | cons line body ih =>
    rw [List.forall_mem_cons] at h
    rw [List.cons_append, divide, h.1, if_neg Bool.false_ne_true, ih h.2]
    rfl

theorem foldl_extend_lines {text : List Char} (h : text.head? ≠ some '\n') :
    (Text.lines text).foldl extend [] = text := by
  obtain ⟨line, rest, hl⟩ := List.exists_cons_of_ne_nil (List.splitOn_ne_nil '\n' text)
  change Text.lines text = line :: rest at hl
  have ht : line ++ rest.flatMap ('\n' :: ·) = text := (Text.joined_lines hl).symm
  rw [hl, List.foldl_cons, extend, if_pos rfl]
  by_cases hline : line = []
  · subst hline
    cases rest with
    | nil => exact ht
    | cons next rest =>
      -- an empty line above another one would put a newline first
      rw [← ht] at h
      exact absurd rfl h
  · rw [foldl_extend hline, ht]

theorem divide_source {pages : List Page} (h : ∀ page ∈ pages, page.Clean) :
    divide [] (Text.lines (pages.flatMap closed)) = pages.map fun page => page.text.toList := by
  induction pages with
  | nil => rfl
  | cons page pages ih =>
    rw [List.forall_mem_cons] at h
    rw [List.flatMap_cons, lines_closed, divide_append h.1.inside, foldl_extend_lines h.1.top,
      divide, if_pos (by decide), ih h.2, List.map_cons]

theorem parse_source {deck : Deck} (h : ∀ page ∈ deck.pages, page.Clean) :
    parse deck.source = deck := by
  have hs : deck.source.toList = deck.pages.flatMap closed := String.toList_ofList
  rw [parse, hs, divide_source h, List.map_map]
  have hid : (fun text => (⟨String.ofList text⟩ : Page)) ∘ (fun page : Page => page.text.toList) = id :=
    funext fun page => congrArg Page.mk String.ofList_toList
  rw [hid, List.map_id]

theorem clean_section {lines before body after : List (List Char)} {index : Nat}
    (h : Section lines index before body after) (hn : ∀ line ∈ body, '\n' ∉ line) :
    Page.Clean ⟨String.ofList (body.foldl extend [])⟩ := by
  by_cases hb : body.drop (lead body) = []
  · have htext : body.foldl extend [] = [] := by rw [foldl_extend_nil, hb, List.foldl_nil]
    rw [htext]
    exact ⟨by decide, by decide⟩
  · constructor
    · rw [String.toList_ofList, lines_foldl_extend hn hb]
      exact fun line hl => h.inside line (List.mem_of_mem_drop hl)
    · rw [String.toList_ofList, foldl_extend_nil]
      obtain ⟨line, rest, hd⟩ := List.exists_cons_of_ne_nil hb
      obtain ⟨c, line, rfl⟩ := List.exists_cons_of_ne_nil (ne_nil_of_drop_lead hd)
      have hmem : c :: line ∈ body := List.mem_of_mem_drop (hd ▸ List.mem_cons_self)
      have hc : c ≠ '\n' := fun hc => hn _ hmem (hc ▸ List.mem_cons_self)
      rw [hd, List.foldl_cons, extend, if_pos rfl, foldl_extend (List.cons_ne_nil c line)]
      exact fun he => hc (Option.some.inj he)

theorem clean_parse {source : String} {page : Page} (h : page ∈ (parse source).pages) :
    page.Clean := by
  obtain ⟨index, hp⟩ := List.mem_iff_getElem?.1 h
  obtain ⟨before, body, after, hs, ht⟩ := section_of_page? hp
  have hpage : page = ⟨String.ofList (body.foldl extend [])⟩ := by rw [← ht]
  rw [hpage]
  refine clean_section hs fun line hl => ?_
  refine Text.newline_notMem (s := source.toList) ?_
  rw [hs.lines_eq]
  exact List.mem_append_left after (List.mem_append_right before hl)

/-- Reading a source and writing a deck undo each other, on clean pages and only there. -/
theorem parse_source_iff_clean :
    (∀ deck : Deck, parse deck.source = deck ↔ ∀ page ∈ deck.pages, page.Clean) ∧
      ∀ source : String, (∀ page ∈ (parse source).pages, page.Clean) ∧
        parse (parse source).source = parse source := by
  have hclean : ∀ source, ∀ page ∈ (parse source).pages, page.Clean := fun _ _ => clean_parse
  refine ⟨fun deck => ⟨fun h => ?_, parse_source⟩, fun source => ⟨hclean source, ?_⟩⟩
  · rw [← h]
    exact hclean deck.source
  · exact parse_source (hclean source)

def spaced : Deck := ⟨[⟨"a\n"⟩, ⟨""⟩, ⟨" \r"⟩]⟩

theorem spaced_read_back :
    (∀ page ∈ spaced.pages, page.Clean) ∧ parse "a\n\n---\n\n---\n \r\n---\n" = spaced ∧
      ⟨"a\n"⟩ ∈ (parse spaced.source).pages ∧ Page.Clean ⟨"a\n"⟩ := by
  have hclean : ∀ page ∈ spaced.pages, page.Clean := by decide
  have hread := (parse_source_iff_clean.1 spaced).2 hclean
  have hsource : spaced.source = "a\n\n---\n\n---\n \r\n---\n" := by decide
  have hmem : ⟨"a\n"⟩ ∈ (parse spaced.source).pages := by
    rw [hread]
    exact List.mem_cons_self
  refine ⟨hclean, ?_, hmem, (parse_source_iff_clean.2 spaced.source).1 _ hmem⟩
  rw [← hsource]
  exact hread

end Deck

end TileDeck
