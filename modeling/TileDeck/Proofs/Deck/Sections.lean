import TileDeck.Deck
import TileDeck.Page.Showing
import TileDeck.Proofs.Text.Lines

set_option autoImplicit false

namespace TileDeck.Deck

/-- Lines up to the begin of a page, from the separator on that opens it. -/
structure Opens (index : Nat) (before : List (List Char)) : Prop where
  separators : before.countP isSeparator = index
  opened : ∀ line ∈ before.getLast?, isSeparator line

/-- The lines `body` between two separators, or between one and an end of the source, of the page
with some index. -/
structure Section (lines : List (List Char)) (index : Nat)
    (before body after : List (List Char)) : Prop where
  lines_eq : lines = before ++ body ++ after
  opens : Opens index before
  inside : ∀ line ∈ body, isSeparator line = false
  closed : ∀ line ∈ after.head?, isSeparator line

/-- The number of empty lines at the top. -/
def lead (body : List (List Char)) : Nat := body.findIdx (· ≠ [])

theorem opens_nil : Opens 0 [] := ⟨rfl, by simp⟩

theorem Opens.eq_nil {before : List (List Char)} (h : Opens 0 before) : before = [] := by
  rcases List.eq_nil_or_concat before with rfl | ⟨lines, line, rfl⟩
  · rfl
  · have hl := h.opened line (by simp)
    have hc := List.countP_eq_zero.1 h.separators line (by simp)
    exact absurd hl hc

theorem Opens.separator {index : Nat} {before : List (List Char)} (h : Opens index before)
    {line : List Char} (hl : isSeparator line) : Opens (index + 1) (line :: before) := by
  refine ⟨by rw [List.countP_cons_of_pos hl, h.separators], fun last hlast => ?_⟩
  cases before with
  | nil =>
    obtain rfl : line = last := by simpa using hlast
    exact hl
  | cons next rest => exact h.opened last (by simpa [List.getLast?_cons_cons] using hlast)

theorem Opens.line {index : Nat} {before : List (List Char)} (h : Opens (index + 1) before)
    {line : List Char} (hl : isSeparator line = false) : Opens (index + 1) (line :: before) := by
  refine ⟨by rw [List.countP_cons_of_neg (by simp [hl]), h.separators], fun last hlast => ?_⟩
  cases before with
  | nil => simpa using h.separators
  | cons next rest => exact h.opened last (by simpa [List.getLast?_cons_cons] using hlast)

theorem section_of_divide {lines : List (List Char)} {text : List Char} {index : Nat}
    {found : List Char} (h : (divide text lines)[index]? = some found) :
    ∃ before body after, Section lines index before body after ∧
      found = body.foldl extend (if index = 0 then text else []) := by
  induction lines generalizing text index with
  | nil =>
    unfold divide at h
    split at h
    · simp at h
    · obtain ⟨rfl, rfl⟩ : index = 0 ∧ text = found := by
        cases index with
        | zero => simpa using h
        | succ index => simp at h
      exact ⟨[], [], [], ⟨rfl, opens_nil, by simp, by simp⟩, rfl⟩
  | cons line rest ih =>
    unfold divide at h
    split at h
    · rename_i hl
      cases index with
      | zero =>
        obtain rfl : text = found := by simpa using h
        exact ⟨[], [], line :: rest, ⟨rfl, opens_nil, by simp, by simpa using hl⟩, rfl⟩
      | succ index =>
        obtain ⟨before, body, after, hs, hf⟩ := ih (by simpa using h)
        refine ⟨line :: before, body, after,
          ⟨congrArg (line :: ·) hs.lines_eq, hs.opens.separator hl, hs.inside, hs.closed⟩, ?_⟩
        simpa using hf
    · rename_i hl
      have hl : isSeparator line = false := by simpa using hl
      obtain ⟨before, body, after, hs, hf⟩ := ih h
      cases index with
      | zero =>
        obtain rfl := hs.opens.eq_nil
        exact ⟨[], line :: body, after,
          ⟨congrArg (line :: ·) hs.lines_eq, opens_nil, List.forall_mem_cons.2 ⟨hl, hs.inside⟩,
            hs.closed⟩, hf⟩
      | succ index =>
        exact ⟨line :: before, body, after,
          ⟨congrArg (line :: ·) hs.lines_eq, hs.opens.line hl, hs.inside, hs.closed⟩, hf⟩

theorem foldl_extend {text : List Char} (ht : text ≠ []) (lines : List (List Char)) :
    lines.foldl extend text = text ++ lines.flatMap ('\n' :: ·) := by
  induction lines generalizing text with
  | nil => simp
  | cons line rest ih =>
    rw [List.foldl_cons, extend, if_neg ht, ih (by simp), List.flatMap_cons, List.append_assoc]

theorem lead_cons (line : List Char) (rest : List (List Char)) :
    lead (line :: rest) = if line = [] then lead rest + 1 else 0 := by
  unfold lead
  rw [List.findIdx_cons]
  by_cases hl : line = [] <;> simp [hl]

theorem ne_nil_of_drop_lead {body rest : List (List Char)} {line : List Char}
    (h : body.drop (lead body) = line :: rest) : line ≠ [] := by
  induction body with
  | nil => simp at h
  | cons first body ih =>
    rw [lead_cons] at h
    split at h
    · exact ih h
    · rename_i hf
      obtain ⟨rfl, _⟩ := List.cons.inj h
      exact hf

theorem foldl_extend_nil (body : List (List Char)) :
    body.foldl extend [] = (body.drop (lead body)).foldl extend [] := by
  induction body with
  | nil => rfl
  | cons line rest ih =>
    rw [lead_cons]
    split
    · rename_i hl
      subst hl
      exact ih
    · rfl

theorem lines_foldl_extend {body : List (List Char)} (hn : ∀ line ∈ body, '\n' ∉ line)
    (hb : body.drop (lead body) ≠ []) :
    Text.lines (body.foldl extend []) = body.drop (lead body) := by
  rw [foldl_extend_nil]
  cases hd : body.drop (lead body) with
  | nil => exact absurd hd hb
  | cons line rest =>
    have hl := ne_nil_of_drop_lead hd
    have hm : ∀ other ∈ line :: rest, '\n' ∉ other := by
      rw [← hd]
      exact fun other ho => hn other (List.mem_of_mem_drop ho)
    rw [List.forall_mem_cons] at hm
    rw [List.foldl_cons, extend, if_pos rfl, foldl_extend hl, Text.lines_joined hm.1 hm.2]

theorem section_of_page? {source : String} {index : Nat} {page : Page}
    (h : (parse source).page? index = some page) :
    ∃ before body after, Section (Text.lines source.toList) index before body after ∧
      page.text = String.ofList (body.foldl extend []) := by
  unfold parse page? at h
  rw [List.getElem?_map, Option.map_eq_some_iff] at h
  obtain ⟨text, ht, rfl⟩ := h
  obtain ⟨before, body, after, hs, rfl⟩ := section_of_divide ht
  exact ⟨before, body, after, hs, by simp⟩

theorem Section.scriptLines {source : String} {index : Nat} {before body after : List (List Char)}
    (h : Section (Text.lines source.toList) index before body after)
    (hb : body.drop (lead body) ≠ []) :
    Page.scriptLines (String.ofList (body.foldl extend [])) =
      (body.drop (lead body)).map String.ofList := by
  have hn : ∀ line ∈ body, '\n' ∉ line := fun line hl => by
    refine Text.newline_notMem (s := source.toList) ?_
    rw [h.lines_eq]
    exact List.mem_append_left after (List.mem_append_right before hl)
  rw [Page.scriptLines, String.toList_ofList, lines_foldl_extend hn hb]

end TileDeck.Deck
