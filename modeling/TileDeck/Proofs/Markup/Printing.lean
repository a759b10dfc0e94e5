import TileDeck.Proofs.Markup.Fields
import TileDeck.Proofs.Text.Returns

set_option autoImplicit false

namespace TileDeck.Markup

open TileDeck.Markup.Field (Whole Within)

namespace Keyword

theorem mem_all (keyword : Keyword) : keyword ∈ all := by
  cases keyword <;> decide

theorem eq_of_opening_isPrefix {keyword other : Keyword} (h : keyword.opening <+: other.opening) :
    keyword = other := by
  have hall : ∀ keyword ∈ all, ∀ other ∈ all, keyword.opening <+: other.opening →
      keyword = other := by
    decide
  exact hall keyword (mem_all keyword) other (mem_all other) h

theorem ofLine?_opening (keyword : Keyword) (rest : List Char) :
    ofLine? (keyword.opening ++ rest) = some keyword := by
  have hself : keyword.opening <+: keyword.opening ++ rest := List.prefix_append _ _
  have hfound : (ofLine? (keyword.opening ++ rest)).isSome :=
    List.find?_isSome.2 ⟨keyword, mem_all keyword, List.isPrefixOf_iff_prefix.2 hself⟩
  obtain ⟨found, hf⟩ := Option.isSome_iff_exists.1 hfound
  have hopens := List.find?_some (p := fun k : Keyword => k.opening.isPrefixOf _) hf
  have hprefix : found.opening <+: keyword.opening ++ rest := List.isPrefixOf_iff_prefix.1 hopens
  rw [hf]
  rcases List.prefix_or_prefix_of_prefix hprefix hself with h | h
  · rw [eq_of_opening_isPrefix h]
  · rw [eq_of_opening_isPrefix h]

theorem mark_notMem_name (keyword : Keyword) :
    ',' ∉ keyword.name.toList ∧ ':' ∉ keyword.name.toList := by
  cases keyword <;> decide

theorem head?_opening (keyword : Keyword) (rest : List Char) :
    (keyword.opening ++ rest).head? ≠ some '#' := by
  cases keyword <;> simp [opening, name]

end Keyword

namespace Header

theorem ofLine?_of_cut {keyword : Keyword} {line head payload : List Char}
    (h : Text.cut? ':' line = some (head, payload)) :
    ofLine? keyword line =
      some ⟨keyword, (head.splitOn ',').tail.map Text.trim, Text.dropSpace payload⟩ := by
  rw [ofLine?, h]
  rfl

theorem whole_fields {keyword : Keyword} {line : List Char} {header : Header}
    (h : ofLine? keyword line = some header) : ∀ field ∈ header.fields, Whole field := by
  obtain ⟨⟨head, payload⟩, hcut, rfl⟩ := Option.map_eq_some_iff.1 h
  obtain ⟨hcolon, -⟩ := Text.cut?_eq_some.1 hcut
  intro field hf
  obtain ⟨piece, hp, rfl⟩ := List.mem_map.1 hf
  have hpiece := Text.mem_of_mem_splitOn (List.mem_of_mem_tail hp)
  refine ⟨Text.trim_trim piece, fun hc => ?_, fun hc => ?_⟩
  · exact (hpiece _ (Text.trim_subset piece hc)).2 rfl
  · exact hcolon (hpiece _ (Text.trim_subset piece hc)).1

theorem ofLine?_fields {keyword : Keyword} {name payload : List Char} {fields : List (List Char)}
    (hn : ',' ∉ name ∧ ':' ∉ name) (hf : ∀ field ∈ fields, Whole field) (hne : fields ≠ []) :
    ofLine? keyword (name ++ ',' :: ([','].intercalate fields ++ ':' :: payload)) =
      some ⟨keyword, fields, Text.dropSpace payload⟩ := by
  have hjoined : ':' ∉ [','].intercalate fields := by
    intro hc
    rcases Text.mem_of_mem_intercalate hc with hc | ⟨field, h, hc⟩
    · simp at hc
    · exact (hf field h).colon hc
  have hcut : Text.cut? ':' (name ++ ',' :: ([','].intercalate fields ++ ':' :: payload)) =
      some (name ++ ',' :: [','].intercalate fields, payload) := by
    refine Text.cut?_eq_some.2 ⟨by simp [hn.2, hjoined], ?_⟩
    rw [List.append_assoc, List.cons_append]
  have hsplit : (name ++ ',' :: [','].intercalate fields).splitOn ',' = name :: fields := by
    rw [List.splitOn_append_cons_self_of_not_mem hn.1,
      List.splitOn_intercalate ',' (fun field h => (hf field h).comma) hne]
  have htrim : fields.map Text.trim = fields := by
    rw [List.map_congr_left fun field h => (hf field h).trimmed, List.map_id']
  rw [ofLine?_of_cut hcut, hsplit, List.tail_cons, htrim]

theorem ofLine?_bare {keyword : Keyword} {name : List Char} (hn : ',' ∉ name ∧ ':' ∉ name)
    (payload : List Char) :
    ofLine? keyword (name ++ ':' :: payload) = some ⟨keyword, [], Text.dropSpace payload⟩ := by
  rw [ofLine?_of_cut (Text.cut?_eq_some.2 ⟨hn.2, rfl⟩), List.splitOn_eq_singleton hn.1]
  rfl

end Header

namespace Command

/-- What a line can hold: numbers in range, and a name that stands as a field. -/
def Valid : Command → Prop
  | text x y _ _ => Within (-32767) 32767 x ∧ Within (-32767) 32767 y
  | code x y _ => Within (-32767) 32767 x ∧ Within (-32767) 32767 y
  | image x y name =>
    Within (-32767) 32767 x ∧ Within (-32767) 32767 y ∧ Whole name.toList
  | box x y width height _ =>
    Within (-32767) 32767 x ∧ Within (-32767) 32767 y ∧ Within 0 32767 width ∧
      Within 0 32767 height
  | arrow x y _ length _ =>
    Within (-32767) 32767 x ∧ Within (-32767) 32767 y ∧ 1 ≤ length.toNat ∧ length.toNat ≤ 32767
  | _ => True

theorem whole_fields {command : Command} (h : command.Valid) :
    ∀ field ∈ command.fields, Whole field := by
  cases command with
  | text x y bg content =>
    cases bg <;> simp [fields, Field.whole_wordField, Field.whole_byteField]
  | setColour id colour => simp [fields, Field.whole_byteField, Field.whole_digits]
  | textPalette id => simp [fields, Field.whole_byteField]
  | image x y name => simp [fields, Field.whole_wordField, h.2.2]
  | code x y content => simp [fields, Field.whole_wordField]
  | box x y width height bg =>
    cases bg <;> simp [fields, Field.whole_wordField, Field.whole_byteField]
  | arrow x y direction length branches =>
    simp [fields, Field.whole_wordField, Field.whole_letter, Field.whole_numeral]
  | backdrop id => simp [fields, Field.whole_numeral]
  | sleep frames => simp [fields, Field.whole_numeral]
  | _ => simp [fields]

theorem fields_eq_nil (command : Command) :
    command.fields = [] ↔ command.keyword.arity?.isSome = false := by
  cases command with
  | arrow x y direction length branches => cases branches <;> simp [fields, keyword, Keyword.arity?]
  | _ => simp [fields, keyword, Keyword.arity?]

theorem head?_head (command : Command) (rest : List Char) :
    (command.head ++ rest).head? ≠ some '#' := by
  rw [head, List.append_assoc]
  exact Keyword.head?_opening _ _

theorem keyword_head (command : Command) (rest : List Char) :
    Keyword.ofLine? (command.head ++ rest) = some command.keyword := by
  rw [head, List.append_assoc, Keyword.ofLine?_opening]

theorem ofLine?_head {command : Command} (h : command.Valid) (payload : List Char) :
    Header.ofLine? command.keyword (command.head ++ payload) =
      some ⟨command.keyword, command.fields, Text.dropSpace payload⟩ := by
  have hname := command.keyword.mark_notMem_name
  cases ha : command.keyword.arity?.isSome with
  | true =>
    have hne : command.fields ≠ [] := by
      rw [ne_eq, fields_eq_nil, ha]
      decide
    have hline : command.head ++ payload = command.keyword.name.toList ++
        ',' :: ([','].intercalate command.fields ++ ':' :: payload) := by
      simp [head, Keyword.opening, Keyword.delimiter, ha]
    rw [hline, Header.ofLine?_fields hname (whole_fields h) hne]
  | false =>
    have hline : command.head ++ payload = command.keyword.name.toList ++ ':' :: payload := by
      simp [head, Keyword.opening, Keyword.delimiter, ha]
    rw [hline, Header.ofLine?_bare hname, (fields_eq_nil command).2 ha]

theorem build?_fields {command : Command} (h : command.Valid) :
    Header.build? (command.payload?.getD "") command.keyword command.fields =
      some (.ok command) := by
  cases command with
  | text x y bg content =>
    cases bg with
    | none =>
      simp only [fields, keyword, Option.toList_none, List.map_nil, List.append_nil, Header.build?,
        Field.coordinate_wordField h.1, Field.coordinate_wordField h.2]
      rfl
    | some bg =>
      simp only [fields, keyword, Option.toList_some, List.map_cons, List.map_nil, List.cons_append,
        List.nil_append, Header.build?, Field.coordinate_wordField h.1,
        Field.coordinate_wordField h.2, Field.byteOrNone_byteField]
      rfl
  | setColour id colour =>
    simp only [fields, keyword, Header.build?, Field.colour_digits, Field.byte_byteField]
    rfl
  | textPalette id =>
    simp only [fields, keyword, Header.build?, Field.byte_byteField]
    rfl
  | image x y name =>
    simp only [fields, keyword, Header.build?, Field.coordinate_wordField h.1,
      Field.coordinate_wordField h.2.1, String.ofList_toList]
    rfl
  | code x y content =>
    simp only [fields, keyword, Header.build?, Field.coordinate_wordField h.1,
      Field.coordinate_wordField h.2]
    rfl
  | box x y width height bg =>
    cases bg with
    | none =>
      simp only [fields, keyword, Option.toList_none, List.map_nil, List.append_nil, Header.build?,
        Field.coordinate_wordField h.1, Field.coordinate_wordField h.2.1,
        Field.extent_wordField h.2.2.1, Field.extent_wordField h.2.2.2]
      rfl
    | some bg =>
      simp only [fields, keyword, Option.toList_some, List.map_cons, List.map_nil, List.cons_append,
        List.nil_append, Header.build?, Field.coordinate_wordField h.1,
        Field.coordinate_wordField h.2.1, Field.extent_wordField h.2.2.1,
        Field.extent_wordField h.2.2.2, Field.byteOrNone_byteField]
      rfl
  | arrow x y direction length branches =>
    have harrow : Header.arrow branches (wordField x) (wordField y) [directionLetter direction]
        (Text.numeral 10 length.toNat) = .ok (.arrow x y direction length branches) := by
      simp only [Header.arrow, Field.arrowLength_numeral h.2.2.1 h.2.2.2,
        Field.coordinate_wordField h.1, Field.coordinate_wordField h.2.1, Field.direction_letter]
      rfl
    cases branches <;> exact congrArg some harrow
  | backdrop id =>
    simp only [fields, keyword, Header.build?, Field.hexByte_numeral]
    rfl
  | sleep frames =>
    simp only [fields, keyword, Header.build?, Field.word_numeral]
    rfl
  | _ => rfl

theorem valid_arrow {branches : Bool} {x y direction length : List Char} {command : Command}
    (h : Header.arrow branches x y direction length = .ok command) : command.Valid := by
  obtain ⟨n, hn, h⟩ := bind_eq_ok.1 h
  obtain ⟨_, _, hx, hy, h⟩ := Field.place_ok h
  obtain ⟨_, _, h⟩ := bind_eq_ok.1 h
  obtain rfl := Except.ok.inj h
  exact ⟨hx, hy, Field.arrowLength_ok hn⟩

theorem valid_of_build? {payload : String} {keyword : Keyword} {fields : List (List Char)}
    {command : Command} (hf : ∀ field ∈ fields, Whole field)
    (h : Header.build? payload keyword fields = some (.ok command)) : command.Valid := by
  unfold Header.build? at h
  split at h
  · -- a text without a background
    obtain ⟨_, _, hx, hy, h⟩ := Field.place_ok (Option.some.inj h)
    obtain rfl := Except.ok.inj h
    exact ⟨hx, hy⟩
  · -- a text with one
    obtain ⟨_, _, hx, hy, h⟩ := Field.place_ok (Option.some.inj h)
    obtain ⟨_, _, h⟩ := bind_eq_ok.1 h
    obtain rfl := Except.ok.inj h
    exact ⟨hx, hy⟩
  · -- the palette of texts
    obtain ⟨_, _, h⟩ := bind_eq_ok.1 (Option.some.inj h)
    obtain rfl := Except.ok.inj h
    trivial
  · -- a colour
    obtain ⟨_, _, h⟩ := bind_eq_ok.1 (Option.some.inj h)
    obtain ⟨_, _, h⟩ := bind_eq_ok.1 h
    obtain rfl := Except.ok.inj h
    trivial
  · -- an image
    rename_i name
    obtain ⟨_, _, hx, hy, h⟩ := Field.place_ok (Option.some.inj h)
    obtain rfl := Except.ok.inj h
    have hname : Whole name := hf name (by simp)
    refine ⟨hx, hy, ?_⟩
    rwa [String.toList_ofList]
  · -- code
    obtain ⟨_, _, hx, hy, h⟩ := Field.place_ok (Option.some.inj h)
    obtain rfl := Except.ok.inj h
    exact ⟨hx, hy⟩
  · -- a box without a background
    obtain ⟨_, _, hx, hy, h⟩ := Field.place_ok (Option.some.inj h)
    obtain ⟨_, hw, h⟩ := bind_eq_ok.1 h
    obtain ⟨_, hh, h⟩ := bind_eq_ok.1 h
    obtain rfl := Except.ok.inj h
    exact ⟨hx, hy, Field.extent_ok hw, Field.extent_ok hh⟩
  · -- a box with one
    obtain ⟨_, _, hx, hy, h⟩ := Field.place_ok (Option.some.inj h)
    obtain ⟨_, hw, h⟩ := bind_eq_ok.1 h
    obtain ⟨_, hh, h⟩ := bind_eq_ok.1 h
    obtain ⟨_, _, h⟩ := bind_eq_ok.1 h
    obtain rfl := Except.ok.inj h
    exact ⟨hx, hy, Field.extent_ok hw, Field.extent_ok hh⟩
  · exact valid_arrow (Option.some.inj h)
  · exact valid_arrow (Option.some.inj h)
  · -- a backdrop
    obtain ⟨_, _, h⟩ := bind_eq_ok.1 (Option.some.inj h)
    obtain rfl := Except.ok.inj h
    trivial
  · -- a sleep
    obtain ⟨_, _, h⟩ := bind_eq_ok.1 (Option.some.inj h)
    obtain rfl := Except.ok.inj h
    trivial
  -- Keywords without fields always give their command, and a wrong number of fields gives none.
  all_goals
    cases h <;> trivial

theorem header_of_parse {number : Nat} {line : String} {command : Command}
    (h : Line.parse number line = .ok (.command command)) :
    ∃ keyword header, Header.ofLine? keyword (Text.dropReturn line.toList) = some header ∧
      Header.build? (String.ofList header.payload) header.keyword header.fields =
        some (.ok command) := by
  unfold Line.parse Line.ofChars at h
  split at h
  · cases h
  split at h
  · cases h
  split at h
  · cases h
  rename_i header hheader
  split at h
  · rename_i built hbuilt
    obtain rfl : built = command := by injection h with h; injection h
    unfold Header.command at hbuilt
    split at hbuilt
    · rename_i result hresult
      exact ⟨_, header, hheader, hbuilt ▸ hresult⟩
    · cases hbuilt
  · cases h

theorem valid_of_parse {number : Nat} {line : String} {command : Command}
    (h : Line.parse number line = .ok (.command command)) : command.Valid := by
  obtain ⟨_, _, hheader, hbuild⟩ := header_of_parse h
  exact valid_of_build? (Header.whole_fields hheader) hbuild

theorem parse_print {command : Command} (h : command.Valid) (number : Nat) :
    Line.parse number command.print = .ok (.command command) := by
  have hheader : Header.ofLine? command.keyword
      (command.head ++ command.payload?.elim [] fun p => ' ' :: p.toList) =
        some ⟨command.keyword, command.fields, (command.payload?.getD "").toList⟩ := by
    rw [ofLine?_head h]
    cases command.payload? <;> rfl
  have hcommand : Header.command ⟨command.keyword, command.fields,
      (command.payload?.getD "").toList⟩ = .ok command := by
    simp only [Header.command, String.ofList_toList, build?_fields h]
  rw [Line.parse, print, String.toList_ofList, Text.dropReturn_concat, Line.ofChars,
    if_neg (head?_head _ _), keyword_head]
  simp only [hheader, hcommand]

/-- The commands that lines hold, and for each of them a line that holds it. -/
theorem parsed_iff_valid (number : Nat) (command : Command) :
    ((∃ line, Line.parse number line = .ok (.command command)) ↔ command.Valid) ∧
      (command.Valid → Line.parse number command.print = .ok (.command command)) := by
  refine ⟨⟨?_, fun h => ⟨command.print, parse_print h number⟩⟩, fun h => parse_print h number⟩
  rintro ⟨line, h⟩
  exact valid_of_parse h

def marked : Command := .text (-3) 32767 (some 7) " a:b,c\r"

theorem marked_parsed :
    marked.Valid ∧ marked.print = "txt,-3,32767,7:  a:b,c\r\r" ∧
      Line.parse 4 "txt,-3,32767,7:  a:b,c\r\r" = .ok (.command marked) := by
  have hv : marked.Valid := ⟨⟨by decide, by decide⟩, by decide, by decide⟩
  exact ⟨hv, by decide, (parsed_iff_valid 4 marked).2 hv⟩

end Command

end TileDeck.Markup
