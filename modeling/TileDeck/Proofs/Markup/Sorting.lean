import TileDeck.Proofs.Markup.Checks
import TileDeck.Proofs.Markup.Printing

set_option autoImplicit false

namespace TileDeck.Markup

def Cause.OfField : Cause → Prop
  | missingDelimiter | fieldCount .. => False
  | _ => True

namespace Keyword

def Opens (keyword : Keyword) (line : List Char) : Prop := keyword.opening <+: line

theorem Opens.unique {keyword other : Keyword} {line : List Char} (h : keyword.Opens line)
    (ho : other.Opens line) : keyword = other := by
  rcases List.prefix_or_prefix_of_prefix h ho with hp | hp
  · exact eq_of_opening_isPrefix hp
  · exact (eq_of_opening_isPrefix hp).symm

theorem Opens.not_comment {keyword : Keyword} {line : List Char} (h : keyword.Opens line) :
    ¬ ['#'] <+: line := by
  obtain ⟨rest, rfl⟩ := h
  rintro ⟨_, hc⟩
  exact head?_opening keyword rest (by rw [← hc]; rfl)

/-- A table with all keywords finds the one that opens the line, in whatever order they stand. -/
theorem find?_eq_some {table : List Keyword} (ht : table.Perm all) {keyword : Keyword}
    {line : List Char} :
    (table.find? fun k => k.opening.isPrefixOf line) = some keyword ↔ keyword.Opens line := by
  constructor
  · intro h
    exact List.isPrefixOf_iff_prefix.1
      (List.find?_some (p := fun k : Keyword => k.opening.isPrefixOf line) h)
  · intro h
    have hsome : (table.find? fun k => k.opening.isPrefixOf line).isSome :=
      List.find?_isSome.2 ⟨keyword, ht.mem_iff.2 (mem_all keyword), List.isPrefixOf_iff_prefix.2 h⟩
    obtain ⟨found, hf⟩ := Option.isSome_iff_exists.1 hsome
    have hopens : found.Opens line := List.isPrefixOf_iff_prefix.1
      (List.find?_some (p := fun k : Keyword => k.opening.isPrefixOf line) hf)
    rw [hf, hopens.unique h]

theorem find?_perm {table : List Keyword} (ht : table.Perm all) (line : List Char) :
    (table.find? fun k => k.opening.isPrefixOf line) = ofLine? line := by
  ext keyword
  rw [find?_eq_some ht, ofLine?, find?_eq_some (.refl _)]

theorem ofLine?_eq_some {keyword : Keyword} {line : List Char} :
    ofLine? line = some keyword ↔ keyword.Opens line :=
  find?_eq_some (.refl _)

theorem ofLine?_eq_none {line : List Char} :
    ofLine? line = none ↔ ∀ keyword : Keyword, ¬ keyword.Opens line := by
  simp only [Option.eq_none_iff_forall_ne_some, ne_eq, ofLine?_eq_some]

/-- The field at a position passes, if there is one and anything is asked of it. -/
def PassesAt (keyword : Keyword) (fields : List (List Char)) (i : Nat) : Prop :=
  ∀ check ∈ keyword.checks[i]?, ∀ field ∈ fields[i]?, check.Passes field

def FailsAt (keyword : Keyword) (fields : List (List Char)) (i : Nat) (cause : Cause) : Prop :=
  ∃ check ∈ keyword.checks[i]?, ∃ field ∈ fields[i]?, check.Fails field cause

/-- The first field that does not pass, in the order in which they are read, and what is wrong with
it. -/
def FailsFirst (keyword : Keyword) (fields : List (List Char)) (cause : Cause) : Prop :=
  ∃ before i after, keyword.order = before ++ i :: after ∧
    (∀ j ∈ before, keyword.PassesAt fields j) ∧ keyword.FailsAt fields i cause

theorem mem_order {keyword : Keyword} {i : Nat} :
    i ∈ keyword.order ↔ i < keyword.checks.length := by
  cases keyword <;> simp [order, checks] <;> omega

theorem arrow_of_length {keyword : Keyword} {i : Nat}
    (h : keyword.checks[i]? = some .arrowLength) :
    (keyword = .arrow ∨ keyword = .branchArrow) ∧ i = 3 := by
  have hall : ∀ keyword ∈ all, ∀ i < keyword.checks.length,
      keyword.checks[i]? = some .arrowLength →
        (keyword = .arrow ∨ keyword = .branchArrow) ∧ i = 3 := by
    decide
  exact hall keyword (mem_all keyword) i (List.getElem?_eq_some_iff.1 h).1 h

/-- A list of fields is refused for their number, else for the first that does not pass. -/
inductive Refuses (keyword : Keyword) (fields : List (List Char)) : Cause → Prop
  | count {arity : Arity} (ha : keyword.arity? = some arity)
    (h : arity.admits fields.length = false) :
    Refuses keyword fields (.fieldCount arity fields.length)
  | field {cause : Cause} (hn : keyword.Counts fields.length)
    (h : keyword.FailsFirst fields cause) : Refuses keyword fields cause

theorem lt_of_mem_order {keyword : Keyword} {n i : Nat} (hn : keyword.Counts n)
    (hi : i ∈ keyword.order) : i < n ∨ keyword.checks[i]? = some .slotOrNone := by
  have hall : ∀ keyword ∈ all, ∀ i ∈ keyword.order,
      (∃ arity ∈ keyword.arity?, i < arity.least) ∨
        keyword.checks[i]? = some .slotOrNone := by
    decide
  rcases hall keyword (mem_all keyword) i hi with ⟨arity, ha, hlt⟩ | hnone
  · have hadmits := hn arity ha
    simp only [Arity.admits, Bool.and_eq_true, decide_eq_true_iff] at hadmits
    exact .inl (Nat.lt_of_lt_of_le hlt hadmits.1)
  · exact .inr hnone

theorem FailsFirst.ofField {keyword : Keyword} {fields : List (List Char)} {cause : Cause}
    (h : keyword.FailsFirst fields cause) : cause.OfField := by
  obtain ⟨_, _, _, _, _, _, _, _, _, hf⟩ := h
  cases hf <;> trivial

theorem refuses_count {keyword : Keyword} {fields : List (List Char)} {arity : Arity} {got : Nat} :
    keyword.Refuses fields (.fieldCount arity got) ↔
      keyword.arity? = some arity ∧ got = fields.length ∧ arity.admits got = false := by
  constructor
  · intro h
    cases h with
    | count ha h => exact ⟨ha, rfl, h⟩
    | field _ h => exact h.ofField.elim
  · rintro ⟨ha, rfl, h⟩
    exact .count ha h

theorem refuses_field {keyword : Keyword} {fields : List (List Char)} {cause : Cause}
    (hc : cause.OfField) :
    keyword.Refuses fields cause ↔
      keyword.Counts fields.length ∧ keyword.FailsFirst fields cause := by
  constructor
  · intro h
    cases h with
    | count => exact hc.elim
    | field hn h => exact ⟨hn, h⟩
  · exact fun h => .field h.1 h.2

theorem refuses_zeroLength {keyword : Keyword} {fields : List (List Char)} :
    keyword.Refuses fields .zeroLength ↔
      (keyword = .arrow ∨ keyword = .branchArrow) ∧
        ∃ x y direction length, fields = [x, y, direction, length] ∧ Text.Signed length 0 := by
  have hfield : Cause.zeroLength.OfField := trivial
  rw [refuses_field hfield]
  constructor
  · rintro ⟨hn, before, i, after, -, -, check, hcheck, field, hmem, hf⟩
    cases hf with | zero hzero => ?_
    obtain ⟨hk, rfl⟩ := arrow_of_length hcheck
    have hadmits : (Arity.mk 4 4).admits fields.length = true := by
      rcases hk with rfl | rfl <;> exact hn _ rfl
    have hfour : fields.length = 4 := by
      simp only [Arity.admits, Bool.and_eq_true, decide_eq_true_iff] at hadmits
      omega
    obtain ⟨x, y, direction, length, rfl⟩ := List.length_eq_four.1 hfour
    obtain rfl : length = field := by simpa using hmem
    exact ⟨hk, x, y, direction, length, rfl, hzero⟩
  · -- the length is read first, so there is no field that has to pass before it
    rintro ⟨hk, x, y, direction, length, rfl, hzero⟩
    refine ⟨?_, [], 3, [0, 1, 2], ?_, by simp, .arrowLength, ?_, length, rfl, .zero hzero⟩
    · rcases hk with rfl | rfl <;> simp [Counts, arity?, Arity.admits]
    · rcases hk with rfl | rfl <;> rfl
    · rcases hk with rfl | rfl <;> rfl

end Keyword

namespace Header

variable {header : Header}

theorem faultAt?_eq_some {i : Nat} {cause : Cause} :
    header.faultAt? i = some cause ↔ header.keyword.FailsAt header.fields i cause := by
  simp only [faultAt?, Option.bind_eq_some_iff, Check.fault?_eq_some, Keyword.FailsAt,
    Option.mem_def]

theorem faultAt?_eq_none {i : Nat} :
    header.faultAt? i = none ↔ header.keyword.PassesAt header.fields i := by
  simp only [faultAt?, Option.bind_eq_none_iff, Check.fault?_eq_none, Keyword.PassesAt,
    Option.mem_def]

theorem firstFault?_eq_some {cause : Cause} :
    header.firstFault? = some cause ↔ header.keyword.FailsFirst header.fields cause := by
  rw [firstFault?, List.findSome?_eq_some_iff]
  simp only [faultAt?_eq_some, faultAt?_eq_none]
  constructor
  · rintro ⟨before, i, after, horder, hfails, hpass⟩
    exact ⟨before, i, after, horder, hpass, hfails⟩
  · rintro ⟨before, i, after, horder, hpass, hfails⟩
    exact ⟨before, i, after, horder, hfails, hpass⟩

theorem firstFault?_eq_none :
    header.firstFault? = none ↔ ∀ i, header.keyword.PassesAt header.fields i := by
  rw [firstFault?, List.findSome?_eq_none_iff]
  simp only [faultAt?_eq_none, Keyword.mem_order]
  constructor
  · intro h i check hc
    exact h i (List.getElem?_eq_some_iff.1 hc).1 check hc
  · exact fun h i _ => h i

theorem keyword_of_command {command : Command} (h : header.command = .ok command) :
    command.keyword = header.keyword := by
  unfold Header.command at h
  split at h
  · rename_i result hr
    subst h
    unfold build? arrow at hr
    split at hr
    all_goals
      simp only [Option.some.injEq, bind_eq_ok, pure, Except.pure, Except.ok.injEq, reduceCtorEq]
        at hr
    all_goals grind [Command.keyword]
  · cases h

theorem command_eq_error {cause : Cause} :
    header.command = .error cause ↔ header.keyword.Refuses header.fields cause := by
  by_cases hn : header.keyword.Counts header.fields.length
  · have hfirst : header.command = .error cause ↔ header.firstFault? = some cause := by
      rw [← of?_command hn]
      cases header.command <;> simp [Cause.of?]
    rw [hfirst, firstFault?_eq_some]
    constructor
    · exact .field hn
    · intro h
      cases h with
      | count ha h => exact absurd (hn _ ha) (by rw [h]; decide)
      | field _ h => exact h
  · obtain ⟨arity, ha, h⟩ : ∃ arity, header.keyword.arity? = some arity ∧
        arity.admits header.fields.length = false := by
      simpa [Keyword.Counts] using hn
    have hcommand : header.command = .error (.fieldCount arity header.fields.length) := by
      rw [command, build?_eq_none.2 hn, ha]
      rfl
    rw [hcommand]
    constructor
    · intro he
      obtain rfl := Except.error.inj he
      exact .count ha h
    · intro hr
      cases hr with
      | count ha' _ =>
        obtain rfl := Option.some.inj (ha.symm.trans ha')
        rfl
      | field hn' _ => exact absurd hn' hn

theorem exists_command :
    (∃ built, header.command = .ok built) ↔
      header.keyword.Counts header.fields.length ∧
        ∀ i, header.keyword.PassesAt header.fields i := by
  have hok : (∃ built, header.command = .ok built) ↔ Cause.of? header.command = none :=
    Cause.of?_eq_none.symm
  rw [hok, ← firstFault?_eq_none]
  constructor
  · intro h
    have hn : header.keyword.Counts header.fields.length := by
      by_contra hn
      rw [command, build?_eq_none.2 hn] at h
      cases h
    exact ⟨hn, of?_command hn ▸ h⟩
  · rintro ⟨hn, h⟩
    rw [of?_command hn, h]

end Header

namespace Line

def head (line : List Char) : List Char := line.takeWhile (· ≠ ':')

def fields (line : List Char) : List (List Char) := ((head line).splitOn ',').tail.map Text.trim

end Line

namespace Header

theorem ofLine?_eq_none {keyword : Keyword} {line : List Char} :
    ofLine? keyword line = none ↔ ':' ∉ line := by
  rw [ofLine?, Option.map_eq_none_iff]
  constructor
  · intro h hc
    obtain ⟨front, back, rfl, hf⟩ := List.eq_append_cons_of_mem hc
    rw [Text.cut?_eq_some.2 ⟨hf, rfl⟩] at h
    cases h
  · intro hc
    by_contra h
    obtain ⟨⟨front, back⟩, h⟩ := Option.ne_none_iff_exists'.1 h
    obtain ⟨-, rfl⟩ := Text.cut?_eq_some.1 h
    simp at hc

theorem exists_ofLine? (keyword : Keyword) {line : List Char} (hc : ':' ∈ line) :
    ∃ header, ofLine? keyword line = some header := by
  rw [← Option.ne_none_iff_exists', ne_eq, ofLine?_eq_none, not_not]
  exact hc

theorem ofLine?_parts {keyword : Keyword} {line : List Char} {header : Header}
    (h : ofLine? keyword line = some header) :
    ':' ∈ line ∧ header.keyword = keyword ∧ header.fields = Line.fields line := by
  obtain ⟨⟨front, back⟩, hcut, rfl⟩ := Option.map_eq_some_iff.1 h
  obtain ⟨hf, rfl⟩ := Text.cut?_eq_some.1 hcut
  have hhead : Line.head (front ++ ':' :: back) = front := by
    have hall : ∀ c ∈ front, decide (c ≠ ':') = true := fun c hc =>
      decide_eq_true fun hcolon => hf (hcolon ▸ hc)
    rw [Line.head, List.takeWhile_append_of_pos hall]
    simp
  exact ⟨by simp, rfl, by rw [Line.fields, hhead]⟩

end Header

namespace Line

variable {number : Nat} {line : List Char}

theorem head?_eq_mark : line.head? = some '#' ↔ ['#'] <+: line := by
  cases line <;> simp [eq_comm]

theorem ofChars_of_opens {keyword : Keyword} (h : keyword.Opens line) :
    ofChars number line = (Header.ofLine? keyword line).elim
      (.error ⟨number, keyword, .missingDelimiter⟩)
      fun header => (header.command.map command).mapError (Fault.mk number keyword) := by
  rw [ofChars, if_neg (head?_eq_mark.not.2 h.not_comment), Keyword.ofLine?_eq_some.2 h]
  cases hh : Header.ofLine? keyword line with
  | none => simp only [hh, Option.elim_none]
  | some header =>
    simp only [hh, Option.elim_some]
    cases header.command <;> rfl

theorem ofChars_of_no_colon {keyword : Keyword} (h : keyword.Opens line) (hc : ':' ∉ line) :
    ofChars number line = .error ⟨number, keyword, .missingDelimiter⟩ := by
  rw [ofChars_of_opens h, Header.ofLine?_eq_none.2 hc, Option.elim_none]

theorem ofChars_of_colon {keyword : Keyword} (h : keyword.Opens line) (hc : ':' ∈ line) :
    ∃ header : Header, header.keyword = keyword ∧ header.fields = fields line ∧
      ofChars number line =
        (header.command.map command).mapError (Fault.mk number keyword) := by
  obtain ⟨header, hh⟩ := Header.exists_ofLine? keyword hc
  obtain ⟨-, hkeyword, hfields⟩ := Header.ofLine?_parts hh
  exact ⟨header, hkeyword, hfields, by rw [ofChars_of_opens h, hh, Option.elim_some]⟩

theorem ofChars_of_mark (h : ['#'] <+: line) : ofChars number line = .ok .comment :=
  if_pos (head?_eq_mark.2 h)

theorem ofChars_of_no_keyword (hm : ¬ ['#'] <+: line)
    (h : ∀ keyword : Keyword, ¬ keyword.Opens line) :
    ofChars number line = .ok (.continuation (String.ofList line)) := by
  rw [ofChars, if_neg (head?_eq_mark.not.2 hm), Keyword.ofLine?_eq_none.2 h]

theorem opened (line : List Char) :
    ['#'] <+: line ∨ (¬ ['#'] <+: line ∧ ∀ keyword : Keyword, ¬ keyword.Opens line) ∨
      ∃ keyword : Keyword, keyword.Opens line := by
  by_cases hm : ['#'] <+: line
  · exact .inl hm
  · by_cases hk : ∃ keyword : Keyword, keyword.Opens line
    · exact .inr (.inr hk)
    · exact .inr (.inl ⟨hm, not_exists.1 hk⟩)

theorem ofChars_eq_error {fault : Fault} :
    ofChars number line = .error fault ↔
      fault.line = number ∧ fault.keyword.Opens line ∧
        (':' ∉ line ∧ fault.cause = .missingDelimiter ∨
          ':' ∈ line ∧ fault.keyword.Refuses (fields line) fault.cause) := by
  obtain ⟨n, keyword, cause⟩ := fault
  rcases opened line with hm | ⟨hm, hk⟩ | ⟨found, ho⟩
  · rw [ofChars_of_mark hm]
    exact iff_of_false nofun fun h => h.2.1.not_comment hm
  · rw [ofChars_of_no_keyword hm hk]
    exact iff_of_false nofun fun h => hk _ h.2.1
  by_cases hc : ':' ∈ line
  · obtain ⟨header, rfl, hfields, he⟩ := @ofChars_of_colon number line found ho hc
    have hcause : ofChars number line = .error ⟨n, keyword, cause⟩ ↔
        number = n ∧ header.keyword = keyword ∧ header.command = .error cause := by
      rw [he]
      cases header.command <;> simp [Except.map, Except.mapError]
    rw [hcause, Header.command_eq_error, hfields]
    constructor
    · rintro ⟨rfl, rfl, h⟩
      exact ⟨rfl, ho, .inr ⟨hc, h⟩⟩
    · rintro ⟨rfl, ho', h⟩
      obtain rfl := ho.unique ho'
      rcases h with ⟨hnot, -⟩ | ⟨-, h⟩
      · exact absurd hc hnot
      · exact ⟨rfl, rfl, h⟩
  · rw [ofChars_of_no_colon ho hc]
    simp only [Except.error.injEq, Fault.mk.injEq]
    constructor
    · rintro ⟨rfl, rfl, rfl⟩
      exact ⟨rfl, ho, .inl ⟨hc, rfl⟩⟩
    · rintro ⟨rfl, ho', h⟩
      rcases h with ⟨-, rfl⟩ | ⟨hcolon, -⟩
      · exact ⟨rfl, ho.unique ho', rfl⟩
      · exact absurd hcolon hc

/-- The command of a line is made of the header that its own keyword opens. -/
theorem ofChars_eq_built {built : Command} :
    ofChars number line = .ok (.command built) ↔
      built.keyword.Opens line ∧
        ∃ header, Header.ofLine? built.keyword line = some header ∧ header.command = .ok built := by
  rcases opened line with hm | ⟨hm, hk⟩ | ⟨keyword, ho⟩
  · rw [ofChars_of_mark hm]
    exact iff_of_false nofun fun h => h.1.not_comment hm
  · rw [ofChars_of_no_keyword hm hk]
    exact iff_of_false nofun fun h => hk _ h.1
  rw [ofChars_of_opens ho]
  cases hh : Header.ofLine? keyword line with
  | none =>
    rw [Option.elim_none]
    refine iff_of_false nofun ?_
    rintro ⟨ho', header, hheader, -⟩
    rw [← ho.unique ho', hh] at hheader
    cases hheader
  | some header =>
    have hbuilt : (header.command.map command).mapError (Fault.mk number keyword) =
        .ok (.command built) ↔ header.command = .ok built := by
      cases header.command <;> simp [Except.map, Except.mapError]
    rw [Option.elim_some, hbuilt]
    constructor
    · intro h
      have hkeyword : built.keyword = keyword :=
        (Header.keyword_of_command h).trans (Header.ofLine?_parts hh).2.1
      exact ⟨hkeyword ▸ ho, header, hkeyword ▸ hh, h⟩
    · rintro ⟨ho', found, hfound, h⟩
      rw [← ho.unique ho', hh] at hfound
      exact Option.some.inj hfound ▸ h

theorem ofChars_eq_built_iff {built : Command} {P : List (List Char) → Prop}
    (hP : ∀ header : Header, header.keyword = built.keyword →
      (header.command = .ok built ↔ P header.fields)) :
    ofChars number line = .ok (.command built) ↔
      built.keyword.Opens line ∧ ':' ∈ line ∧ P (fields line) := by
  rw [ofChars_eq_built]
  constructor
  · rintro ⟨ho, header, hheader, h⟩
    obtain ⟨hc, hkeyword, hfields⟩ := Header.ofLine?_parts hheader
    exact ⟨ho, hc, hfields ▸ (hP header hkeyword).1 h⟩
  · rintro ⟨ho, hc, h⟩
    obtain ⟨header, hheader⟩ := Header.exists_ofLine? built.keyword hc
    obtain ⟨-, hkeyword, hfields⟩ := Header.ofLine?_parts hheader
    exact ⟨ho, header, hheader, (hP header hkeyword).2 (hfields ▸ h)⟩

theorem ofChars_eq_command {keyword : Keyword} :
    (∃ built : Command, built.keyword = keyword ∧ ofChars number line = .ok (.command built)) ↔
      keyword.Opens line ∧ ':' ∈ line ∧ keyword.Counts (fields line).length ∧
        ∀ i, keyword.PassesAt (fields line) i := by
  simp only [ofChars_eq_built]
  constructor
  · rintro ⟨built, rfl, ho, header, hheader, h⟩
    obtain ⟨hc, hkeyword, hfields⟩ := Header.ofLine?_parts hheader
    have hpass := Header.exists_command.1 ⟨built, h⟩
    rw [hkeyword, hfields] at hpass
    exact ⟨ho, hc, hpass⟩
  · rintro ⟨ho, hc, hpass⟩
    obtain ⟨header, hheader⟩ := Header.exists_ofLine? keyword hc
    obtain ⟨-, rfl, hfields⟩ := Header.ofLine?_parts hheader
    rw [← hfields] at hpass
    obtain ⟨built, h⟩ := Header.exists_command.2 hpass
    have hkeyword := Header.keyword_of_command h
    exact ⟨built, hkeyword, hkeyword ▸ ho, header, hkeyword ▸ hheader, h⟩

theorem ofChars_of_keyword {keyword : Keyword} (h : keyword.Opens line) :
    (∃ fault, ofChars number line = .error fault) ∨
      ∃ built, ofChars number line = .ok (.command built) := by
  by_cases hc : ':' ∈ line
  · obtain ⟨header, -, -, he⟩ := @ofChars_of_colon number line keyword h hc
    rw [he]
    cases header.command with
    | error cause => exact .inl ⟨_, rfl⟩
    | ok built => exact .inr ⟨built, rfl⟩
  · exact .inl ⟨_, ofChars_of_no_colon h hc⟩

theorem ofChars_eq_comment : ofChars number line = .ok .comment ↔ ['#'] <+: line := by
  refine ⟨fun h => ?_, ofChars_of_mark⟩
  rcases opened line with hm | ⟨hm, hk⟩ | ⟨found, ho⟩
  · exact hm
  · cases h.symm.trans (ofChars_of_no_keyword hm hk)
  · rcases ofChars_of_keyword ho with ⟨_, hr⟩ | ⟨_, hr⟩ <;> cases h.symm.trans hr

theorem ofChars_eq_continuation {text : String} :
    ofChars number line = .ok (.continuation text) ↔
      ¬ ['#'] <+: line ∧ (∀ keyword : Keyword, ¬ keyword.Opens line) ∧
        text = String.ofList line := by
  constructor
  · intro h
    rcases opened line with hm | ⟨hm, hk⟩ | ⟨found, ho⟩
    · cases h.symm.trans (ofChars_of_mark hm)
    · have he := h.symm.trans (ofChars_of_no_keyword hm hk)
      exact ⟨hm, hk, Line.continuation.inj (Except.ok.inj he)⟩
    · rcases ofChars_of_keyword ho with ⟨_, hr⟩ | ⟨_, hr⟩ <;> cases h.symm.trans hr
  · rintro ⟨hm, hk, rfl⟩
    exact ofChars_of_no_keyword hm hk

theorem ofChars_eq_refusal {keyword : Keyword} {cause : Cause} (hc : cause ≠ .missingDelimiter) :
    ofChars number line = .error ⟨number, keyword, cause⟩ ↔
      keyword.Opens line ∧ ':' ∈ line ∧ keyword.Refuses (fields line) cause := by
  rw [ofChars_eq_error]
  simp [hc]

/-- What is read from a line is what the line is, told by its text alone. -/
structure Sorted (number : Nat) (line : List Char) (result : Except Fault Line) : Prop where
  comment : result = .ok .comment ↔ ['#'] <+: line
  continuation : ∀ text, result = .ok (.continuation text) ↔
    ¬ ['#'] <+: line ∧ (∀ keyword : Keyword, ¬ keyword.Opens line) ∧ text = String.ofList line
  /-- A command is read just if all its fields pass. -/
  command : ∀ keyword : Keyword,
    (∃ built : Command, built.keyword = keyword ∧ result = .ok (.command built)) ↔
      keyword.Opens line ∧ ':' ∈ line ∧ keyword.Counts (fields line).length ∧
        ∀ i, keyword.PassesAt (fields line) i
  missingDelimiter : ∀ keyword : Keyword,
    result = .error ⟨number, keyword, .missingDelimiter⟩ ↔ keyword.Opens line ∧ ':' ∉ line
  fieldCount : ∀ (keyword : Keyword) (arity : Arity) (got : Nat),
    result = .error ⟨number, keyword, .fieldCount arity got⟩ ↔
      keyword.Opens line ∧ ':' ∈ line ∧ keyword.arity? = some arity ∧
        got = (fields line).length ∧ arity.admits got = false
  zeroLength : ∀ keyword : Keyword,
    result = .error ⟨number, keyword, .zeroLength⟩ ↔
      keyword.Opens line ∧ ':' ∈ line ∧ (keyword = .arrow ∨ keyword = .branchArrow) ∧
        ∃ x y direction length, fields line = [x, y, direction, length] ∧ Text.Signed length 0
  /-- Any other fault is that of the first field that does not pass, and bears its text. -/
  field : ∀ (keyword : Keyword) (cause : Cause), cause.OfField →
    (result = .error ⟨number, keyword, cause⟩ ↔
      keyword.Opens line ∧ ':' ∈ line ∧ keyword.Counts (fields line).length ∧
        keyword.FailsFirst (fields line) cause)
  number : ∀ fault, result = .error fault → fault.line = number

theorem sorted_ofChars (number : Nat) (line : List Char) :
    Sorted number line (ofChars number line) where
  comment := ofChars_eq_comment
  continuation _ := ofChars_eq_continuation
  command _ := ofChars_eq_command
  missingDelimiter keyword := by
    have hr : ¬ keyword.Refuses (fields line) .missingDelimiter := fun h => by
      cases h with | field _ h => exact h.ofField
    rw [ofChars_eq_error]
    simp [hr]
  fieldCount keyword arity got := by
    have hne : Cause.fieldCount arity got ≠ .missingDelimiter := nofun
    rw [ofChars_eq_refusal hne, Keyword.refuses_count]
  zeroLength keyword := by
    have hne : Cause.zeroLength ≠ .missingDelimiter := nofun
    rw [ofChars_eq_refusal hne, Keyword.refuses_zeroLength]
  field keyword cause hc := by
    have hne : cause ≠ .missingDelimiter := by
      rintro rfl
      exact hc
    rw [ofChars_eq_refusal hne, Keyword.refuses_field hc]
  number _ h := (ofChars_eq_error.1 h).1

/-- Every line is sorted by its text without the carriage return at its end. No second keyword opens
it, so the table of the keywords may stand in any order, and of the fields none is looked for that is
not there, if it may not be left out. -/
theorem parse_sorted (number : Nat) (raw : String) :
    Sorted number (Text.dropReturn raw.toList) (parse number raw) ∧
      (∀ keyword other : Keyword, keyword.Opens (Text.dropReturn raw.toList) →
        other.Opens (Text.dropReturn raw.toList) → keyword = other) ∧
      (∀ table : List Keyword, table.Perm Keyword.all →
        (table.find? fun k => k.opening.isPrefixOf (Text.dropReturn raw.toList)) =
          Keyword.ofLine? (Text.dropReturn raw.toList)) ∧
      ∀ keyword : Keyword, keyword.Counts (fields (Text.dropReturn raw.toList)).length →
        ∀ i ∈ keyword.order, i < (fields (Text.dropReturn raw.toList)).length ∨
          keyword.checks[i]? = some .slotOrNone :=
  ⟨sorted_ofChars number _, fun _ _ => Keyword.Opens.unique, fun _ ht => Keyword.find?_perm ht _,
    fun _ hn _ => Keyword.lt_of_mem_order hn⟩

theorem arrow_nowhere_sorted :
    parse 3 "arrow,x,1,r, -0 : a\r" = .error ⟨3, .arrow, .zeroLength⟩ := by
  have hzero : Text.Signed ['-', '0'] 0 := Text.signed?_eq_some.1 (by decide)
  have hsorted := (parse_sorted 3 "arrow,x,1,r, -0 : a\r").1
  exact (hsorted.zeroLength .arrow).2
    ⟨⟨_, rfl⟩, by decide, .inl rfl, ['x'], ['1'], ['r'], ['-', '0'], by decide, hzero⟩

end Line

end TileDeck.Markup
