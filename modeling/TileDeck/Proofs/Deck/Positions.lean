import TileDeck.Proofs.Deck.Sections
import TileDeck.Proofs.Page.Reach
import TileDeck.Recorder

set_option autoImplicit false

namespace TileDeck.Deck

open Markup

variable {σ : Type} [Surface σ]

/-- Among some lines the one with a number, counted from one, has a fault. -/
def Faulty (lines : List (List Char)) (number : Nat) (fault : Fault) : Prop :=
  0 < number ∧ ∃ line, lines[number - 1]? = some line ∧
    Line.parse fault.line (String.ofList line) = .error fault

theorem Faulty.renumber {lines : List (List Char)} {number : Nat} {fault : Fault}
    (h : Faulty lines number fault) (n : Nat) : Faulty lines number { fault with line := n } := by
  obtain ⟨hn, line, hl, hp⟩ := h
  refine ⟨hn, line, hl, ?_⟩
  rw [Line.parse_number fault.line, hp]
  rfl

theorem Faulty.le_length {lines : List (List Char)} {number : Nat} {fault : Fault}
    (h : Faulty lines number fault) : number ≤ lines.length := by
  obtain ⟨hn, line, hl, _⟩ := h
  have hlt := (List.getElem?_eq_some_iff.1 hl).1
  omega

theorem parse_empty (n : Nat) (fault : Fault) : Line.parse n "" ≠ .error fault := by
  intro h
  have ho : Line.parse n "" = .ok (.continuation "") := rfl
  rw [ho] at h
  contradiction

theorem Faulty.lead_lt {body : List (List Char)} {number : Nat} {fault : Fault}
    (h : Faulty body number fault) : lead body < number := by
  obtain ⟨hn, line, hl, hp⟩ := h
  refine Nat.lt_of_not_le fun hle => ?_
  -- the lines above are empty, and an empty line has no fault
  obtain ⟨hlt, rfl⟩ := List.getElem?_eq_some_iff.1 hl
  have hempty : body[number - 1] = [] := by
    have hnot := List.not_of_lt_findIdx (show number - 1 < body.findIdx (· ≠ []) by
      unfold lead at hle
      omega)
    simpa using hnot
  rw [hempty] at hp
  exact parse_empty _ _ hp

theorem Section.faulty {lines before body after : List (List Char)} {index : Nat}
    (h : Section lines index before body after) {number : Nat} (hn : 0 < number)
    (hb : number ≤ body.length) (fault : Fault) :
    Faulty lines (before.length + number) fault ↔ Faulty body number fault := by
  have hget : lines[before.length + number - 1]? = body[number - 1]? := by
    rw [h.lines_eq, List.append_assoc, List.getElem?_append_right (by omega),
      List.getElem?_append_left (by omega)]
    congr 1
    omega
  unfold Faulty
  rw [hget]
  constructor
  · exact fun ⟨_, hp⟩ => ⟨hn, hp⟩
  · exact fun ⟨_, hp⟩ => ⟨Nat.add_pos_right _ hn, hp⟩

theorem Section.faulty_scriptLines {source : String} {index : Nat}
    {before body after : List (List Char)}
    (h : Section (Text.lines source.toList) index before body after) {fault : Fault}
    (hn : 0 < fault.line) :
    (∃ line, (Page.scriptLines (String.ofList (body.foldl extend [])))[fault.line - 1]? =
        some line ∧ Line.parse fault.line line = .error fault) ↔
      Faulty body (lead body + fault.line) fault := by
  have hi : lead body + fault.line - 1 = lead body + (fault.line - 1) := by omega
  unfold Faulty
  rw [hi, ← List.getElem?_drop]
  by_cases hb : body.drop (lead body) = []
  · -- the text is empty, and its one line has no fault
    rw [foldl_extend_nil, hb]
    constructor
    · rintro ⟨line, hl, hp⟩
      obtain rfl : line = "" := by
        change [""][fault.line - 1]? = some line at hl
        exact List.mem_singleton.1 (List.mem_of_getElem? hl)
      exact absurd hp (parse_empty _ _)
    · rintro ⟨_, line, hl, _⟩
      simp at hl
  · rw [h.scriptLines hb, List.getElem?_map]
    constructor
    · rintro ⟨_, ho, hp⟩
      obtain ⟨line, hl, rfl⟩ := Option.map_eq_some_iff.1 ho
      exact ⟨Nat.add_pos_right _ hn, line, hl, hp⟩
    · rintro ⟨_, line, hl, hp⟩
      exact ⟨String.ofList line, Option.map_eq_some_iff.2 ⟨line, hl, rfl⟩, hp⟩

/-- The faults of a page are those of the lines of its section that are carried out, numbered
without the empty lines at the top. -/
theorem Section.mem_faults {source : String} {index : Nat} {before body after : List (List Char)}
    (h : Section (Text.lines source.toList) index before body after) (options : Options)
    (stage : Stage σ) (fault : Fault) :
    let text := String.ofList (body.foldl extend [])
    fault ∈ (Page.showPage options text stage).2.faults ↔
      0 < fault.line ∧
        fault.line ≤ Page.reach options 1 (Page.opened stage) (Page.scriptLines text) ∧
        Faulty body (lead body + fault.line) fault := by
  intro text
  rw [Page.mem_faults_showPage]
  exact and_congr_right fun hn => and_congr_right fun _ => h.faulty_scriptLines hn

/-- Where the numbers of all faults count from the begin of the page in the source, there is no
fault or no empty line at the top. -/
theorem no_faults {body : List (List Char)} {faults : List Fault} {reached : Nat}
    (h : ∀ fault, fault ∈ faults ↔
      0 < fault.line ∧ fault.line ≤ reached ∧ Faulty body (lead body + fault.line) fault)
    (hl : lead body ≠ 0) (hf : ∀ fault ∈ faults, Faulty body fault.line fault) : faults = [] := by
  have hnone : ∀ n fault, fault ∈ faults → fault.line ≠ n := by
    intro n
    induction n using Nat.strongRecOn with
    | ind n ih =>
      rintro fault hm rfl
      have hlead := (hf fault hm).lead_lt
      have hle := ((h fault).1 hm).2.1
      -- the line that the number names is a line of the page too, and has a smaller number there
      refine ih (fault.line - lead body) (by omega) { fault with line := fault.line - lead body }
        ((h _).2 ⟨?_, ?_, ?_⟩) rfl
      · exact Nat.sub_pos_of_lt hlead
      · exact Nat.le_trans (Nat.sub_le _ _) hle
      · change Faulty body (lead body + (fault.line - lead body)) _
        rw [Nat.add_sub_cancel' (Nat.le_of_lt hlead)]
        exact (hf fault hm).renumber _
  exact List.eq_nil_iff_forall_not_mem.2 fun fault hm => hnone fault.line fault hm rfl

/-- The fault of a page tells the place of its line in the source once the empty lines at the top of
the page are added; it tells the place as it is if there are none, or no fault. -/
theorem faults_located {source : String} {index : Nat} {page : Page}
    (h : (parse source).page? index = some page) (options : Options) (stage : Stage σ) :
    ∃ before body after, Section (Text.lines source.toList) index before body after ∧
      (∀ fault ∈ (Page.showPage options page.text stage).2.faults,
        0 < fault.line ∧ lead body + fault.line ≤ body.length ∧
          Faulty (Text.lines source.toList) (before.length + (lead body + fault.line)) fault) ∧
      ((∀ fault ∈ (Page.showPage options page.text stage).2.faults,
          Faulty (Text.lines source.toList) (before.length + fault.line) fault) ↔
        (Page.showPage options page.text stage).2.faults = [] ∨ lead body = 0) := by
  obtain ⟨before, body, after, hs, ht⟩ := section_of_page? h
  rw [ht]
  have hm := hs.mem_faults options stage
  refine ⟨before, body, after, hs, fun fault hf => ?_, fun hf => ?_, ?_⟩
  · obtain ⟨hn, _, hfault⟩ := (hm fault).1 hf
    have hle := hfault.le_length
    exact ⟨hn, hle, (hs.faulty hfault.1 hle fault).2 hfault⟩
  · by_cases hl : lead body = 0
    · exact .inr hl
    · refine .inl (no_faults hm hl fun fault hfault => ?_)
      obtain ⟨hn, _, hb⟩ := (hm fault).1 hfault
      exact (hs.faulty hn (by have := hb.le_length; omega) fault).1 (hf fault hfault)
  · rintro (hnone | hl) fault hf
    · rw [hnone] at hf
      simp at hf
    · obtain ⟨hn, _, hfault⟩ := (hm fault).1 hf
      rw [hl, Nat.zero_add] at hfault
      exact (hs.faulty hn hfault.le_length fault).2 hfault

def lowered : String := "\ntxt,1: a"

def bare : Stage Recorder := .ready .standard 1 (.ofScript []) .fresh

def loweredFault : Fault := ⟨1, .text, .fieldCount ⟨2, 3⟩ 1⟩

theorem faults_lowered :
    (Page.showPage .standard "txt,1: a" bare).2.faults = [loweredFault] := rfl

theorem lowered_located :
    ∃ before body after, Section (Text.lines lowered.toList) 0 before body after ∧
      Faulty (Text.lines lowered.toList) (before.length + (lead body + 1)) loweredFault := by
  have hp : (parse lowered).page? 0 = some ⟨"txt,1: a"⟩ := rfl
  obtain ⟨before, body, after, hs, hf, _⟩ := faults_located hp .standard bare
  have hm : loweredFault ∈ (Page.showPage .standard "txt,1: a" bare).2.faults := by
    rw [faults_lowered]
    exact List.mem_singleton_self _
  exact ⟨before, body, after, hs, (hf loweredFault hm).2.2⟩

theorem not_faulty_line :
    ¬ ∀ (source : String) (index : Nat) (page : Page) (before body after : List (List Char))
      (options : Options) (stage : Stage Recorder), (parse source).page? index = some page →
      Section (Text.lines source.toList) index before body after →
      ∀ fault ∈ (Page.showPage options page.text stage).2.faults,
        Faulty (Text.lines source.toList) (before.length + fault.line) fault := by
  intro h
  have hs : Section (Text.lines lowered.toList) 0 [] [[], "txt,1: a".toList] [] :=
    ⟨rfl, opens_nil, by decide, by simp⟩
  obtain ⟨_, line, hl, hp⟩ := h lowered 0 ⟨"txt,1: a"⟩ [] _ [] .standard bare rfl hs loweredFault
    (by rw [faults_lowered]; exact List.mem_singleton_self _)
  obtain rfl : [] = line := Option.some.inj hl
  exact parse_empty _ _ hp

end TileDeck.Deck
