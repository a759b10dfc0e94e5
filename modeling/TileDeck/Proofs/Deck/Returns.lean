import Mathlib.Data.List.TakeWhile
import TileDeck.Deck
import TileDeck.Proofs.Run.Lockstep
import TileDeck.Proofs.Text.Returns
import TileDeck.Recorder

set_option autoImplicit false

/-!
# Decks with carriage returns

A carriage return at the end of a line makes an empty line one that is not, so a page may keep lines
at its top that it would have lost. They are empty to a reader, and before the first command nobody
reads them: a deck is shown in the same way whether its lines end in carriage returns or not.
-/
namespace TileDeck

open Markup

namespace Deck

/-- The lines of a text as they are read, without the empty ones at the top. -/
def reading (text : List Char) : List (List Char) :=
  ((Text.lines text).map Text.dropReturn).dropWhile (· = [])

theorem isSeparator_dropReturn (line : List Char) :
    isSeparator (Text.dropReturn line) = isSeparator line := by
  unfold isSeparator
  rw [Text.trimEnd_dropReturn]

theorem lines_extend {text line : List Char} (ht : text ≠ []) (hl : '\n' ∉ line) :
    Text.lines (extend text line) = Text.lines text ++ [line] := by
  rw [extend, if_neg ht]
  unfold Text.lines
  rw [List.splitOn_append_cons_self, List.splitOn_eq_singleton hl]

theorem reading_extend {line : List Char} (hl : '\n' ∉ line) (text : List Char) :
    reading (extend text line) =
      ((Text.lines text).map Text.dropReturn ++ [Text.dropReturn line]).dropWhile (· = []) := by
  by_cases ht : text = []
  · subst ht
    have hline : Text.lines line = [line] := List.splitOn_eq_singleton hl
    change ((Text.lines line).map Text.dropReturn).dropWhile (· = []) = _
    rw [hline]
    rfl
  · rw [reading, lines_extend ht hl, List.map_append, List.map_singleton]

theorem reading_extend_congr {text text' line line' : List Char}
    (h : reading text = reading text') (hl : Text.dropReturn line = Text.dropReturn line')
    (hn : '\n' ∉ line) (hn' : '\n' ∉ line') :
    reading (extend text line) = reading (extend text' line') := by
  rw [reading_extend hn, reading_extend hn', List.dropWhile_append, List.dropWhile_append, hl]
  change (if (reading text).isEmpty then _ else reading text ++ _) =
    if (reading text').isEmpty then _ else reading text' ++ _
  rw [h]

theorem all_dropWhile_nil (ls : List (List Char)) :
    (ls.dropWhile (· = [])).all (·.all Text.isBlank) = ls.all (·.all Text.isBlank) := by
  induction ls with
  | nil => rfl
  | cons line ls ih =>
    rw [List.dropWhile_cons]
    split
    · rename_i hl
      have hnil : line = [] := by simpa using hl
      rw [ih, hnil]
      rfl
    · rfl

theorem blank_reading (text : List Char) :
    (reading text).all (·.all Text.isBlank) = text.all Text.isBlank := by
  rw [reading, all_dropWhile_nil, List.all_map, ← Text.blank_lines]
  congr 1
  funext line
  exact Text.blank_dropReturn line

theorem reading_divide {lines lines' : List (List Char)} {text text' : List Char}
    (h : reading text = reading text')
    (hl : List.Forall₂ (fun line line' => Text.dropReturn line = Text.dropReturn line') lines lines')
    (hn : ∀ line ∈ lines, '\n' ∉ line) (hn' : ∀ line ∈ lines', '\n' ∉ line) :
    List.Forall₂ (fun text text' => reading text = reading text') (divide text lines)
      (divide text' lines') := by
  induction hl generalizing text text' with
  | nil =>
    unfold divide
    rw [← blank_reading text, ← blank_reading text', h]
    split
    · exact .nil
    · exact .cons h .nil
  | @cons line line' lines lines' hline _ ih =>
    rw [List.forall_mem_cons] at hn hn'
    have hs : isSeparator line = isSeparator line' := by
      rw [← isSeparator_dropReturn line, hline, isSeparator_dropReturn]
    unfold divide
    rw [hs]
    split
    · exact .cons h (ih rfl hn.2 hn'.2)
    · exact ih (reading_extend_congr h hline hn.1 hn'.1) hn.2 hn'.2

theorem parse_dropReturn {line line' : List Char} (h : Text.dropReturn line = Text.dropReturn line')
    (n : Nat) : Line.parse n (String.ofList line) = Line.parse n (String.ofList line') := by
  unfold Line.parse
  rw [String.toList_ofList, String.toList_ofList, h]

theorem forall₂_dropReturn {lines lines' : List (List Char)} :
    List.Forall₂ (fun line line' => Text.dropReturn line = Text.dropReturn line') lines lines' ↔
      lines.map Text.dropReturn = lines'.map Text.dropReturn := by
  have he := congrFun (congrFun (List.forall₂_eq_eq_eq (α := List Char))
    (lines.map Text.dropReturn)) (lines'.map Text.dropReturn)
  rw [← he, List.forall₂_map_left_iff, List.forall₂_map_right_iff]

theorem continuation?_empty {line : List Char} (h : Text.dropReturn line = []) :
    (Line.continuation? (String.ofList line)).isSome := by
  have he : Text.dropReturn line = Text.dropReturn [] := h
  have hp : Line.parse 0 (String.ofList line) = .ok (.continuation "") := parse_dropReturn he 0
  rw [Line.continuation?_eq_some.2 hp]
  rfl

theorem scriptLines_split (text : List Char) :
    ∃ top rest : List (List Char),
      Page.scriptLines (String.ofList text) = top.map String.ofList ++ rest.map String.ofList ∧
      (∀ line ∈ top, Text.dropReturn line = []) ∧ rest.map Text.dropReturn = reading text := by
  refine ⟨(Text.lines text).takeWhile (Text.dropReturn · = []),
    (Text.lines text).dropWhile (Text.dropReturn · = []), ?_, fun line hl => ?_, ?_⟩
  · rw [Page.scriptLines, String.toList_ofList, ← List.map_append, List.takeWhile_append_dropWhile]
  · simpa using List.mem_takeWhile_imp hl
  · rw [reading, List.dropWhile_map]
    rfl

theorem sameLines_of_reading {text text' : List Char} (h : reading text = reading text') :
    Page.SameLines (String.ofList text) (String.ofList text') := by
  obtain ⟨top, rest, hl, htop, hrest⟩ := scriptLines_split text
  obtain ⟨top', rest', hl', htop', hrest'⟩ := scriptLines_split text'
  refine ⟨_, _, _, _, hl, hl', ?_, ?_, ?_⟩
  · rw [List.forall_mem_map]
    exact fun line hline => continuation?_empty (htop line hline)
  · rw [List.forall_mem_map]
    exact fun line hline => continuation?_empty (htop' line hline)
  · rw [List.forall₂_map_left_iff, List.forall₂_map_right_iff]
    have hr := forall₂_dropReturn.2 (hrest.trans (h.trans hrest'.symm))
    exact hr.imp fun _ _ hline n => parse_dropReturn hline n

theorem samePages_of_lines {source source' : String}
    (h : (Text.lines source.toList).map Text.dropReturn =
      (Text.lines source'.toList).map Text.dropReturn) :
    (parse source).SamePages (parse source') := by
  have hempty : reading [] = reading [] := rfl
  have hd := reading_divide hempty (forall₂_dropReturn.2 h)
    (fun _ => Text.newline_notMem) (fun _ => Text.newline_notMem)
  unfold SamePages parse
  rw [List.forall₂_map_left_iff, List.forall₂_map_right_iff]
  exact hd.imp fun _ _ ht => sameLines_of_reading ht

/-- A deck whose lines end in carriage returns is shown like the one whose lines do not. -/
theorem run_withReturns {σ : Type} [Surface σ] {source : String} (h : '\r' ∉ source.toList)
    (options : Options) (script : List Buttons) (surface : σ) :
    let plain := parse source
    let returned := parse (String.ofList (Text.withReturns source.toList))
    let shown := Presentation.run plain options (.ofScript script) surface
    let shown' := Presentation.run returned options (.ofScript script) surface
    returned.size = plain.size ∧ shown'.surface = shown.surface ∧
      shown'.position = shown.position ∧
      shown'.faults.map Fault.unnumbered = shown.faults.map Fault.unnumbered := by
  intro plain returned shown shown'
  have hp : plain.SamePages returned := by
    refine samePages_of_lines ?_
    rw [Text.dropReturn_lines h, String.toList_ofList, Text.dropReturn_lines_withReturns h]
  have ha : Stage.Alike (fun r s r' s' => r = r' ∧ s = s') shown shown' :=
    Presentation.alike_run lockstep_eq hp options ⟨rfl, rfl⟩
  exact ⟨(List.Forall₂.length_eq hp).symm, ha.joined.2.symm, ha.position.symm, ha.faults.symm⟩

def gapped : String := "\n---\n\ntxt,1,2: a\n\nrect,1:\nb"

theorem gapped_withReturns :
    '\r' ∉ gapped.toList ∧
    parse (String.ofList (Text.withReturns gapped.toList)) ≠ parse gapped ∧
    (Presentation.run (parse (String.ofList (Text.withReturns gapped.toList))) .standard
        (.ofScript [.released]) Recorder.fresh).surface =
      (Presentation.run (parse gapped) .standard (.ofScript [.released]) Recorder.fresh).surface := by
  have h : '\r' ∉ gapped.toList := by decide
  exact ⟨h, by decide, (run_withReturns h .standard [.released] Recorder.fresh).2.1⟩

end Deck

end TileDeck
