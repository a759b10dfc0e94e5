import TileDeck.Proofs.Markup.Numbering
import TileDeck.Proofs.Markup.Printing

set_option autoImplicit false

namespace TileDeck

namespace Text

theorem length_dropReturn_le (s : List Char) : (dropReturn s).length ≤ s.length := by
  unfold dropReturn
  split
  · rw [List.length_dropLast]
    omega
  · exact Nat.le_refl _

theorem length_dropSpace_le (s : List Char) : (dropSpace s).length ≤ s.length := by
  unfold dropSpace
  split
  · exact Nat.le_succ _
  · exact Nat.le_refl _

theorem length_trim_le (s : List Char) : (trim s).length ≤ s.length :=
  Nat.le_trans (trimEnd_isPrefix _).length_le (List.dropWhile_suffix isBlank).length_le

end Text

namespace Markup

/-- The text that a command draws, or the name of its image. -/
def Command.content? : Command → Option String
  | .title content => some content
  | .text _ _ _ content => some content
  | .code _ _ content => some content
  | .image _ _ name => some name
  | _ => none

theorem Header.length_le {keyword : Keyword} {line : List Char} {header : Header}
    (h : ofLine? keyword line = some header) :
    header.payload.length ≤ line.length ∧ ∀ field ∈ header.fields, field.length ≤ line.length := by
  obtain ⟨⟨head, payload⟩, hcut, rfl⟩ := Option.map_eq_some_iff.1 h
  obtain ⟨_, hline⟩ := Text.cut?_eq_some.1 hcut
  have hlength : head.length + payload.length + 1 = line.length := by
    rw [hline, List.length_append, List.length_cons, Nat.add_assoc]
  constructor
  · have hp := Text.length_dropSpace_le payload
    dsimp only
    omega
  · intro field hf
    obtain ⟨piece, hpiece, rfl⟩ := List.mem_map.1 hf
    have ht := Text.length_trim_le piece
    have hs := Text.length_le_of_mem_splitOn (List.mem_of_mem_tail hpiece)
    omega

theorem content_of_build? {payload : String} {keyword : Keyword} {fields : List (List Char)}
    {command : Command} (h : Header.build? payload keyword fields = some (.ok command))
    {content : String} (hc : content ∈ command.content?) :
    content = payload ∨ content.toList ∈ fields := by
  unfold Header.build? Header.arrow at h
  split at h
  -- four keywords draw a text; whatever the fields read as, the others draw none
  all_goals
    simp only [Option.some.injEq, bind_eq_ok, pure, Except.pure, Except.ok.injEq, reduceCtorEq] at h
  all_goals grind [Command.content?, String.toList_ofList]

theorem length_content_le {number : Nat} {line : String} {command : Command}
    (h : Line.parse number line = .ok (.command command)) {content : String}
    (hc : content ∈ command.content?) : content.length ≤ line.length := by
  obtain ⟨_, header, hheader, hbuild⟩ := Command.header_of_parse h
  obtain ⟨hp, hf⟩ := Header.length_le hheader
  have hline := Text.length_dropReturn_le line.toList
  rw [← String.length_toList, ← String.length_toList]
  rcases content_of_build? hbuild hc with rfl | hmem
  · rw [String.toList_ofList]
    omega
  · have := hf _ hmem
    omega

theorem length_continuation_le {number : Nat} {line text : String}
    (h : Line.parse number line = .ok (.continuation text)) : text.length ≤ line.length := by
  rw [← String.length_toList, ← String.length_toList, Line.text_of_continuation h]
  exact Text.length_dropReturn_le line.toList

end Markup

end TileDeck
