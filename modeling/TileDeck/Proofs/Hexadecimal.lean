import TileDeck.Config
import TileDeck.Proofs.Markup.Sorting

set_option autoImplicit false

/-!
# Hexadecimal in decks and configurations

The slot of a backdrop, the colour of a slot in a deck and that in a configuration are written in
hexadecimal. What is read is what is documented and a little more: the number of a slot may have a plus
sign, and a colour more than one mark.
-/
namespace TileDeck

namespace Text

/-- The number of a slot as it is documented: a mark or none, and digits. -/
def PlainHexadecimal (s : List Char) (n : Nat) : Prop :=
  ∃ mark ∈ hexMarks, ∃ digits, s = mark ++ digits ∧ Numeral 16 digits n

theorem plain_iff_noPlus {s : List Char} {n : Nat} :
    PlainHexadecimal s n ↔ Hexadecimal s n ∧ '+' ∉ s := by
  have hplus : digit? '+' = none := by decide
  have hmarks : ∀ mark ∈ hexMarks, '+' ∉ mark := by decide
  constructor
  · rintro ⟨mark, hm, digits, rfl, h⟩
    refine ⟨⟨mark, hm, digits, rfl, .inl h⟩, ?_⟩
    rw [List.mem_append, not_or]
    exact ⟨hmarks mark hm, h.notMem (Nat.le_refl 16) hplus⟩
  · rintro ⟨⟨mark, hm, number, rfl, h⟩, hnot⟩
    rcases h with h | ⟨digits, rfl, -⟩
    · exact ⟨mark, hm, number, rfl, h⟩
    · simp at hnot

end Text

namespace Rgb

/-- A colour as it is documented: one mark or none, and digits. -/
def PlainMarked (s : List Char) (colour : Rgb) : Prop :=
  Written s colour ∨ ∃ digits, s = '#' :: digits ∧ Written digits colour

theorem plain_iff_oneMark {s : List Char} {colour : Rgb} :
    PlainMarked s colour ↔ Marked s colour ∧ s.count '#' ≤ 1 := by
  have hcount : ∀ {digits}, Written digits colour → digits.count '#' = 0 := fun h =>
    List.count_eq_zero.2 (h.notMem (by decide))
  constructor
  · rintro (h | ⟨digits, rfl, h⟩)
    · exact ⟨⟨0, s, rfl, h⟩, by rw [hcount h]; exact Nat.zero_le 1⟩
    · exact ⟨⟨1, digits, rfl, h⟩, by rw [List.count_cons_self, hcount h]⟩
  · rintro ⟨⟨marks, digits, rfl, h⟩, hone⟩
    rw [List.count_append, hcount h, List.count_replicate_self] at hone
    rcases Nat.le_one_iff_eq_zero_or_eq_one.1 hone with rfl | rfl
    · exact .inl h
    · exact .inr ⟨digits, rfl, h⟩

end Rgb

namespace Markup

variable {id : PaletteId} {colour : Rgb}

theorem Header.command_eq_backdrop {header : Header} (hk : header.keyword = .backdrop) :
    header.command = .ok (.backdrop id) ↔
      ∃ field, header.fields = [field] ∧ Text.Hexadecimal field id.toNat := by
  obtain ⟨keyword, fields, payload⟩ := header
  obtain rfl : keyword = .backdrop := hk
  simp only [← Text.hexByte?_eq_some]
  rcases fields with _ | ⟨field, _ | ⟨other, rest⟩⟩
  · simp [command, build?]
  · simp [command, build?, bind_eq_ok, pure, Except.pure, Field.hexByte, Field.orFault_eq_ok]
  · simp [command, build?]

theorem Header.command_eq_setColour {header : Header} (hk : header.keyword = .setColour) :
    header.command = .ok (.setColour id colour) ↔
      ∃ slot field, header.fields = [slot, field] ∧ Text.Unsigned 10 slot id.toNat ∧
        Rgb.Marked field colour := by
  obtain ⟨keyword, fields, payload⟩ := header
  obtain rfl : keyword = .setColour := hk
  simp only [← Text.byte?_eq_some (show 10 ≤ 16 by decide), ← Rgb.ofMarked?_eq_some]
  rcases fields with _ | ⟨slot, _ | ⟨field, _ | ⟨other, rest⟩⟩⟩
  · simp [command, build?]
  · simp [command, build?]
  · simp [command, build?, bind_eq_ok, pure, Except.pure, Field.byte, Field.colour,
      Field.orFault_eq_ok, and_comm]
  · simp [command, build?]

namespace Line

variable {number : Nat} {line : List Char}

/-- The line chooses a backdrop, its slot being written as `Slot` says. -/
def ChoosesBackdrop (Slot : List Char → Nat → Prop) (line : List Char) (id : PaletteId) : Prop :=
  Keyword.backdrop.Opens line ∧ ':' ∈ line ∧ ∃ field, fields line = [field] ∧ Slot field id.toNat

/-- The line sets the colour of a slot, the colour being written as `Colour` says. -/
def SetsColour (Colour : List Char → Rgb → Prop) (line : List Char) (id : PaletteId)
    (colour : Rgb) : Prop :=
  Keyword.setColour.Opens line ∧ ':' ∈ line ∧
    ∃ slot field, fields line = [slot, field] ∧ Text.Unsigned 10 slot id.toNat ∧
      Colour field colour

theorem ofChars_eq_backdrop :
    ofChars number line = .ok (.command (.backdrop id)) ↔
      ChoosesBackdrop Text.Hexadecimal line id :=
  ofChars_eq_built_iff (P := fun fs => ∃ field, fs = [field] ∧ Text.Hexadecimal field id.toNat)
    fun _ hk => Header.command_eq_backdrop hk

theorem ofChars_eq_setColour :
    ofChars number line = .ok (.command (.setColour id colour)) ↔
      SetsColour Rgb.Marked line id colour :=
  ofChars_eq_built_iff (P := fun fs => ∃ slot field, fs = [slot, field] ∧
      Text.Unsigned 10 slot id.toNat ∧ Rgb.Marked field colour)
    fun _ hk => Header.command_eq_setColour hk

theorem choosesBackdrop_plain :
    ChoosesBackdrop Text.PlainHexadecimal line id ↔
      ChoosesBackdrop Text.Hexadecimal line id ∧
        ∀ field, fields line = [field] → '+' ∉ field := by
  constructor
  · rintro ⟨ho, hc, field, hf, h⟩
    obtain ⟨hread, hplus⟩ := Text.plain_iff_noPlus.1 h
    refine ⟨⟨ho, hc, field, hf, hread⟩, fun other hother => ?_⟩
    rwa [← List.singleton_inj.1 (hf.symm.trans hother)]
  · rintro ⟨⟨ho, hc, field, hf, h⟩, hplus⟩
    exact ⟨ho, hc, field, hf, Text.plain_iff_noPlus.2 ⟨h, hplus field hf⟩⟩

theorem setsColour_plain :
    SetsColour Rgb.PlainMarked line id colour ↔
      SetsColour Rgb.Marked line id colour ∧
        ∀ slot field, fields line = [slot, field] → field.count '#' ≤ 1 := by
  constructor
  · rintro ⟨ho, hc, slot, field, hf, hs, h⟩
    obtain ⟨hread, hone⟩ := Rgb.plain_iff_oneMark.1 h
    refine ⟨⟨ho, hc, slot, field, hf, hs, hread⟩, fun _ other hother => ?_⟩
    obtain ⟨-, hsame⟩ := List.cons.inj (hf.symm.trans hother)
    rwa [← List.singleton_inj.1 hsame]
  · rintro ⟨⟨ho, hc, slot, field, hf, hs, h⟩, hone⟩
    exact ⟨ho, hc, slot, field, hf, hs, Rgb.plain_iff_oneMark.2 ⟨h, hone slot field hf⟩⟩

end Line

end Markup

namespace Config

variable {config : Config}

theorem colour_eq_ok {entry : PaletteEntry} {chosen : PaletteId × Rgb} :
    colour entry = .ok chosen ↔ chosen.1 = entry.id ∧ Rgb.Marked entry.rgb.toList chosen.2 := by
  rw [← Rgb.ofMarked?_eq_some, colour]
  obtain ⟨id, rgb⟩ := chosen
  cases Rgb.ofMarked? entry.rgb.toList <;> simp [eq_comm]

def GivesColours (Colour : List Char → Rgb → Prop) (config : Config)
    (colours : List (PaletteId × Rgb)) : Prop :=
  List.Forall₂ (fun entry chosen => chosen.1 = entry.id ∧ Colour entry.rgb.toList chosen.2)
    config.palette colours

theorem colours_eq_ok {colours : List (PaletteId × Rgb)} :
    config.colours = .ok colours ↔ GivesColours Rgb.Marked config colours := by
  rw [Config.colours, GivesColours]
  generalize config.palette = palette
  induction palette generalizing colours with
  | nil => simp [pure, Except.pure, eq_comm]
  | cons entry palette ih =>
    rw [List.mapM_cons, List.forall₂_cons_left_iff]
    simp only [Markup.bind_eq_ok, colour_eq_ok, ih, pure, Except.pure, Except.ok.injEq]
    constructor
    · rintro ⟨chosen, hc, rest, hr, rfl⟩
      exact ⟨chosen, rest, hc, hr, rfl⟩
    · rintro ⟨chosen, rest, hc, hr, rfl⟩
      exact ⟨chosen, hc, rest, hr, rfl⟩

theorem givesColours_plain {colours : List (PaletteId × Rgb)} :
    GivesColours Rgb.PlainMarked config colours ↔
      GivesColours Rgb.Marked config colours ∧
        ∀ entry ∈ config.palette, entry.rgb.toList.count '#' ≤ 1 := by
  have hentry : ∀ (entry : PaletteEntry) (chosen : PaletteId × Rgb),
      chosen.1 = entry.id ∧ Rgb.PlainMarked entry.rgb.toList chosen.2 ↔
        entry.rgb.toList.count '#' ≤ 1 ∧
          chosen.1 = entry.id ∧ Rgb.Marked entry.rgb.toList chosen.2 := by
    intro entry chosen
    rw [Rgb.plain_iff_oneMark, ← and_assoc, and_comm]
  simp only [GivesColours, hentry]
  rw [List.forall₂_and_left, and_comm]

end Config

/-- What is read in hexadecimal, in a deck and in a configuration, and when that is what is documented:
if no plus sign stands in a slot that is read, and no second mark in a colour. -/
theorem hexadecimal_read (number : Nat) (raw : String) (config : Config) :
    (∀ id, Markup.Line.parse number raw = .ok (.command (.backdrop id)) ↔
      Markup.Line.ChoosesBackdrop Text.Hexadecimal (Text.dropReturn raw.toList) id) ∧
    ((∀ id, Markup.Line.parse number raw = .ok (.command (.backdrop id)) ↔
        Markup.Line.ChoosesBackdrop Text.PlainHexadecimal (Text.dropReturn raw.toList) id) ↔
      ∀ id, Markup.Line.parse number raw = .ok (.command (.backdrop id)) →
        ∀ field, Markup.Line.fields (Text.dropReturn raw.toList) = [field] → '+' ∉ field) ∧
    (∀ id colour, Markup.Line.parse number raw = .ok (.command (.setColour id colour)) ↔
      Markup.Line.SetsColour Rgb.Marked (Text.dropReturn raw.toList) id colour) ∧
    ((∀ id colour, Markup.Line.parse number raw = .ok (.command (.setColour id colour)) ↔
        Markup.Line.SetsColour Rgb.PlainMarked (Text.dropReturn raw.toList) id colour) ↔
      ∀ id colour, Markup.Line.parse number raw = .ok (.command (.setColour id colour)) →
        ∀ slot field, Markup.Line.fields (Text.dropReturn raw.toList) = [slot, field] →
          field.count '#' ≤ 1) ∧
    (∀ colours, config.colours = .ok colours ↔
      Config.GivesColours Rgb.Marked config colours) ∧
    ((∀ colours, config.colours = .ok colours ↔
        Config.GivesColours Rgb.PlainMarked config colours) ↔
      ∀ colours, config.colours = .ok colours →
        ∀ entry ∈ config.palette, entry.rgb.toList.count '#' ≤ 1) := by
  have hbackdrop : ∀ id, Markup.Line.parse number raw = .ok (.command (.backdrop id)) ↔
      Markup.Line.ChoosesBackdrop Text.Hexadecimal (Text.dropReturn raw.toList) id :=
    fun _ => Markup.Line.ofChars_eq_backdrop
  have hcolour : ∀ id colour,
      Markup.Line.parse number raw = .ok (.command (.setColour id colour)) ↔
        Markup.Line.SetsColour Rgb.Marked (Text.dropReturn raw.toList) id colour :=
    fun _ _ => Markup.Line.ofChars_eq_setColour
  have hcolours : ∀ colours, config.colours = .ok colours ↔
      Config.GivesColours Rgb.Marked config colours := fun _ => Config.colours_eq_ok
  refine ⟨hbackdrop, ?_, hcolour, ?_, hcolours, ?_⟩
  · simp only [hbackdrop, Markup.Line.choosesBackdrop_plain, iff_self_and]
  · simp only [hcolour, Markup.Line.setsColour_plain, iff_self_and]
  · simp only [hcolours, Config.givesColours_plain, iff_self_and]

/-- None of the three readers is as documented: a plus sign and a second mark are let through. -/
theorem not_plainly_read :
    (¬ ∀ number raw id, Markup.Line.parse number raw = .ok (.command (.backdrop id)) ↔
      Markup.Line.ChoosesBackdrop Text.PlainHexadecimal (Text.dropReturn raw.toList) id) ∧
    (¬ ∀ number raw id colour,
      Markup.Line.parse number raw = .ok (.command (.setColour id colour)) ↔
        Markup.Line.SetsColour Rgb.PlainMarked (Text.dropReturn raw.toList) id colour) ∧
    ¬ ∀ (config : Config) colours, config.colours = .ok colours ↔
      Config.GivesColours Rgb.PlainMarked config colours := by
  refine ⟨fun h => ?_, fun h => ?_, fun h => ?_⟩
  · obtain ⟨-, hplus⟩ := Markup.Line.choosesBackdrop_plain.1 ((h 1 "bgcol,+5:" 5).1 (by decide))
    exact absurd (hplus ['+', '5'] (by decide)) (by decide)
  · obtain ⟨-, hone⟩ := Markup.Line.setsColour_plain.1
      ((h 1 "setcolour,1,##0f0:" 1 ⟨0, 255, 0⟩).1 (by decide))
    exact absurd (hone ['1'] ['#', '#', '0', 'f', '0'] (by decide)) (by decide)
  · have hread := (h { Config.standard with palette := [⟨1, "##0f0"⟩] } [(1, ⟨0, 255, 0⟩)]).1 rfl
    have hone := (Config.givesColours_plain.1 hread).2 ⟨1, "##0f0"⟩ (List.mem_singleton.2 rfl)
    exact absurd hone (by decide)

end TileDeck
