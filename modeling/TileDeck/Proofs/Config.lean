import TileDeck.Config
import TileDeck.Proofs.Entries
import TileDeck.Proofs.Hexadecimal
import TileDeck.Terminal

set_option autoImplicit false

namespace TileDeck

namespace Palette

theorem colour?_empty (id : PaletteId) : empty.colour? id = none := by
  simp [empty, colour?]

/-- Of the entries for a slot the last one holds. Where there is none, the slot is as it was. -/
theorem colour?_setAll (entries : List (PaletteId × Rgb)) (palette : Palette) (id : PaletteId) :
    (palette.setAll entries).colour? id = (entries.reverse.lookup id).or (palette.colour? id) := by
  induction entries using List.reverseRecOn with
  | nil => rfl
  | append_singleton entries entry ih =>
    have hlast : palette.setAll (entries ++ [entry]) =
        (palette.setAll entries).set entry.1 entry.2 := List.foldl_concat _ palette entry entries
    rw [hlast, colour?_set, ih, List.reverse_concat, List.lookup_cons]
    by_cases h : entry.1 = id
    · rw [if_pos h, beq_iff_eq.2 h.symm]
      rfl
    · rw [if_neg h, beq_eq_false_iff_ne.2 (Ne.symm h)]

theorem colour?_powerOn {id : PaletteId} {colour : Rgb} :
    powerOn.colour? id = some colour ↔ (id, colour) ∈ powerOnPalette := by
  have hslots : (powerOnPalette.reverse.map Prod.fst).Nodup := by decide
  rw [powerOn, colour?_setAll, colour?_empty, Option.or_none, lookup_eq_some_iff_mem hslots,
    List.mem_reverse]

theorem colour?_powerOn_again (entries : List (PaletteId × Rgb)) (id : PaletteId) :
    (powerOn.setAll (powerOnPalette ++ entries)).colour? id =
      (powerOn.setAll entries).colour? id := by
  have hpower : powerOn.colour? id = powerOnPalette.reverse.lookup id := by
    rw [powerOn, colour?_setAll, colour?_empty, Option.or_none]
  rw [colour?_setAll, colour?_setAll, List.reverse_append, List.lookup_append, hpower,
    Option.or_assoc, Option.or_self]

end Palette

namespace PaletteEntry

def IsColour (entry : PaletteEntry) : Prop := ∃ colour, Rgb.Marked entry.rgb.toList colour

def chosen (entry : PaletteEntry) : PaletteId × Rgb :=
  (entry.id, (Rgb.ofMarked? entry.rgb.toList).getD default)

theorem isColour_iff {entry : PaletteEntry} :
    entry.IsColour ↔ ∃ colour, Rgb.ofMarked? entry.rgb.toList = some colour := by
  simp only [IsColour, Rgb.ofMarked?_eq_some]

theorem chosen_of_marked {entry : PaletteEntry} {colour : Rgb}
    (h : Rgb.Marked entry.rgb.toList colour) : entry.chosen = (entry.id, colour) := by
  rw [chosen, Rgb.ofMarked?_eq_some.2 h, Option.getD_some]

end PaletteEntry

namespace Config

/-- The defects for which a configuration is refused. The size goes before the rate, the rate before the
palette, and in the palette the first entry that is no colour before the others. -/
inductive Rejects (config : Config) : Defect → Prop
  | emptyDisplay (size : config.display.columns = 0 ∨ config.display.rows = 0) :
    Rejects config .emptyDisplay
  | zeroRate (columns : config.display.columns ≠ 0) (rows : config.display.rows ≠ 0)
    (rate : config.display.rate = 0) : Rejects config .zeroRate
  | badColour {before after : List PaletteEntry} {entry : PaletteEntry}
    (columns : config.display.columns ≠ 0) (rows : config.display.rows ≠ 0)
    (rate : config.display.rate ≠ 0) (palette : config.palette = before ++ entry :: after)
    (earlier : ∀ e ∈ before, e.IsColour) (bad : ¬entry.IsColour) :
    Rejects config (.badColour entry)

variable {config : Config} {defect : Defect} {colours : List (PaletteId × Rgb)}

theorem colour_eq_error {entry : PaletteEntry} :
    colour entry = .error defect ↔ ¬entry.IsColour ∧ defect = .badColour entry := by
  rw [PaletteEntry.isColour_iff, colour]
  cases Rgb.ofMarked? entry.rgb.toList <;> simp [eq_comm]

theorem exists_colour {entry : PaletteEntry} :
    (∃ chosen, colour entry = .ok chosen) ↔ entry.IsColour := by
  rw [PaletteEntry.isColour_iff, colour]
  cases Rgb.ofMarked? entry.rgb.toList <;> simp

theorem colours_eq_error :
    config.colours = .error defect ↔ ∃ before entry after,
      config.palette = before ++ entry :: after ∧ (¬entry.IsColour ∧ defect = .badColour entry) ∧
        ∀ e ∈ before, e.IsColour := by
  rw [colours, mapM_eq_error]
  simp only [colour_eq_error, exists_colour]

theorem exists_colours :
    (∃ colours, config.colours = .ok colours) ↔ ∀ entry ∈ config.palette, entry.IsColour := by
  rw [← faultOf?_eq_none, colours, faultOf?_mapM, List.findSome?_eq_none_iff]
  simp only [faultOf?_eq_none, exists_colour]

theorem validate_eq_error : config.validate = .error defect ↔ config.Rejects defect := by
  unfold validate
  split
  · rename_i hsize
    constructor
    · intro h
      obtain rfl := Except.error.inj h
      exact .emptyDisplay hsize
    · rintro (_ | ⟨columns, rows, -⟩ | ⟨columns, rows, -, -, -, -⟩)
      · rfl
      · exact absurd hsize (not_or.2 ⟨columns, rows⟩)
      · exact absurd hsize (not_or.2 ⟨columns, rows⟩)
  · rename_i hsize
    obtain ⟨hcolumns, hrows⟩ := not_or.1 hsize
    split
    · rename_i hrate
      constructor
      · intro h
        obtain rfl := Except.error.inj h
        exact .zeroRate hcolumns hrows hrate
      · rintro (size | ⟨-, -, -⟩ | ⟨-, -, rate, -, -, -⟩)
        · exact absurd size hsize
        · rfl
        · exact absurd hrate rate
    · rename_i hrate
      have hmap : (config.colours.map fun _ => ()) = .error defect ↔
          config.colours = .error defect := by
        cases config.colours <;> simp [Except.map]
      rw [hmap, colours_eq_error]
      constructor
      · rintro ⟨before, entry, after, hpalette, ⟨hbad, rfl⟩, hbefore⟩
        exact .badColour hcolumns hrows hrate hpalette hbefore hbad
      · rintro (size | ⟨-, -, rate⟩ | ⟨-, -, -, hpalette, hbefore, hbad⟩)
        · exact absurd size hsize
        · exact absurd rate hrate
        · exact ⟨_, _, _, hpalette, ⟨hbad, rfl⟩, hbefore⟩

theorem validate_eq_ok :
    config.validate = .ok () ↔ config.display.columns ≠ 0 ∧ config.display.rows ≠ 0 ∧
      config.display.rate ≠ 0 ∧ ∀ entry ∈ config.palette, entry.IsColour := by
  rw [← exists_colours]
  unfold validate
  split
  · rename_i hsize
    simp only [reduceCtorEq, false_iff]
    tauto
  · rename_i hsize
    obtain ⟨hcolumns, hrows⟩ := not_or.1 hsize
    split
    · rename_i hrate
      simp [hrate]
    · rename_i hrate
      cases config.colours <;> simp [Except.map, hcolumns, hrows, hrate]

theorem colours_eq_chosen (h : config.colours = .ok colours) :
    colours = config.palette.map PaletteEntry.chosen := by
  have hread := colours_eq_ok.1 h
  refine (List.forall₂_eq_eq_eq ▸ List.forall₂_map_left_iff.2 (hread.imp ?_) :
    config.palette.map PaletteEntry.chosen = colours).symm
  exact fun entry read hentry =>
    (PaletteEntry.chosen_of_marked hentry.2).trans (Prod.ext hentry.1.symm rfl)

/-- What a slot shows: the colour of the last entry for it, else its colour after power-on, else the
terminal's own. -/
inductive Shows (config : Config) : PaletteId → Tint → Prop
  | chosen {before after : List PaletteEntry} {entry : PaletteEntry} {colour : Rgb}
    (palette : config.palette = before ++ entry :: after)
    (later : ∀ e ∈ after, e.id ≠ entry.id) (marked : Rgb.Marked entry.rgb.toList colour) :
    Shows config entry.id (.rgb colour)
  | powerOn {id : PaletteId} {colour : Rgb} (unchosen : ∀ e ∈ config.palette, e.id ≠ id)
    (held : (id, colour) ∈ powerOnPalette) : Shows config id (.rgb colour)
  | unset {id : PaletteId} (unchosen : ∀ e ∈ config.palette, e.id ≠ id)
    (free : ∀ colour, (id, colour) ∉ powerOnPalette) : Shows config id .reset

theorem colour?_unchosen {entries : List PaletteEntry} {id : PaletteId}
    (h : ∀ e ∈ entries, e.id ≠ id) (palette : Palette) :
    (palette.setAll (entries.map PaletteEntry.chosen)).colour? id = palette.colour? id := by
  have hnone : (entries.map PaletteEntry.chosen).reverse.lookup id = none := by
    refine List.lookup_eq_none_iff.2 fun read hm => ?_
    obtain ⟨e, he, rfl⟩ := List.mem_map.1 (List.mem_reverse.1 hm)
    exact bne_iff_ne.2 (h e he).symm
  rw [Palette.colour?_setAll, hnone, Option.none_or]

theorem colour?_chosen {before after : List PaletteEntry} {entry : PaletteEntry} {colour : Rgb}
    (hlater : ∀ e ∈ after, e.id ≠ entry.id) (hmarked : Rgb.Marked entry.rgb.toList colour)
    (palette : Palette) :
    (palette.setAll ((before ++ entry :: after).map PaletteEntry.chosen)).colour? entry.id =
      some colour := by
  have hsplit : palette.setAll ((before ++ entry :: after).map PaletteEntry.chosen) =
      ((palette.setAll (before.map PaletteEntry.chosen)).set entry.id colour).setAll
        (after.map PaletteEntry.chosen) := by
    rw [List.map_append, List.map_cons, PaletteEntry.chosen_of_marked hmarked, Palette.setAll,
      List.foldl_append]
    rfl
  rw [hsplit, colour?_unchosen hlater, Palette.colour?_set, if_pos rfl]

theorem exists_last {entries : List PaletteEntry} {id : PaletteId} (h : ∃ e ∈ entries, e.id = id) :
    ∃ before entry after, entries = before ++ entry :: after ∧ entry.id = id ∧
      ∀ e ∈ after, e.id ≠ id := by
  have hfind : (entries.reverse.find? (·.id = id)).isSome := by
    simpa using h
  obtain ⟨entry, hentry⟩ := Option.isSome_iff_exists.1 hfind
  obtain ⟨hid, later, earlier, hsplit, hlater⟩ := List.find?_eq_some_iff_append.1 hentry
  refine ⟨earlier.reverse, entry, later.reverse, ?_, by simpa using hid, by simpa using hlater⟩
  rw [← List.reverse_reverse entries, hsplit, List.reverse_append, List.reverse_cons,
    List.append_assoc, List.singleton_append]

theorem exists_shows (h : ∀ entry ∈ config.palette, entry.IsColour) (id : PaletteId) :
    ∃ tint, config.Shows id tint := by
  by_cases hchosen : ∃ e ∈ config.palette, e.id = id
  · obtain ⟨before, entry, after, hpalette, rfl, hlater⟩ := exists_last hchosen
    obtain ⟨colour, hmarked⟩ := h entry (by rw [hpalette]; exact List.mem_append_cons_self)
    exact ⟨_, .chosen hpalette hlater hmarked⟩
  · have hunchosen : ∀ e ∈ config.palette, e.id ≠ id := fun e he hid => hchosen ⟨e, he, hid⟩
    by_cases hheld : ∃ colour, (id, colour) ∈ powerOnPalette
    · obtain ⟨colour, hheld⟩ := hheld
      exact ⟨_, .powerOn hunchosen hheld⟩
    · exact ⟨_, .unset hunchosen fun colour hm => hheld ⟨colour, hm⟩⟩

theorem Shows.tint_eq {id : PaletteId} {tint : Tint} (h : config.Shows id tint) :
    ((Palette.powerOn.setAll (config.palette.map PaletteEntry.chosen)).colour? id).elim .reset
      .rgb = tint := by
  cases h with
  | chosen palette later marked =>
    rw [palette, colour?_chosen later marked]
    rfl
  | powerOn unchosen held =>
    rw [colour?_unchosen unchosen, Palette.colour?_powerOn.2 held]
    rfl
  | unset unchosen free =>
    have hnone : Palette.powerOn.colour? id = none :=
      Option.eq_none_iff_forall_ne_some.2 fun colour h => free colour (Palette.colour?_powerOn.1 h)
    rw [colour?_unchosen unchosen, hnone]
    rfl

/-- The terminal shows each slot as its configuration has it, whether the colours are preceded by the
power-on palette or not. -/
theorem tint_start (h : config.colours = .ok colours) (settings : Terminal.Settings)
    (size : Terminal.Size) (gallery : Gallery) (id : PaletteId) (tint : Tint) :
    ((Terminal.start size { settings with palette := powerOnPalette ++ colours } gallery).plane.tint
        id = tint ↔ config.Shows id tint) ∧
      ((Terminal.start size { settings with palette := colours } gallery).plane.tint id = tint ↔
        config.Shows id tint) := by
  have hstart : ∀ settings : Terminal.Settings, (Terminal.start size settings gallery).plane.tint id =
      ((Palette.powerOn.setAll settings.palette).colour? id).elim .reset .rgb := fun _ => rfl
  have hshows : ((Palette.powerOn.setAll colours).colour? id).elim .reset .rgb = tint ↔
      config.Shows id tint := by
    rw [colours_eq_chosen h]
    constructor
    · rintro rfl
      obtain ⟨tint, hshown⟩ := exists_shows (exists_colours.1 ⟨colours, h⟩) id
      rwa [hshown.tint_eq]
    · exact Shows.tint_eq
  rw [hstart, hstart, Palette.colour?_powerOn_again]
  exact ⟨hshows, hshows⟩

theorem validate_ne_error : (∀ defect, config.validate ≠ .error defect) ↔ config.validate = .ok () := by
  cases config.validate <;> simp

theorem ofToml_of_parsed {text : String} (h : (Toml.parse? text).bind Decode.config? = some config) :
    (∀ defect, ofToml text = .error (.invalid defect) ↔ config.validate = .error defect) ∧
      (ofToml text = .ok config ↔ config.validate = .ok ()) := by
  unfold ofToml
  rw [h]
  dsimp only
  cases config.validate <;> simp

/-- A configuration is refused for its first defect and no other reason, as it is when it is read from
a text. Where it is accepted the colours of its palette are all read, slot by slot and in their order, and
a terminal with them shows the last one for each slot, else the colour after power-on, else its own. -/
theorem validated (config : Config) :
    (∀ defect, config.validate = .error defect ↔ config.Rejects defect) ∧
    ((∃ defect, config.validate = .error defect) ↔
      config.display.columns = 0 ∨ config.display.rows = 0 ∨ config.display.rate = 0 ∨
        ∃ entry ∈ config.palette, ¬entry.IsColour) ∧
    (∀ text, (Toml.parse? text).bind Decode.config? = some config →
      (∀ defect, ofToml text = .error (.invalid defect) ↔ config.Rejects defect) ∧
      (ofToml text = .ok config ↔ config.validate = .ok ())) ∧
    (config.validate = .ok () → ∃ colours, config.colours = .ok colours ∧
      colours.map Prod.fst = config.palette.map PaletteEntry.id ∧
      GivesColours Rgb.Marked config colours ∧
      ∀ (settings : Terminal.Settings) size gallery id tint,
        ((Terminal.start size { settings with palette := powerOnPalette ++ colours }
            gallery).plane.tint id = tint ↔ config.Shows id tint) ∧
        ((Terminal.start size { settings with palette := colours } gallery).plane.tint id = tint ↔
            config.Shows id tint)) := by
  refine ⟨fun _ => validate_eq_error, ?_, ?_, ?_⟩
  · rw [← not_iff_not, not_exists, validate_ne_error, validate_eq_ok]
    push Not
    rfl
  · intro text hparsed
    obtain ⟨hinvalid, hok⟩ := ofToml_of_parsed hparsed
    exact ⟨fun defect => (hinvalid defect).trans validate_eq_error, hok⟩
  · intro haccepted
    obtain ⟨colours, hcolours⟩ := exists_colours.2 (validate_eq_ok.1 haccepted).2.2.2
    refine ⟨colours, hcolours, ?_, colours_eq_ok.1 hcolours, tint_start hcolours⟩
    rw [colours_eq_chosen hcolours, List.map_map]
    rfl

theorem backdrop_given_twice :
    let text := "[[palette]]\nid=4\nrgb='#fff'\n[[palette]]\nid=200\nrgb='0a0b0c'\n" ++
      "[[palette]]\nid=4\nrgb='123'\n"
    let config : Config :=
      { Config.standard with palette := [⟨4, "#fff"⟩, ⟨200, "0a0b0c"⟩, ⟨4, "123"⟩] }
    (Toml.parse? text).bind Decode.config? = some config ∧ config.validate = .ok () ∧
      ofToml text = .ok config ∧ ∃ colours, config.colours = .ok colours ∧
        colours.map Prod.fst = [4, 200, 4] ∧
        let plane := (Terminal.start ⟨9, 9⟩ ⟨4, 3, 60, "deck", powerOnPalette ++ colours⟩
          .empty).plane
        plane.tint 4 = .rgb ⟨0x11, 0x22, 0x33⟩ ∧ plane.tint 15 = .rgb ⟨0xFF, 0xFF, 0xFF⟩ ∧
          plane.tint 99 = .reset := by
  intro text config
  have hparsed : (Toml.parse? text).bind Decode.config? = some config := by decide +kernel
  have haccepted : config.validate = .ok () := by decide
  have hslots : config.palette.map PaletteEntry.id = [4, 200, 4] := rfl
  have hunchosen : ∀ e ∈ config.palette, e.id ≠ 15 ∧ e.id ≠ 99 := by decide
  have hgiven : config.Shows 4 (.rgb ⟨0x11, 0x22, 0x33⟩) :=
    @Shows.chosen config [⟨4, "#fff"⟩, ⟨200, "0a0b0c"⟩] [] ⟨4, "123"⟩ _ rfl
      (List.forall_mem_nil _) (Rgb.ofMarked?_eq_some.1 (by decide))
  have hkept : config.Shows 15 (.rgb ⟨0xFF, 0xFF, 0xFF⟩) :=
    .powerOn (fun e he => (hunchosen e he).1) (by decide)
  have hpowerOn : 99 ∉ powerOnPalette.map Prod.fst := by decide
  have hfree : config.Shows 99 .reset :=
    .unset (fun e he => (hunchosen e he).2) fun _ hm => hpowerOn (List.mem_map.2 ⟨_, hm, rfl⟩)
  obtain ⟨-, -, hread, hshown⟩ := validated config
  obtain ⟨colours, hcolours, hids, -, htints⟩ := hshown haccepted
  have hstart := htints ⟨4, 3, 60, "deck", []⟩ ⟨9, 9⟩ .empty
  exact ⟨hparsed, haccepted, (hread text hparsed).2.2 haccepted, colours, hcolours,
    hids.trans hslots, (hstart 4 _).1.2 hgiven, (hstart 15 _).1.2 hkept, (hstart 99 _).1.2 hfree⟩

end Config

end TileDeck
