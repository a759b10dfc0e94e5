import TileDeck.Proofs.Recorder
import TileDeck.Proofs.Run.Past

set_option autoImplicit false

/-!
# The palette of text

A recorder draws text in the palette that was sent to it last, and a stage keeps the palette that a
deck chose for the lines after code. The two start apart: the recorder with slot 0, the stage with
the palette of plain code. They agree from the first choice on; before it, the first line of code
brings the stage's palette to the display.
-/
namespace TileDeck

open Markup

namespace Recorder

/-- Since `old` everything was written down in one palette. -/
def WrittenIn (ink : PaletteId) (old : List Call) (r : Recorder) : Prop :=
  r.ink = ink ∧ ∃ new, r.calls.toList = old ++ new ∧
    ∀ p palette, .inked p palette ∈ new → palette = ink

theorem ink_of_call {ink palette : PaletteId} {p q : Primitive}
    (h : .inked q palette ∈ Call.of? ink p) : palette = ink := by
  cases p <;> simp_all [Call.of?]

theorem kept_written (ink : PaletteId) (old : List Call) :
    Stage.Kept (fun p => ∀ id, p ≠ .textPalette id)
      fun (_ : Remote) (r : Recorder) => r.WrittenIn ink old := by
  refine .of_frames ?_ (fun _ _ h => h) (fun _ _ _ h => h)
  rintro p _ r hp ⟨hi, new, hc, hn⟩
  refine ⟨(ink_perform hp r).trans hi, new ++ (Call.of? r.ink p).toList, ?_, ?_⟩
  · rw [calls_perform, hc, List.append_assoc]
  · intro q palette hq
    rcases List.mem_append.1 hq with hq | hq
    · exact hn q palette hq
    · rw [← hi]
      exact ink_of_call (Option.mem_toList.1 hq)

theorem writtenIn_self (r : Recorder) : r.WrittenIn r.ink r.calls.toList :=
  ⟨rfl, [], (List.append_nil _).symm, by simp⟩

theorem ink_codeLine (options : Options) (ink : PaletteId) (x y : Int32) (code : String)
    (r : Recorder) : (Surface.performAll (Page.codeLine options ink x y code) r).ink = ink := by
  unfold Page.codeLine Surface.performAll
  rw [List.foldl_append]
  rfl

end Recorder

namespace Presentation

def chosen? (past : List Command) : Option PaletteId := (past.filterMap Command.palette?).getLast?

def inkAfter (options : Options) (past : List Command) : PaletteId :=
  (chosen? past).getD (if past.any Command.isCode then options.palettes.plain else 0)

theorem chosen?_concat (past : List Command) (command : Command) :
    chosen? (past ++ [command]) = command.palette?.or (chosen? past) := by
  unfold chosen?
  rw [List.filterMap_append]
  cases hc : command.palette? with
  | none => simp [hc]
  | some id => simp [hc]

/-- The palettes of the stage and of its recorder, told from the commands carried out. -/
structure Inked (options : Options) (past : List Command) (stage : Stage Recorder) : Prop where
  copy : stage.ink = (chosen? past).getD options.palettes.plain
  register : stage.surface.ink = inkAfter options past
  coded : stage.cursor.mode = .code → past.any Command.isCode

theorem Inked.copy_of_code {options : Options} {past : List Command} {stage : Stage Recorder}
    (h : Inked options past stage) (hc : past.any Command.isCode) :
    stage.ink = inkAfter options past := by
  rw [h.copy, inkAfter, if_pos hc]

theorem ink_execute (options : Options) (stage : Stage Recorder) {command : Command}
    (hp : command.palette? = none) : (Page.execute options stage command).2.ink = stage.ink := by
  cases command with
  | textPalette id => simp [Command.palette?] at hp
  | pause =>
    change (Page.pause stage).2.ink = stage.ink
    rw [Page.pause_await]
    rfl
  | _ => rfl

theorem mode_execute (options : Options) (stage : Stage Recorder) {command : Command}
    (hc : command.isCode = false) :
    (Page.execute options stage command).2.cursor.mode = .code → stage.cursor.mode = .code := by
  cases command with
  | code => simp [Command.isCode] at hc
  | text => simp [Page.execute, Page.Cursor.enter]
  | pause =>
    change (Page.pause stage).2.cursor.mode = .code → _
    rw [Page.pause_await]
    exact id
  | _ => exact id

theorem register_execute (options : Options) (stage : Stage Recorder) {command : Command}
    (hp : command.palette? = none) (hc : command.isCode = false) :
    (Page.execute options stage command).2.surface.ink = stage.surface.ink := by
  have hd : ∀ p ∈ Page.drawing options stage command, ∀ id, p ≠ .textPalette id := by
    rintro p hp' id rfl
    rcases Page.mem_drawing hp' with h | h | ⟨_, ⟨other, rfl⟩ | h⟩
    · simp at h
    · simp at h
    · simp [Command.palette?] at hp
    · simp [hc] at h
  exact (Page.kept_execute (Recorder.kept_written stage.surface.ink stage.surface.calls.toList)
    (by simp) options stage command hd (Recorder.writtenIn_self stage.surface)).1

theorem inked_textPalette {options : Options} {past : List Command} {stage : Stage Recorder}
    (hm : stage.cursor.mode = .none) (id : PaletteId) :
    Inked options (past ++ [.textPalette id]) (Page.execute options stage (.textPalette id)).2 := by
  have hchosen : chosen? (past ++ [.textPalette id]) = some id := chosen?_concat past _
  refine ⟨?_, ?_, fun hc => ?_⟩
  · rw [hchosen]
    rfl
  · rw [inkAfter, hchosen]
    rfl
  · change stage.cursor.mode = .code at hc
    rw [hm] at hc
    contradiction

theorem inked_code {options : Options} {past : List Command} {stage : Stage Recorder}
    (h : Inked options past stage) (x y : Int32) (code : String) :
    Inked options (past ++ [.code x y code]) (Page.execute options stage (.code x y code)).2 := by
  have hchosen : chosen? (past ++ [.code x y code]) = chosen? past := chosen?_concat past _
  have hany : (past ++ [Command.code x y code]).any Command.isCode := by simp [Command.isCode]
  refine ⟨hchosen ▸ h.copy, ?_, fun _ => hany⟩
  rw [inkAfter, hchosen, if_pos hany, ← h.copy]
  exact Recorder.ink_codeLine options stage.ink x y code stage.surface

theorem inked_plain {options : Options} {past : List Command} {stage : Stage Recorder}
    (h : Inked options past stage) {command : Command} (hp : command.palette? = none)
    (hc : command.isCode = false) :
    Inked options (past ++ [command]) (Page.execute options stage command).2 := by
  have hchosen : chosen? (past ++ [command]) = chosen? past := by
    rw [chosen?_concat, hp, Option.none_or]
  have hany : (past ++ [command]).any Command.isCode = past.any Command.isCode := by simp [hc]
  refine ⟨?_, ?_, fun hcode => ?_⟩
  · rw [ink_execute options stage hp, hchosen, h.copy]
  · rw [register_execute options stage hp hc, h.register, inkAfter, inkAfter, hchosen, hany]
  · rw [hany]
    exact h.coded (mode_execute options stage hc hcode)

theorem inked_execute {options : Options} {past : List Command} {stage : Stage Recorder}
    (h : Inked options past stage) (hm : stage.cursor.mode = .none) (command : Command) :
    Inked options (past ++ [command]) (Page.execute options stage command).2 := by
  cases command with
  | textPalette id => exact inked_textPalette hm id
  | code x y code => exact inked_code h x y code
  | _ => exact inked_plain h rfl rfl

theorem Inked.leave {options : Options} {past : List Command} {stage : Stage Recorder}
    (h : Inked options past stage) :
    Inked options past { stage with cursor := stage.cursor.leave } :=
  ⟨h.copy, h.register, fun hc => by simp [Page.Cursor.leave] at hc⟩

theorem inked_proceed {options : Options} {past : List Command} {stage : Stage Recorder}
    (h : Inked options past stage) (text : String) :
    Inked options past (Page.proceed options text stage) := by
  unfold Page.proceed
  split
  · exact h
  · rename_i bg hm
    refine ⟨h.copy, ?_, h.coded⟩
    rw [← h.register]
    refine Recorder.ink_performAll (fun p hp id => ?_) stage.surface
    rintro rfl
    have hpaints := Page.paints_textLine hp
    simp at hpaints
  · rename_i hm
    refine ⟨h.copy, ?_, h.coded⟩
    rw [← h.copy_of_code (h.coded hm)]
    exact Recorder.ink_codeLine options stage.ink _ _ text stage.surface

theorem inked_showLine {options : Options} {past : List Command} {stage : Stage Recorder}
    (h : Inked options past stage) (number : Nat) (line : String) :
    Inked options (past ++ (Line.command? line).toList)
      (Page.showLine options number line stage).2 := by
  cases hc : Line.command? line with
  | some command =>
    unfold Page.showLine
    rw [Line.command?_eq_some.1 hc]
    exact inked_execute h.leave rfl command
  | none =>
    rw [Option.toList_none, List.append_nil]
    unfold Page.showLine
    split
    · exact h
    · exact inked_proceed h _
    · rename_i command hp
      rw [Line.command?_eq_some.2 hp] at hc
      contradiction
    · exact ⟨h.copy, h.register, h.coded⟩

theorem inked_draw {options : Options} {past : List Command} {stage : Stage Recorder}
    (h : Inked options past stage) {ps : List Primitive}
    (hp : ∀ p ∈ ps, ∀ id, p ≠ .textPalette id) : Inked options past (stage.draw ps) :=
  ⟨h.copy, (Recorder.ink_performAll hp stage.surface).trans h.register, h.coded⟩

theorem steady_inked (options : Options) : Steady options (Inked options) where
  cleared past stage h := inked_draw h (by simp)
  opened past stage h := ⟨h.copy, h.register, fun hc => by simp [Page.opened, Page.Cursor.home] at hc⟩
  line past stage number line h := inked_showLine h number line
  refreshed past stage h := by
    unfold refreshProgress
    split
    · exact inked_draw h (by simp)
    · exact inked_draw h (by simp)
    · exact h
  waited past stage h := by
    have hw := (Recorder.kept_written stage.surface.ink stage.surface.calls.toList).waited []
      stage.remote stage.surface (by simp) (Recorder.writtenIn_self stage.surface)
    exact ⟨h.copy, hw.1.trans h.register, h.coded⟩
  turned past stage turn h := ⟨h.copy, h.register, h.coded⟩

theorem inked_opening (deck : Deck) (options : Options) (script : List Buttons) :
    Inked options [] (opening deck options (.ofScript script) Recorder.fresh) :=
  ⟨rfl, rfl, fun hc => by simp [opening, start, Stage.ready, Page.Cursor.home] at hc⟩

theorem ink_codes (options : Options) (number : Nat) {line : String} {stage : Stage Recorder}
    (h : Page.Codes stage.cursor line) :
    (Page.showLine options number line stage).2.surface.ink = stage.ink := by
  unfold Page.showLine
  rcases h with ⟨command, hc, hcode⟩ | ⟨hm, text, hp⟩
  · rw [Line.command?_eq_some.1 hc]
    cases command with
    | code x y code => exact Recorder.ink_codeLine options stage.ink x y code stage.surface
    | _ => simp [Command.isCode] at hcode
  · rw [Line.parse_ok_number number hp]
    dsimp only
    rw [Page.surface_proceed]
    unfold Page.extension
    rw [hm]
    exact Recorder.ink_codeLine options stage.ink _ _ text stage.surface

/-- Between two lines text has the palette that was chosen last. Before the first choice this is
slot 0 until a line of code is shown, and from then on the palette of plain code. -/
theorem ink_between_lines {deck : Deck} {options : Options} {script : List Buttons}
    {past : List Command} {shown : Stage Recorder} {number : Nat} {rest : List String}
    (h : Between deck options (opening deck options (.ofScript script) Recorder.fresh) past shown
      number rest) :
    shown.surface.ink = inkAfter options past ∧
    shown.ink = (chosen? past).getD options.palettes.plain ∧
    (∀ line ∈ rest.head?, ¬ Page.Inks shown.cursor line →
      (Page.showLine options number line shown).2.surface.WrittenIn (inkAfter options past)
        shown.surface.calls.toList) ∧
    (∀ line ∈ rest.head?, Page.Codes shown.cursor line →
      (Page.showLine options number line shown).2.surface.ink = shown.ink) ∧
    (inkAfter options past = (chosen? past).getD 0 ↔
      (chosen? past).isSome ∨ past.any Command.isCode = false ∨ options.palettes.plain = 0) ∧
    (shown.surface.ink = shown.ink ↔
      (chosen? past).isSome ∨ past.any Command.isCode ∨ options.palettes.plain = 0) := by
  have hi := steady_between (steady_inked options) h (inked_opening deck options script)
  refine ⟨hi.register, hi.copy, fun line _ hn => ?_, fun line _ hc => ink_codes options number hc,
    ?_, ?_⟩
  · rw [← hi.register]
    exact Page.kept_showLine
      (Recorder.kept_written shown.surface.ink shown.surface.calls.toList) (by simp) options number
      line shown (fun p hp => Page.ne_textPalette_lineDrawing hn hp)
      (Recorder.writtenIn_self shown.surface)
  · unfold inkAfter
    cases chosen? past <;> cases past.any Command.isCode <;> simp
  · rw [hi.register, hi.copy]
    unfold inkAfter
    cases chosen? past <;> cases past.any Command.isCode <;> simp [eq_comm]

def titled : Deck := .parse "code,0,0: x\ntitle: a"

def titledOptions : Options := { Options.standard with palettes := ⟨5, 1, 2, 3⟩ }

def halfway : Stage Recorder :=
  (Page.showLines titledOptions 1
    (Page.opened ((opening titled titledOptions (.ofScript [.released]) .fresh).draw [.clear]))
    ["code,0,0: x"]).2

theorem between_titled :
    Between titled titledOptions (opening titled titledOptions (.ofScript [.released]) .fresh)
      [.code 0 0 "x"] halfway 2 ["title: a"] := by
  have lines_eq : Page.scriptLines "code,0,0: x\ntitle: a" = ["code,0,0: x"] ++ ["title: a"] := rfl
  exact .intro .start rfl rfl lines_eq rfl

theorem not_inks_title : ¬ Page.Inks halfway.cursor "title: a" := by
  have hc : Line.command? "title: a" = some (.title "a") := rfl
  have hp : Line.parse 0 "title: a" = .ok (.command (.title "a")) := rfl
  rintro (⟨id, h⟩ | ⟨command, h, hcode⟩ | ⟨_, text, h⟩)
  · simp [hc] at h
  · obtain rfl := Option.some.inj (hc.symm.trans h)
    simp [Command.isCode] at hcode
  · simp [hp] at h

theorem ink_titled :
    chosen? [.code 0 0 "x"] = none ∧ halfway.surface.ink = 5 ∧
      (Page.showLine titledOptions 2 "title: a" halfway).2.surface.WrittenIn 5
        halfway.surface.calls.toList := by
  obtain ⟨hi, _, hw, _⟩ := ink_between_lines between_titled
  exact ⟨rfl, hi, hw "title: a" rfl not_inks_title⟩

theorem calls_titled :
    (Page.showLine titledOptions 2 "title: a" halfway).2.surface.calls.toList =
      halfway.surface.calls.toList ++ [.inked (.text 19 1 "a") 5] := by
  decide +kernel

/-- Text is not always in the palette that was chosen last, or in slot 0 before the first choice. -/
theorem not_chosen_ink :
    ¬ ∀ (deck : Deck) (options : Options) (script : List Buttons) (past : List Command)
      (shown : Stage Recorder) (number : Nat) (line : String) (rest : List String),
      Between deck options (opening deck options (.ofScript script) .fresh) past shown number
        (line :: rest) →
      ¬ Page.Inks shown.cursor line →
      ∃ new, (Page.showLine options number line shown).2.surface.calls.toList =
          shown.surface.calls.toList ++ new ∧
        ∀ p palette, .inked p palette ∈ new → palette = (chosen? past).getD 0 := by
  intro h
  obtain ⟨new, hc, hn⟩ := h _ _ _ _ _ _ _ _ between_titled not_inks_title
  rw [calls_titled] at hc
  obtain rfl := List.append_cancel_left hc
  exact absurd (hn _ _ (List.mem_singleton_self _)) (by decide)

end Presentation

end TileDeck
