import Mathlib.Data.List.DropRight
import TileDeck.Proofs.Coordinate
import TileDeck.Proofs.Page.Reach
import TileDeck.Proofs.Recorder

set_option autoImplicit false

namespace TileDeck

open Markup

namespace Coordinate

def below (y : Int32) (k : Nat) : Int32 := clamp (y.toInt + k)

theorem toInt_below (y : Int32) (k : Nat) : (below y k).toInt = min (y.toInt + k) greatest := by
  have hy : least ≤ y.toInt := y.le_toInt
  rw [below, toInt_clamp]
  unfold greatest least at *
  omega

theorem add_below_one (y : Int32) (k : Nat) : add (below y k) 1 = below y (k + 1) := by
  have hy : least ≤ y.toInt := y.le_toInt
  have hone : (1 : Int32).toInt = 1 := rfl
  rw [below, add_clamp_of_nonneg (by omega) (by decide), hone, below, Int.natCast_succ,
    Int.add_assoc]

end Coordinate

namespace Page

/-- The nearest command before the end of some lines. -/
def nearest? (lines : List String) : Option Command := (lines.filterMap Line.command?).getLast?

/-- The number of lines since the nearest command that go on with it. Comments and faulty lines do
not count. -/
def continued (lines : List String) : Nat :=
  (lines.rtakeWhile fun line => (Line.command? line).isNone).countP fun line =>
    (Line.continuation? line).isSome

theorem nearest?_of_command {line : String} {command : Command}
    (h : Line.command? line = some command) (lines : List String) :
    nearest? (lines ++ [line]) = some command := by
  simp [nearest?, h]

theorem nearest?_of_no_command {line : String} (h : Line.command? line = none)
    (lines : List String) : nearest? (lines ++ [line]) = nearest? lines := by
  simp [nearest?, h]

theorem continued_of_command {line : String} {command : Command}
    (h : Line.command? line = some command) (lines : List String) :
    continued (lines ++ [line]) = 0 := by
  rw [continued, List.rtakeWhile_concat_neg _ _ _ (by simp [h])]
  rfl

theorem continued_of_no_command {line : String} (h : Line.command? line = none)
    (lines : List String) :
    continued (lines ++ [line]) = continued lines + (Line.continuation? line).toList.length := by
  rw [continued, List.rtakeWhile_concat_pos _ _ _ (by simp [h]), List.countP_append]
  cases hc : Line.continuation? line <;> simp [continued, hc]

/-- The cursor after a command and `k` lines that went on with it. -/
def Points (nearest : Option Command) (k : Nat) (cursor : Cursor) : Prop :=
  match nearest with
  | some (.text x y bg _) => cursor = ⟨.text bg, x, Coordinate.below y (k + 1)⟩
  | some (.code x y _) => cursor = ⟨.code, x, Coordinate.below y (k + 1)⟩
  | _ => cursor.mode = .none

variable {σ : Type} [Surface σ]

theorem points_execute (options : Options) {stage : Stage σ} (h : stage.cursor.mode = .none)
    (command : Command) :
    Points (some command) 0 (execute options stage command).2.cursor := by
  cases command with
  | pause =>
    change (pause stage).2.cursor.mode = .none
    rw [pause_await]
    exact h
  | text | code => rfl
  | _ => exact h

theorem points_proceed (options : Options) {nearest : Option Command} {k : Nat} {stage : Stage σ}
    (h : Points nearest k stage.cursor) (text : String) :
    Points nearest (k + 1) (proceed options text stage).cursor := by
  unfold Points at *
  split at h
  · simp only [proceed, h, Cursor.nextRow, Coordinate.add_below_one]
  · simp only [proceed, h, Cursor.nextRow, Coordinate.add_below_one]
  · exact (cursor_proceed options text stage).1.trans h

theorem points_showLine (options : Options) (number : Nat) {past : List String} {stage : Stage σ}
    (h : Points (nearest? past) (continued past) stage.cursor) (line : String) :
    Points (nearest? (past ++ [line])) (continued (past ++ [line]))
      (showLine options number line stage).2.cursor := by
  cases hc : Line.command? line with
  | some command =>
    rw [nearest?_of_command hc, continued_of_command hc]
    unfold showLine
    rw [Line.command?_eq_some.1 hc]
    have hm : ({ stage with cursor := stage.cursor.leave } : Stage σ).cursor.mode = .none := rfl
    exact points_execute options hm command
  | none =>
    rw [nearest?_of_no_command hc, continued_of_no_command hc]
    unfold showLine
    split
    · rename_i hp
      have hn : Line.continuation? line = none := by
        rw [Line.continuation?, Line.parse_ok_number 0 hp]
      rw [hn]
      exact h
    · rename_i text hp
      rw [Line.continuation?_eq_some.2 hp]
      exact points_proceed options h text
    · rename_i command hp
      rw [Line.command?_eq_some.2 hp] at hc
      contradiction
    · rename_i fault hp
      have hn : Line.continuation? line = none := by
        cases hl : Line.continuation? line with
        | none => rfl
        | some text =>
          rw [Line.continuation?_eq_some.1 hl] at hp
          contradiction
      rw [hn]
      exact h

/-- The cursor is told by the lines shown so far, whatever the stage was before the page. -/
theorem points_showLines {options : Options} {number : Nat} (past : List String)
    {done : List String} {stage shown : Stage σ} (h : Points (nearest? past) (continued past) stage.cursor)
    (hd : showLines options number stage done = (.onward, shown)) :
    Points (nearest? (past ++ done)) (continued (past ++ done)) shown.cursor := by
  induction done generalizing number past stage with
  | nil =>
    obtain rfl : stage = shown := congrArg Prod.snd hd
    rwa [List.append_nil]
  | cons line rest ih =>
    have hl := points_showLine options number h line
    rcases showLine_cases options number line stage with ⟨next, hn⟩ | ⟨turn, next, hn⟩
    · rw [hn] at hl
      rw [showLines_onward hn] at hd
      rw [List.append_cons]
      exact ih _ hl hd
    · rw [showLines_ended hn] at hd
      simp at hd

def goingOn (options : Options) (ink : PaletteId) (k : Nat) (text : String) :
    Option Command → List Primitive
  | some (.text x y bg _) => textLine x (Coordinate.below y k) bg text
  | some (.code x y _) => codeLine options ink x (Coordinate.below y k) text
  | _ => []

omit [Surface σ] in
theorem extension_of_points {options : Options} {nearest : Option Command} {k : Nat}
    {stage : Stage σ} (h : Points nearest k stage.cursor) (text : String) :
    extension options stage text = goingOn options stage.ink (k + 1) text nearest := by
  unfold extension goingOn
  unfold Points at h
  split at h <;> simp only [h]

theorem goingOn_ne_nil {options : Options} {ink : PaletteId} {k : Nat} {text : String}
    {nearest : Option Command} :
    goingOn options ink k text nearest ≠ [] ↔
      (∃ x y bg content, nearest = some (.text x y bg content)) ∨
        ∃ x y content, nearest = some (.code x y content) := by
  unfold goingOn
  split
  · simp [textLine]
  · simp [codeLine]
  · rename_i htext hcode
    simp only [ne_eq, not_true_eq_false, false_iff, not_or, not_exists]
    exact ⟨htext, hcode⟩

theorem counted_eq {text : String} (h : (text.length : Int) ≤ Coordinate.greatest) :
    counted text = text.length := by
  rw [counted, Coordinate.toInt_ofNat h, Int.toNat_natCast]

theorem calls_textLine (x y : Int32) (bg : Option PaletteId) (text : String) (r : Recorder) :
    (Surface.performAll (textLine x y bg text) r).calls.toList = r.calls.toList ++
      (bg.toList.flatMap fun palette => (List.range (counted text)).map fun k =>
        .plain (.background (Code.columnAt x k) y palette .full)) ++ [.inked (.text x y text) r.ink] := by
  rw [Recorder.calls_performAll, List.append_assoc]
  · unfold textLine
    rw [List.filterMap_append]
    congr 2
    cases bg with
    | none => rfl
    | some palette =>
      simp only [Option.toList_some, List.flatMap_singleton, List.filterMap_map]
      exact congrFun (List.filterMap_eq_map
        (f := fun k => Call.plain (.background (Code.columnAt x k) y palette .full))) _
  · rintro p hp id rfl
    simpa using paints_textLine hp

theorem calls_codeLine (options : Options) (ink : PaletteId) (x y : Int32) (code : String)
    (r : Recorder) :
    (Surface.performAll (codeLine options ink x y code) r).calls =
      (Surface.performAll (Code.draw code.toList x y options.palettes) r).calls := by
  unfold codeLine Surface.performAll
  rw [List.foldl_append]
  rfl

/-- A line that a page reaches and that is neither comment nor command is drawn just if the nearest
command before it is a text or code. The `k`-th such line stands `k` rows below the command, or on
the last row there is. Under it lie as many backgrounds as a word counts characters, which is one
for each character of a line that is not beyond all coordinates. -/
theorem continuation_drawn {options : Options} {text : String} {stage shown : Stage Recorder}
    {done rest : List String} {line content : String}
    (lines_eq : scriptLines text = done ++ line :: rest)
    (reached : showLines options 1 (opened stage) done = (.onward, shown))
    (parsed : Line.parse (1 + done.length) line = .ok (.continuation content)) :
    ∃ next : Stage Recorder,
      showPage options text stage = showLines options (1 + done.length + 1) next rest ∧
      content.toList = Text.dropReturn line.toList ∧
      next.surface = Surface.performAll (lineDrawing options shown line) shown.surface ∧
      (lineDrawing options shown line ≠ [] ↔
        (∃ x y bg first, nearest? done = some (.text x y bg first)) ∨
          ∃ x y first, nearest? done = some (.code x y first)) ∧
      ((content.length : Int) ≤ Coordinate.greatest → counted content = content.length) ∧
      match nearest? done with
      | some (.text x y bg _) =>
        ∃ row : Int32, row.toInt = min (y.toInt + (continued done + 1 : Nat)) Coordinate.greatest ∧
          next.surface.calls.toList = shown.surface.calls.toList ++
            (bg.toList.flatMap fun palette => (List.range (counted content)).map fun k =>
              .plain (.background (Code.columnAt x k) row palette .full)) ++
            [.inked (.text x row content) shown.surface.ink]
      | some (.code x y _) =>
        ∃ row : Int32, row.toInt = min (y.toInt + (continued done + 1 : Nat)) Coordinate.greatest ∧
          next.surface.calls =
            (Surface.performAll (Code.draw content.toList x row options.palettes)
              shown.surface).calls
      | _ => next.surface.calls = shown.surface.calls := by
  have hopened : Points (nearest? []) (continued []) (opened stage).cursor := rfl
  have hpoints := points_showLines [] hopened reached
  rw [List.nil_append] at hpoints
  have hshow : showLine options (1 + done.length) line shown =
      (.onward, proceed options content shown) := by
    unfold showLine
    rw [parsed]
  have hdraw : lineDrawing options shown line =
      goingOn options shown.ink (continued done + 1) content (nearest? done) := by
    unfold lineDrawing
    rw [Line.parse_ok_number 0 parsed]
    exact extension_of_points hpoints content
  have hsurface : (proceed options content shown).surface =
      Surface.performAll (lineDrawing options shown line) shown.surface := by
    rw [surface_proceed, hdraw, extension_of_points hpoints]
  refine ⟨proceed options content shown, ?_, Line.text_of_continuation parsed, hsurface, ?_, counted_eq,
    ?_⟩
  · change showLines options 1 (opened stage) (scriptLines text) = _
    rw [lines_eq, showLines_append reached, showLines_onward hshow]
  · rw [hdraw]
    exact goingOn_ne_nil
  · rw [hsurface, hdraw]
    split
    · rename_i hn
      rw [hn]
      exact ⟨_, Coordinate.toInt_below _ _, calls_textLine _ _ _ content shown.surface⟩
    · rename_i hn
      rw [hn]
      exact ⟨_, Coordinate.toInt_below _ _, calls_codeLine options shown.ink _ _ content _⟩
    · rename_i htext hcode
      have hnil : goingOn options shown.ink (continued done + 1) content (nearest? done) = [] := by
        refine not_ne_iff.1 fun hne => ?_
        rcases goingOn_ne_nil.1 hne with ⟨x, y, bg, first, hn⟩ | ⟨x, y, first, hn⟩
        · exact htext x y bg first hn
        · exact hcode x y first hn
      rw [hnil]
      rfl

def broken : List String := ["txt,2,3,7: ab", "cd", "# note", "rect,1:"]

def astray : Stage Recorder :=
  { Stage.ready .standard 1 (.ofScript []) Recorder.fresh with cursor := ⟨.code, 9, 9⟩ }

def midway : Stage Recorder := (showLines .standard 1 (opened astray) broken).2

theorem broken_goes_on :
    scriptLines "txt,2,3,7: ab\ncd\n# note\nrect,1:\nef" = broken ++ ["ef"] ∧
    showLines .standard 1 (opened astray) broken = (.onward, midway) ∧
    Line.parse 5 "ef" = .ok (.continuation "ef") ∧
    ∃ next : Stage Recorder,
      showPage .standard "txt,2,3,7: ab\ncd\n# note\nrect,1:\nef" astray = (.onward, next) ∧
      next.surface.calls.toList = midway.surface.calls.toList ++
        [.plain (.background 2 5 7 .full), .plain (.background 3 5 7 .full),
          .inked (.text 2 5 "ef") 0] := by
  have hl : scriptLines "txt,2,3,7: ab\ncd\n# note\nrect,1:\nef" = broken ++ ["ef"] := rfl
  have hr : showLines .standard 1 (opened astray) broken = (.onward, midway) := rfl
  have hp : Line.parse 5 "ef" = .ok (.continuation "ef") := rfl
  obtain ⟨next, hnext, _, _, _, _, hdrawn⟩ := continuation_drawn hl hr hp
  have hn : nearest? broken = some (.text 2 3 (some 7) "ab") := rfl
  have hk : continued broken = 1 := rfl
  have hi : midway.surface.ink = 0 := rfl
  rw [hn] at hdrawn
  obtain ⟨row, hrow, hcalls⟩ := hdrawn
  have h5 : row = 5 := by
    rw [hk] at hrow
    exact Int32.toInt_inj.1 hrow
  rw [h5, hi] at hcalls
  exact ⟨hl, hr, hp, next, hnext, hcalls⟩

end Page

end TileDeck
