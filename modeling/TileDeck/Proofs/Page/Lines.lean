import TileDeck.Proofs.Markup.Numbering
import TileDeck.Proofs.Pad.Waiting
import TileDeck.Proofs.Page.Drawing

set_option autoImplicit false

namespace TileDeck

namespace Markup.Command

/-- Whether a command hands the screen to the viewer. -/
def waits : Command → Bool
  | .pause | .titleScreen | .demoGame | .scroll => true
  | _ => false

def palette? : Command → Option PaletteId
  | .textPalette id => some id
  | _ => none

def isCode : Command → Bool
  | .code .. => true
  | _ => false

end Markup.Command

/-- Something that is true of a remote and a display stays true, whatever of a kind `A` is drawn on
the display and however long a wait is. -/
structure Stage.Kept {σ : Type} [Surface σ] (A : Primitive → Prop) (I : Remote → σ → Prop) :
    Prop where
  drawn : ∀ (p : Primitive) (remote : Remote) (surface : σ), A p →
    I remote surface → I remote (Surface.perform p surface)
  waited : ∀ (idle : List Primitive) (remote : Remote) (surface : σ), (∀ p ∈ idle, A p) →
    I remote surface → I (remote.await idle surface).2.1 (remote.await idle surface).2.2

theorem Stage.Kept.of_frames {σ : Type} [Surface σ] {A : Primitive → Prop} {I : Remote → σ → Prop}
    (drawn : ∀ (p : Primitive) (remote : Remote) (surface : σ), A p →
      I remote surface → I remote (Surface.perform p surface))
    (polled : ∀ (remote : Remote) (surface : σ), I remote surface → I remote.poll.2 surface)
    (framed : ∀ (remote : Remote) (surface : σ), remote.pad.finished = false →
      I remote surface → I remote.nextFrame (Surface.nextFrame surface)) : Stage.Kept A I where
  drawn := drawn
  waited idle remote surface hi h := by
    refine Remote.await_keeps I polled ?_ remote surface h
    intro remote surface _ hf h
    exact framed remote _ hf (Surface.performAll_keeps (fun p s => drawn p remote s) hi h)

namespace Page

open Markup

variable {σ : Type} [Surface σ]

theorem showLine_cases (options : Options) (number : Nat) (line : String) (stage : Stage σ) :
    (∃ next, showLine options number line stage = (.onward, next)) ∨
      ∃ turn next, showLine options number line stage = (.ended turn, next) := by
  rcases hs : showLine options number line stage with ⟨flow, next⟩
  cases flow with
  | onward => exact .inl ⟨next, rfl⟩
  | ended turn => exact .inr ⟨turn, next, rfl⟩

theorem showLines_onward {options : Options} {number : Nat} {line : String} {stage next : Stage σ}
    (h : showLine options number line stage = (.onward, next)) (rest : List String) :
    showLines options number stage (line :: rest) = showLines options (number + 1) next rest := by
  rw [showLines, h]

theorem showLines_ended {options : Options} {number : Nat} {line : String} {stage next : Stage σ}
    {turn : Option Turn} (h : showLine options number line stage = (.ended turn, next))
    (rest : List String) :
    showLines options number stage (line :: rest) = (.ended turn, next) := by
  rw [showLines, h]

theorem showLines_append {options : Options} {number : Nat} {stage shown : Stage σ}
    {done : List String} (h : showLines options number stage done = (.onward, shown))
    (rest : List String) :
    showLines options number stage (done ++ rest) =
      showLines options (number + done.length) shown rest := by
  induction done generalizing number stage with
  | nil =>
    obtain rfl : stage = shown := congrArg Prod.snd h
    rfl
  | cons line done ih =>
    rcases showLine_cases options number line stage with ⟨next, hn⟩ | ⟨turn, next, hn⟩
    · rw [showLines_onward hn] at h
      rw [List.cons_append, showLines_onward hn, ih h, List.length_cons, Nat.add_assoc,
        Nat.add_comm 1]
    · rw [showLines_ended hn] at h
      simp at h

/-- Before the first command of a page there is nothing to go on with. -/
theorem showLines_idle (options : Options) (number : Nat) {stage : Stage σ} {lines : List String}
    (hl : ∀ line ∈ lines, (Line.continuation? line).isSome) (hm : stage.cursor.mode = .none) :
    showLines options number stage lines = (.onward, stage) := by
  induction lines generalizing number with
  | nil => rfl
  | cons line rest ih =>
    rw [List.forall_mem_cons] at hl
    obtain ⟨text, ht⟩ := Option.isSome_iff_exists.1 hl.1
    have hs : showLine options number line stage = (.onward, stage) := by
      unfold showLine
      rw [Line.continuation?_eq_some.1 ht]
      simp only [proceed, hm]
    rw [showLines_onward hs]
    exact ih (number + 1) hl.2

def drawing (options : Options) (stage : Stage σ) : Command → List Primitive
  | .title text => titleLine options text
  | .text x y bg text => textLine x y bg text
  | .setColour id colour => [.paletteColour id colour]
  | .textPalette id => [.textPalette id]
  | .image x y name => [.image x y name]
  | .code x y code => codeLine options stage.ink x y code
  | .box x y width height bg => Box.draw ⟨x, y, width, height⟩ bg
  | .arrow x y direction length branches => Arrow.draw ⟨x, y, direction, length.toNat, branches⟩
  | .backdrop id => [.backdrop id]
  | .sleep frames => [.sleep frames]
  | .titleScreen => [.titleScreen]
  | .demoGame => [.demoGame]
  | .renderBackground => [.renderBackground]
  | .initProgress =>
    stage.position.markStart.progress?.toList.map fun (done, total) => .progress done total
  | .hideProgress => [.hideProgress]
  | .resetTimer => [.timer (Surface.frames stage.surface)]
  | .hideTimer => [.hideTimer]
  | .playSound => [.sound]
  | .pause | .scroll => []

def extension (options : Options) (stage : Stage σ) (text : String) : List Primitive :=
  match stage.cursor.mode with
  | .none => []
  | .text bg => textLine stage.cursor.x stage.cursor.y bg text
  | .code => codeLine options stage.ink stage.cursor.x stage.cursor.y text

def lineDrawing (options : Options) (stage : Stage σ) (line : String) : List Primitive :=
  match Line.parse 0 line with
  | .ok (.continuation text) => extension options stage text
  | .ok (.command command) => drawing options stage command
  | _ => []

theorem execute_drawing (options : Options) (stage : Stage σ) {command : Command}
    (h : command.waits = false) :
    (execute options stage command).1 = .onward ∧
    (execute options stage command).2.remote = stage.remote ∧
    (execute options stage command).2.surface =
      Surface.performAll (drawing options stage command) stage.surface := by
  cases command with
  | pause | titleScreen | demoGame | scroll => simp [Command.waits] at h
  | _ => exact ⟨rfl, rfl, rfl⟩

theorem pause_await (stage : Stage σ) : (pause stage).2 = (stage.await []).2 := by
  unfold pause
  split <;> rename_i hn <;> rw [hn]

theorem pause_flow (stage : Stage σ) :
    (pause stage).1 =
      if (stage.await []).1 = some .forward then .onward else .ended (stage.await []).1 := by
  unfold pause
  split
  · rename_i hn
    rw [hn, if_pos rfl]
  · rename_i hf hn
    rw [hn, if_neg hf]

theorem surface_proceed (options : Options) (text : String) (stage : Stage σ) :
    (proceed options text stage).surface =
      Surface.performAll (extension options stage text) stage.surface := by
  unfold proceed extension
  cases stage.cursor.mode <;> rfl

theorem cursor_proceed (options : Options) (text : String) (stage : Stage σ) :
    (proceed options text stage).cursor.mode = stage.cursor.mode ∧
      (proceed options text stage).cursor.x = stage.cursor.x := by
  unfold proceed
  split
  · exact ⟨rfl, rfl⟩
  · exact ⟨rfl, rfl⟩
  · exact ⟨rfl, rfl⟩

/-- No command clears the display, and only two choose a palette. -/
theorem mem_drawing {options : Options} {stage : Stage σ} {command : Command} {p : Primitive}
    (h : p ∈ drawing options stage command) :
    p.paints ∨ p.tells ∨
      (∃ id, p = .textPalette id) ∧ ((∃ id, command = .textPalette id) ∨ command.isCode) := by
  cases command with
  | title => exact .inl (paints_titleLine h)
  | text => exact .inl (paints_textLine h)
  | box => exact .inl (Box.paints_draw _ _ h)
  | arrow => exact .inl (Arrow.paints_draw _ h)
  | code =>
    rcases paints_codeLine h with h | h
    · exact .inl h
    · exact .inr (.inr ⟨h, .inr rfl⟩)
  | initProgress =>
    obtain ⟨progress, _, rfl⟩ := List.mem_map.1 h
    exact .inr (.inl rfl)
  | textPalette id => exact .inr (.inr ⟨⟨id, List.mem_singleton.1 h⟩, .inl ⟨id, rfl⟩⟩)
  | image =>
    obtain rfl := List.mem_singleton.1 h
    exact .inl rfl
  | pause | scroll => simp [drawing] at h
  | _ =>
    obtain rfl := List.mem_singleton.1 h
    exact .inr (.inl rfl)

omit [Surface σ] in
theorem mem_extension {options : Options} {stage : Stage σ} {text : String} {p : Primitive}
    (h : p ∈ extension options stage text) :
    p.paints ∨ (∃ id, p = .textPalette id) ∧ stage.cursor.mode = .code := by
  unfold extension at h
  split at h
  · simp at h
  · exact .inl (paints_textLine h)
  · rename_i hm
    rcases paints_codeLine h with h | h
    · exact .inl h
    · exact .inr ⟨h, hm⟩

def Codes (cursor : Cursor) (line : String) : Prop :=
  (∃ command, Line.command? line = some command ∧ command.isCode) ∨
    cursor.mode = .code ∧ ∃ text, Line.parse 0 line = .ok (.continuation text)

/-- A line that chooses a palette of text, which each line of code does as well. -/
def Inks (cursor : Cursor) (line : String) : Prop :=
  (∃ id, Line.command? line = some (.textPalette id)) ∨ Codes cursor line

theorem mem_lineDrawing {options : Options} {stage : Stage σ} {line : String} {p : Primitive}
    (h : p ∈ lineDrawing options stage line) :
    p.paints ∨ p.tells ∨ (∃ id, p = .textPalette id) ∧ Inks stage.cursor line := by
  unfold lineDrawing at h
  split at h
  · rename_i text hp
    rcases mem_extension h with h | ⟨h, hm⟩
    · exact .inl h
    · exact .inr (.inr ⟨h, .inr (.inr ⟨hm, text, hp⟩)⟩)
  · rename_i command hp
    have hcommand := Line.command?_eq_some.2 hp
    rcases mem_drawing h with h | h | ⟨hi, ⟨id, rfl⟩ | hc⟩
    · exact .inl h
    · exact .inr (.inl h)
    · exact .inr (.inr ⟨hi, .inl ⟨id, hcommand⟩⟩)
    · exact .inr (.inr ⟨hi, .inr (.inl ⟨command, hcommand, hc⟩)⟩)
  · simp at h

theorem ne_clear_lineDrawing {options : Options} {stage : Stage σ} {line : String} {p : Primitive}
    (h : p ∈ lineDrawing options stage line) : p ≠ .clear := by
  rintro rfl
  rcases mem_lineDrawing h with h | h | ⟨⟨id, h⟩, _⟩
  · simp at h
  · simp at h
  · simp at h

theorem ne_textPalette_lineDrawing {options : Options} {stage : Stage σ} {line : String}
    (hn : ¬ Inks stage.cursor line) {p : Primitive} (h : p ∈ lineDrawing options stage line)
    (id : PaletteId) : p ≠ .textPalette id := by
  rintro rfl
  rcases mem_lineDrawing h with h | h | ⟨_, hi⟩
  · simp at h
  · simp at h
  · exact hn hi

section Kept
variable {A : Primitive → Prop} {I : Remote → σ → Prop} (K : Stage.Kept A I)
include K

theorem kept_draw {ps : List Primitive} (hp : ∀ p ∈ ps, A p) (stage : Stage σ)
    (h : I stage.remote stage.surface) : I (stage.draw ps).remote (stage.draw ps).surface :=
  Surface.performAll_keeps (fun p s => K.drawn p stage.remote s) hp h

theorem kept_endOnTurn {idle : List Primitive} (hi : ∀ p ∈ idle, A p) (stage : Stage σ)
    (h : I stage.remote stage.surface) :
    I (endOnTurn idle stage).2.remote (endOnTurn idle stage).2.surface :=
  K.waited idle stage.remote stage.surface hi h

theorem kept_execute (hscroll : A (.scrollBackground 1)) (options : Options) (stage : Stage σ)
    (command : Command) (hd : ∀ p ∈ drawing options stage command, A p)
    (h : I stage.remote stage.surface) :
    I (execute options stage command).2.remote (execute options stage command).2.surface := by
  have hk := kept_draw K hd stage h
  cases hw : command.waits with
  | false =>
    obtain ⟨_, hr, hs⟩ := execute_drawing options stage hw
    rw [hr, hs]
    exact hk
  | true =>
    cases command with
    | pause =>
      change I (pause stage).2.remote (pause stage).2.surface
      rw [pause_await]
      exact K.waited [] stage.remote stage.surface (by simp) h
    | titleScreen => exact kept_endOnTurn K (by simp) _ hk
    | demoGame => exact kept_endOnTurn K (by simp) _ hk
    | scroll => exact kept_endOnTurn K (by simpa using hscroll) stage h
    | _ => simp [Command.waits] at hw

theorem kept_proceed (options : Options) (text : String) (stage : Stage σ)
    (hd : ∀ p ∈ extension options stage text, A p) (h : I stage.remote stage.surface) :
    I (proceed options text stage).remote (proceed options text stage).surface := by
  rw [remote_proceed, surface_proceed]
  exact kept_draw K hd stage h

theorem kept_showLine (hscroll : A (.scrollBackground 1)) (options : Options) (number : Nat)
    (line : String) (stage : Stage σ) (hd : ∀ p ∈ lineDrawing options stage line, A p)
    (h : I stage.remote stage.surface) :
    I (showLine options number line stage).2.remote
      (showLine options number line stage).2.surface := by
  unfold lineDrawing at hd
  unfold showLine
  split
  · exact h
  · rename_i text hp
    rw [Line.parse_ok_number 0 hp] at hd
    exact kept_proceed K options text stage hd h
  · rename_i command hp
    rw [Line.parse_ok_number 0 hp] at hd
    exact kept_execute K hscroll options { stage with cursor := stage.cursor.leave } command hd h
  · exact h

end Kept

theorem kept_showLines {I : Remote → σ → Prop} (K : Stage.Kept (· ≠ .clear) I) (options : Options)
    (number : Nat) (lines : List String) (stage : Stage σ) (h : I stage.remote stage.surface) :
    I (showLines options number stage lines).2.remote
      (showLines options number stage lines).2.surface := by
  induction lines generalizing number stage with
  | nil => exact h
  | cons line rest ih =>
    have hl := kept_showLine K (by simp) options number line stage
      (fun p hp => ne_clear_lineDrawing hp) h
    rcases showLine_cases options number line stage with ⟨next, hn⟩ | ⟨turn, next, hn⟩
    · rw [hn] at hl
      rw [showLines_onward hn]
      exact ih (number + 1) next hl
    · rw [hn] at hl
      rw [showLines_ended hn]
      exact hl

theorem hears_pause (stage : Stage σ) :
    ∃ pauses, Remote.Hears stage.remote pauses (pause stage).1.turn? (pause stage).2.remote := by
  have hw := Remote.hears_await [] stage.remote stage.surface
  change Remote.Hears stage.remote 0 (stage.await []).1 (stage.await []).2.remote at hw
  unfold pause
  split
  · rename_i next hn
    rw [hn] at hw
    -- the turn forward ends the pause and not the page
    exact ⟨1, by simpa [Flow.turn?] using hw.heard, hw.settled, fun _ ht => by simp [Flow.turn?] at ht⟩
  · rename_i turn next _ hn
    rw [hn] at hw
    exact ⟨0, hw⟩

theorem hears_execute (options : Options) (stage : Stage σ) (command : Command) :
    ∃ pauses, Remote.Hears stage.remote pauses (execute options stage command).1.turn?
        (execute options stage command).2.remote ∧
      (command ≠ .pause → pauses = 0) := by
  cases hw : command.waits with
  | false =>
    obtain ⟨hf, hr, _⟩ := execute_drawing options stage hw
    rw [hf, hr]
    exact ⟨0, .refl stage.remote, fun _ => rfl⟩
  | true =>
    cases command with
    | pause =>
      obtain ⟨pauses, hp⟩ := hears_pause stage
      exact ⟨pauses, hp, fun h => absurd rfl h⟩
    | titleScreen => exact ⟨0, Remote.hears_await [] _ _, fun _ => rfl⟩
    | demoGame => exact ⟨0, Remote.hears_await [] _ _, fun _ => rfl⟩
    | scroll => exact ⟨0, Remote.hears_await [.scrollBackground 1] _ _, fun _ => rfl⟩
    | _ => simp [Command.waits] at hw

theorem hears_showLine (options : Options) (number : Nat) (line : String) (stage : Stage σ) :
    ∃ pauses, Remote.Hears stage.remote pauses (showLine options number line stage).1.turn?
        (showLine options number line stage).2.remote ∧
      (Line.command? line ≠ some .pause → pauses = 0) := by
  unfold showLine
  split
  · exact ⟨0, .refl stage.remote, fun _ => rfl⟩
  · rw [remote_proceed]
    exact ⟨0, .refl stage.remote, fun _ => rfl⟩
  · rename_i command hc
    obtain ⟨pauses, hp, hz⟩ :=
      hears_execute options { stage with cursor := stage.cursor.leave } command
    refine ⟨pauses, hp, fun hn => hz ?_⟩
    rintro rfl
    exact hn (Line.command?_eq_some.2 hc)
  · exact ⟨0, .refl stage.remote, fun _ => rfl⟩

/-- A page that is over hands on the turn that ended it; every other turn ended one of its pauses. -/
theorem hears_showLines (options : Options) (number : Nat) (lines : List String)
    (stage : Stage σ) :
    ∃ pauses, Remote.Hears stage.remote pauses (showLines options number stage lines).1.turn?
        (showLines options number stage lines).2.remote ∧
      ((∀ line ∈ lines, Line.command? line ≠ some .pause) → pauses = 0) := by
  induction lines generalizing number stage with
  | nil => exact ⟨0, .refl stage.remote, fun _ => rfl⟩
  | cons line rest ih =>
    obtain ⟨m, hm, zm⟩ := hears_showLine options number line stage
    rcases showLine_cases options number line stage with ⟨next, hn⟩ | ⟨turn, next, hn⟩
    · rw [hn] at hm
      rw [showLines_onward hn]
      obtain ⟨n, hn, zn⟩ := ih (number + 1) next
      refine ⟨m + n, hm.trans hn, fun hl => ?_⟩
      rw [List.forall_mem_cons] at hl
      rw [zm hl.1, zn hl.2]
    · rw [hn] at hm
      rw [showLines_ended hn]
      exact ⟨m, hm, fun hl => zm (hl line List.mem_cons_self)⟩

end Page
end TileDeck
