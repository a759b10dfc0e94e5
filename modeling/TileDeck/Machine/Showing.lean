import TileDeck.Machine
import TileDeck.Page.Showing

set_option autoImplicit false

namespace TileDeck.Machine

open Markup Page

variable {σ : Type} [Surface σ] (m : Machine σ)

def proceed (options : Options) (text : String) (stage : Stage σ) : Option (Stage σ) :=
  match stage.cursor.mode with
  | .none => some stage
  | .text bg => do
    let drawn ← m.draw (← m.reckoning.textLine stage.cursor.x stage.cursor.y bg text) stage
    return { drawn with cursor := stage.cursor.nextRow }
  | .code => do
    let drawn ← m.draw
      (← m.reckoning.codeLine options stage.ink stage.cursor.x stage.cursor.y text) stage
    return { drawn with cursor := stage.cursor.nextRow }

def endOnTurn (idle : List Primitive) (stage : Stage σ) : Option (Flow × Stage σ) := do
  let (turn, stage) ← m.await idle stage
  return (.ended turn, stage)

def pause (stage : Stage σ) : Option (Flow × Stage σ) := do
  match ← m.await [] stage with
  | (some .forward, stage) => return (.onward, stage)
  | (turn, stage) => return (.ended turn, stage)

def initProgress (stage : Stage σ) : Option (Stage σ) := do
  let position := stage.position.markStart
  let shown := position.progress?.toList.map fun (done, total) => .progress done total
  return { ← m.draw shown stage with position := position }

def resetTimer (stage : Stage σ) : Option (Stage σ) := do
  let position := stage.position.resetTimer (Surface.frames stage.surface)
  return { ← m.draw [.timer position.timerBaseline] stage with position := position }

def execute (options : Options) (stage : Stage σ) : Command → Option (Flow × Stage σ)
  | .title text => do
    return (.onward, ← m.draw (← m.reckoning.titleLine options text) stage)
  | .text x y bg text => do
    let drawn ← m.draw (← m.reckoning.textLine x y bg text) stage
    return (.onward, { drawn with cursor := .enter (.text bg) x y })
  | .setColour id colour => do return (.onward, ← m.draw [.paletteColour id colour] stage)
  | .textPalette id => do
    return (.onward, { ← m.draw [.textPalette id] stage with ink := id })
  | .pause => m.pause stage
  | .image x y name => do return (.onward, ← m.draw [.image x y name] stage)
  | .code x y code => do
    let drawn ← m.draw (← m.reckoning.codeLine options stage.ink x y code) stage
    return (.onward, { drawn with cursor := .enter .code x y })
  | .box x y width height bg => do
    return (.onward, ← m.draw (Box.draw ⟨x, y, width, height⟩ bg) stage)
  | .arrow x y direction length branches => do
    return (.onward, ← m.draw (Arrow.draw ⟨x, y, direction, length.toNat, branches⟩) stage)
  | .backdrop id => do return (.onward, ← m.draw [.backdrop id] stage)
  | .sleep frames => do return (.onward, ← m.draw [.sleep frames] stage)
  | .titleScreen => do m.endOnTurn [] (← m.draw [.titleScreen] stage)
  | .demoGame => do m.endOnTurn [] (← m.draw [.demoGame] stage)
  | .renderBackground => do return (.onward, ← m.draw [.renderBackground] stage)
  | .scroll => m.endOnTurn [.scrollBackground 1] stage
  | .initProgress => do return (.onward, ← m.initProgress stage)
  | .hideProgress => do
    return (.onward,
      { ← m.draw [.hideProgress] stage with position := stage.position.clearStart })
  | .resetTimer => do return (.onward, ← m.resetTimer stage)
  | .hideTimer => do
    return (.onward, { ← m.draw [.hideTimer] stage with position := stage.position.hideTimer })
  | .playSound => do return (.onward, ← m.draw [.sound] stage)

def showLine (options : Options) (number : Nat) (line : String) (stage : Stage σ) :
    Option (Flow × Stage σ) :=
  match Line.parse number line with
  | .ok .comment => some (.onward, stage)
  | .ok (.continuation text) => do return (.onward, ← m.proceed options text stage)
  | .ok (.command command) => m.execute options { stage with cursor := stage.cursor.leave } command
  | .error fault => some (.onward, { stage with faults := stage.faults ++ [fault] })

def showLines (options : Options) (number : Nat) (stage : Stage σ) :
    List String → Option (Flow × Stage σ)
  | [] => some (.onward, stage)
  | line :: rest => do
    match ← m.showLine options number line stage with
    | (.onward, stage) => showLines options (number + 1) stage rest
    | (.ended turn, stage) => return (.ended turn, stage)

def showPage (options : Options) (text : String) (stage : Stage σ) : Option (Flow × Stage σ) :=
  m.showLines options 1 { stage with cursor := .home, faults := [] } (scriptLines text)

theorem agrees_proceed (options : Options) (text : String) (stage : Stage σ) :
    Agrees (m.proceed options text stage) (Page.proceed options text stage) := by
  unfold Machine.proceed Page.proceed
  cases stage.cursor.mode with
  | none => exact .always stage
  | text bg =>
    exact (m.reckoning.agrees_textLine _ _ bg text).bind ((m.agrees_draw _ stage).bind (.always _))
  | code =>
    exact (m.reckoning.agrees_codeLine options _ _ _ text).bind
      ((m.agrees_draw _ stage).bind (.always _))

theorem agrees_endOnTurn (idle : List Primitive) (stage : Stage σ) :
    Agrees (m.endOnTurn idle stage) (Page.endOnTurn idle stage) :=
  (m.agrees_await idle stage).bind (.always _)

theorem agrees_pause (stage : Stage σ) : Agrees (m.pause stage) (Page.pause stage) := by
  refine (m.agrees_await [] stage).bind ?_
  unfold Page.pause
  generalize stage.await [] = waited
  obtain ⟨_ | _ | _, _⟩ := waited <;> exact .always _

theorem agrees_initProgress (stage : Stage σ) :
    Agrees (m.initProgress stage) (Page.initProgress stage) :=
  (m.agrees_draw _ stage).bind (.always _)

theorem agrees_resetTimer (stage : Stage σ) :
    Agrees (m.resetTimer stage) (Page.resetTimer stage) :=
  (m.agrees_draw _ stage).bind (.always _)

theorem agrees_execute (options : Options) (stage : Stage σ) (command : Command) :
    Agrees (m.execute options stage command) (Page.execute options stage command) := by
  cases command with
  | title text =>
    exact (m.reckoning.agrees_titleLine options text).bind
      ((m.agrees_draw _ stage).bind (.always _))
  | text x y bg text =>
    exact (m.reckoning.agrees_textLine x y bg text).bind
      ((m.agrees_draw _ stage).bind (.always _))
  | code x y code =>
    exact (m.reckoning.agrees_codeLine options stage.ink x y code).bind
      ((m.agrees_draw _ stage).bind (.always _))
  | pause => exact m.agrees_pause stage
  | titleScreen => exact (m.agrees_draw _ stage).bind (m.agrees_endOnTurn [] _)
  | demoGame => exact (m.agrees_draw _ stage).bind (m.agrees_endOnTurn [] _)
  | scroll => exact m.agrees_endOnTurn [.scrollBackground 1] stage
  | initProgress => exact (m.agrees_initProgress stage).bind (.always _)
  | resetTimer => exact (m.agrees_resetTimer stage).bind (.always _)
  | _ => exact (m.agrees_draw _ stage).bind (.always _)

theorem agrees_showLine (options : Options) (number : Nat) (line : String) (stage : Stage σ) :
    Agrees (m.showLine options number line stage) (Page.showLine options number line stage) := by
  unfold Machine.showLine Page.showLine
  rcases Line.parse number line with fault | _ | command | text
  · exact .always _
  · exact .always _
  · exact m.agrees_execute options _ command
  · exact (m.agrees_proceed options text stage).bind (.always _)

theorem agrees_showLines (options : Options) (number : Nat) (stage : Stage σ)
    (lines : List String) :
    Agrees (m.showLines options number stage lines)
      (Page.showLines options number stage lines) := by
  induction lines generalizing number stage with
  | nil => exact .always _
  | cons line rest ih =>
    refine (m.agrees_showLine options number line stage).bind ?_
    unfold Page.showLines
    generalize Page.showLine options number line stage = shown
    obtain ⟨_ | turn, next⟩ := shown
    · exact ih (number + 1) next
    · exact .always _

theorem agrees_showPage (options : Options) (text : String) (stage : Stage σ) :
    Agrees (m.showPage options text stage) (Page.showPage options text stage) :=
  m.agrees_showLines options 1 _ (scriptLines text)

end TileDeck.Machine
