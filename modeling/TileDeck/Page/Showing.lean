import TileDeck.Markup.Line
import TileDeck.Page.Stage
import TileDeck.Shape.Arrow
import TileDeck.Shape.Box

set_option autoImplicit false

namespace TileDeck.Page

open Markup

inductive Flow
  | onward
  | ended (turn : Option Turn)
deriving DecidableEq, Repr

def Flow.turn? : Flow → Option Turn
  | onward => none
  | ended turn => turn

variable {σ : Type} [Surface σ]

/-- A line without a keyword goes on with what the last command began. -/
def proceed (options : Options) (text : String) (stage : Stage σ) : Stage σ :=
  match stage.cursor.mode with
  | .none => stage
  | .text bg =>
    { stage.draw (textLine stage.cursor.x stage.cursor.y bg text) with
      cursor := stage.cursor.nextRow }
  | .code =>
    { stage.draw (codeLine options stage.ink stage.cursor.x stage.cursor.y text) with
      cursor := stage.cursor.nextRow }

def endOnTurn (idle : List Primitive) (stage : Stage σ) : Flow × Stage σ :=
  let (turn, stage) := stage.await idle
  (.ended turn, stage)

/-- A turn forward lets the page go on, any other one ends it. -/
def pause (stage : Stage σ) : Flow × Stage σ :=
  match stage.await [] with
  | (some .forward, stage) => (.onward, stage)
  | (turn, stage) => (.ended turn, stage)

def initProgress (stage : Stage σ) : Stage σ :=
  let position := stage.position.markStart
  let shown := position.progress?.toList.map fun (done, total) => .progress done total
  { stage.draw shown with position := position }

def resetTimer (stage : Stage σ) : Stage σ :=
  let position := stage.position.resetTimer (Surface.frames stage.surface)
  { stage.draw [.timer position.timerBaseline] with position := position }

def execute (options : Options) (stage : Stage σ) : Command → Flow × Stage σ
  | .title text => (.onward, stage.draw (titleLine options text))
  | .text x y bg text =>
    (.onward, { stage.draw (textLine x y bg text) with cursor := .enter (.text bg) x y })
  | .setColour id colour => (.onward, stage.draw [.paletteColour id colour])
  | .textPalette id => (.onward, { stage.draw [.textPalette id] with ink := id })
  | .pause => pause stage
  | .image x y name => (.onward, stage.draw [.image x y name])
  | .code x y code =>
    (.onward,
      { stage.draw (codeLine options stage.ink x y code) with cursor := .enter .code x y })
  | .box x y width height bg => (.onward, stage.draw (Box.draw ⟨x, y, width, height⟩ bg))
  | .arrow x y direction length branches =>
    (.onward, stage.draw (Arrow.draw ⟨x, y, direction, length.toNat, branches⟩))
  | .backdrop id => (.onward, stage.draw [.backdrop id])
  | .sleep frames => (.onward, stage.draw [.sleep frames])
  | .titleScreen => endOnTurn [] (stage.draw [.titleScreen])
  | .demoGame => endOnTurn [] (stage.draw [.demoGame])
  | .renderBackground => (.onward, stage.draw [.renderBackground])
  | .scroll => endOnTurn [.scrollBackground 1] stage
  | .initProgress => (.onward, initProgress stage)
  | .hideProgress =>
    (.onward, { stage.draw [.hideProgress] with position := stage.position.clearStart })
  | .resetTimer => (.onward, resetTimer stage)
  | .hideTimer => (.onward, { stage.draw [.hideTimer] with position := stage.position.hideTimer })
  | .playSound => (.onward, stage.draw [.sound])

/-- A command ends the mode of the lines before it; a faulty line leaves it as it is. -/
def showLine (options : Options) (number : Nat) (line : String) (stage : Stage σ) :
    Flow × Stage σ :=
  match Line.parse number line with
  | .ok .comment => (.onward, stage)
  | .ok (.continuation text) => (.onward, proceed options text stage)
  | .ok (.command command) =>
    execute options { stage with cursor := stage.cursor.leave } command
  | .error fault => (.onward, { stage with faults := stage.faults ++ [fault] })

def showLines (options : Options) (number : Nat) (stage : Stage σ) : List String → Flow × Stage σ
  | [] => (.onward, stage)
  | line :: rest =>
    match showLine options number line stage with
    | (.onward, stage) => showLines options (number + 1) stage rest
    | (.ended turn, stage) => (.ended turn, stage)

def scriptLines (text : String) : List String := (Text.lines text.toList).map String.ofList

def showPage (options : Options) (text : String) (stage : Stage σ) : Flow × Stage σ :=
  showLines options 1 { stage with cursor := .home, faults := [] } (scriptLines text)

theorem pending_endOnTurn (idle : List Primitive) (stage : Stage σ) :
    (endOnTurn idle stage).2.remote.pending ≤ stage.remote.pending ∧
      ((endOnTurn idle stage).1.turn?.isSome →
        (endOnTurn idle stage).2.remote.pending < stage.remote.pending) :=
  Remote.pending_await idle stage.remote stage.surface

theorem pending_pause (stage : Stage σ) :
    (pause stage).2.remote.pending ≤ stage.remote.pending ∧
      ((pause stage).1.turn?.isSome →
        (pause stage).2.remote.pending < stage.remote.pending) := by
  have h := stage.pending_await []
  unfold pause
  split <;> simp_all [Flow.turn?]

theorem pending_execute (options : Options) (stage : Stage σ) (command : Command) :
    (execute options stage command).2.remote.pending ≤ stage.remote.pending ∧
      ((execute options stage command).1.turn?.isSome →
        (execute options stage command).2.remote.pending < stage.remote.pending) := by
  cases command with
  | pause => exact pending_pause stage
  | titleScreen => exact pending_endOnTurn [] (stage.draw [.titleScreen])
  | demoGame => exact pending_endOnTurn [] (stage.draw [.demoGame])
  | scroll => exact pending_endOnTurn [.scrollBackground 1] stage
  | _ => exact ⟨Nat.le_refl _, by simp [execute, Flow.turn?]⟩

theorem remote_proceed (options : Options) (text : String) (stage : Stage σ) :
    (proceed options text stage).remote = stage.remote := by
  unfold proceed
  split <;> rfl

theorem pending_showLine (options : Options) (number : Nat) (line : String) (stage : Stage σ) :
    (showLine options number line stage).2.remote.pending ≤ stage.remote.pending ∧
      ((showLine options number line stage).1.turn?.isSome →
        (showLine options number line stage).2.remote.pending < stage.remote.pending) := by
  unfold showLine
  split
  · simp [Flow.turn?]
  · simp [Flow.turn?, remote_proceed]
  · exact pending_execute options { stage with cursor := stage.cursor.leave } _
  · simp [Flow.turn?]

theorem pending_showLines (options : Options) (number : Nat) (stage : Stage σ)
    (lines : List String) :
    (showLines options number stage lines).2.remote.pending ≤ stage.remote.pending ∧
      ((showLines options number stage lines).1.turn?.isSome →
        (showLines options number stage lines).2.remote.pending < stage.remote.pending) := by
  induction lines generalizing number stage with
  | nil => simp [showLines, Flow.turn?]
  | cons line rest ih =>
    have h := pending_showLine options number line stage
    unfold showLines
    split
    · rename_i stage' hs
      rw [hs] at h
      have h' := ih (number + 1) stage'
      exact ⟨Nat.le_trans h'.1 h.1, fun ht => Nat.lt_of_lt_of_le (h'.2 ht) h.1⟩
    · rename_i turn stage' hs
      rw [hs] at h
      exact h

end TileDeck.Page
