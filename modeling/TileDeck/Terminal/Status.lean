import TileDeck.Agrees
import TileDeck.Plane.Tile

set_option autoImplicit false

namespace TileDeck.Terminal

structure Theme where
  statusBg : Rgb
  statusFg : Rgb
  progress : Rgb
  timer : Rgb
  hint : Rgb
  frame : Rgb

def theme : Theme where
  statusBg := ⟨50, 50, 70⟩
  statusFg := ⟨205, 214, 244⟩
  progress := ⟨137, 180, 250⟩
  timer := ⟨250, 179, 135⟩
  hint := ⟨108, 112, 134⟩
  frame := ⟨108, 112, 134⟩

namespace Status

def twoDigits (n : Nat) : String := if n < 10 then s!"0{n}" else toString n

/-- Minutes and seconds that some frames take at a rate; a rate of zero counts as one. -/
def elapsed (frames rate : Nat) : String :=
  let seconds := frames / max rate 1
  s!"{twoDigits (seconds / 60)}:{twoDigits (seconds % 60)}"

/-- The width of the progress bar. -/
def barCells : Nat := 12

def filled (done total : Nat) : Nat := if total = 0 then 0 else min done total * barCells / total

def bar (done total : Nat) : List Char :=
  List.replicate (filled done total) '█' ++ List.replicate (barCells - filled done total) '░'

def badge (text : String) (colour : Rgb) : Span :=
  ⟨text.toList, ⟨.black, .rgb colour, true⟩⟩

def plain (text : List Char) (colour : Rgb) : Span :=
  ⟨text, ⟨.rgb colour, .rgb theme.statusBg, false⟩⟩

def hint : String := " enter/space: next  x: back  r: reload  q: quit "

def progressSpans : Nat × Nat → List Span
  | (done, total) =>
    [badge s!" {done}/{total} " theme.progress,
      plain (' ' :: bar done total ++ [' ']) theme.progress]

def timerSpan (frames rate baseline : Nat) : Span :=
  badge s!" {elapsed (frames - baseline) rate} " theme.timer

def spans (progress : Option (Nat × Nat)) (timer : Option Nat) (frames rate : Nat) : List Span :=
  progress.toList.flatMap progressSpans ++ timer.toList.map (timerSpan frames rate) ++
    [plain hint.toList theme.hint]

/-- Whether the bar can be reckoned with words of sixty-four bits. -/
def BarFits (progress : Option (Nat × Nat)) : Prop :=
  ∀ told ∈ progress, min told.1 told.2 * barCells < UInt64.size

instance (progress : Option (Nat × Nat)) : Decidable (BarFits progress) := by
  unfold BarFits
  infer_instance

def spans? (progress : Option (Nat × Nat)) (timer : Option Nat) (frames rate : Nat) :
    Option (List Span) :=
  if BarFits progress then some (spans progress timer frames rate) else none

end Status

end TileDeck.Terminal
