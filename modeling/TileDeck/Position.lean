import TileDeck.Pad.Buttons

set_option autoImplicit false

namespace TileDeck

structure Position where
  index : Option Nat
  pages : Nat
  start : Option Nat
  timerBaseline : Nat
  timerVisible : Bool
deriving DecidableEq, Repr

namespace Position

def before (pages : Nat) : Position := ⟨none, pages, none, 0, false⟩

def advance (p : Position) : Position :=
  if p.pages = 0 then p
  else { p with index := some (p.index.elim 0 fun i => min (i + 1) (p.pages - 1)) }

def retreat (p : Position) : Position := { p with index := p.index.map (· - 1) }

def apply (p : Position) : Turn → Position
  | .forward => p.advance
  | .back => p.retreat
  | .reload => p

/-- Go to the first page, unless a page is shown already. -/
def begin (p : Position) : Position := if p.index.isNone then p.advance else p

def markStart (p : Position) : Position := { p with start := some (p.index.getD 0) }

def clearStart (p : Position) : Position := { p with start := none }

/-- The pages seen and the pages in all, from the marked start on; the page shown counts as seen.
There is nothing to tell on pages before the start. -/
def progress? (p : Position) : Option (Nat × Nat) :=
  p.start.bind fun start =>
    if p.index.getD 0 < start then none else some (p.index.getD 0 - start + 1, p.pages - start)

def resetTimer (p : Position) (frame : Nat) : Position :=
  { p with timerBaseline := frame, timerVisible := true }

def hideTimer (p : Position) : Position := { p with timerVisible := false }

end Position

end TileDeck
