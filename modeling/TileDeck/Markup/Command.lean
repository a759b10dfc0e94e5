import TileDeck.Primitive

set_option autoImplicit false

namespace TileDeck.Markup

inductive Command
  | title (text : String)
  | text (x y : Int32) (bg : Option PaletteId) (text : String)
  | setColour (id : PaletteId) (colour : Rgb)
  | textPalette (id : PaletteId)
  | pause
  | image (x y : Int32) (name : String)
  | code (x y : Int32) (code : String)
  | box (x y width height : Int32) (bg : Option PaletteId)
  | arrow (x y : Int32) (direction : Direction) (length : UInt32) (branches : Bool)
  | backdrop (id : PaletteId)
  | sleep (frames : UInt32)
  | titleScreen
  | demoGame
  | renderBackground
  | scroll
  | initProgress
  | hideProgress
  | resetTimer
  | hideTimer
  | playSound
deriving DecidableEq, Repr

inductive Keyword
  | title
  | textPalette
  | text
  | setColour
  | pause
  | image
  | code
  | box
  | branchArrow
  | arrow
  | backdrop
  | sleep
  | titleScreen
  | demoGame
  | renderBackground
  | scroll
  | initProgress
  | hideProgress
  | resetTimer
  | hideTimer
  | playSound
deriving DecidableEq, Repr

structure Arity where
  least : Nat
  most : Nat
deriving DecidableEq, Repr

namespace Arity

def admits (arity : Arity) (n : Nat) : Bool := arity.least ≤ n && n ≤ arity.most

def describe (arity : Arity) : String :=
  if arity.least = arity.most then toString arity.least
  else s!"{arity.least} or {arity.most}"

end Arity

namespace Keyword

def all : List Keyword :=
  [title, textPalette, text, setColour, pause, image, code, box, branchArrow, arrow, backdrop,
    sleep, titleScreen, demoGame, renderBackground, scroll, initProgress, hideProgress,
    resetTimer, hideTimer, playSound]

def name : Keyword → String
  | title => "title"
  | textPalette => "txtpal"
  | text => "txt"
  | setColour => "setcolour"
  | pause => "pause"
  | image => "image"
  | code => "code"
  | box => "rect"
  | branchArrow => "tarrow"
  | arrow => "arrow"
  | backdrop => "bgcol"
  | sleep => "sleep_raw"
  | titleScreen => "titlescreen"
  | demoGame => "demogame"
  | renderBackground => "renderbg"
  | scroll => "scroll"
  | initProgress => "initprogress"
  | hideProgress => "hideprogress"
  | resetTimer => "resettimer"
  | hideTimer => "hidetimer"
  | playSound => "playsound"

/-- The number of fields that is asked for; keywords without one ignore what stands before the
colon. -/
def arity? : Keyword → Option Arity
  | text => some ⟨2, 3⟩
  | textPalette | backdrop | sleep => some ⟨1, 1⟩
  | setColour | code => some ⟨2, 2⟩
  | image => some ⟨3, 3⟩
  | box => some ⟨4, 5⟩
  | branchArrow | arrow => some ⟨4, 4⟩
  | _ => none

def delimiter (keyword : Keyword) : Char := if keyword.arity?.isSome then ',' else ':'

def opening (keyword : Keyword) : List Char := keyword.name.toList ++ [keyword.delimiter]

def ofLine? (line : List Char) : Option Keyword := all.find? fun k => k.opening.isPrefixOf line

end Keyword

end TileDeck.Markup
