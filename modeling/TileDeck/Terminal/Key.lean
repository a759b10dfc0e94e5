import TileDeck.Pad.Remote

set_option autoImplicit false

namespace TileDeck.Terminal

inductive Key
  | character (c : Char)
  | up
  | down
  | left
  | right
  | enter
  | backspace
  | other (name : String)
deriving DecidableEq, Repr

def Key.button? : Key → Option Buttons
  | up => some { Buttons.released with up := true }
  | down => some { Buttons.released with down := true }
  | left => some { Buttons.released with left := true }
  | right => some { Buttons.released with right := true }
  | enter => some { Buttons.released with start := true }
  | character ' ' | character 'c' => some { Buttons.released with confirm := true }
  | backspace | character 'x' => some { Buttons.released with cancel := true }
  | character 'r' => some { Buttons.released with aux := true }
  | _ => none

def Key.quits : Key → Bool
  | character 'q' | character 'Q' => true
  | _ => false

def Key.ofChar : Char → Key
  | '\n' => enter
  | c => character c

/-- The pad of a port while keys are struck, each for one frame. Keys belong to port zero. -/
def Key.pad (port : UInt8) (keys : List Key) : Pad :=
  let presses := (keys.takeWhile fun key => !key.quits).filterMap Key.button?
  Pad.ofPresses (if port = 0 then presses else presses.map fun _ => .released)

end TileDeck.Terminal
