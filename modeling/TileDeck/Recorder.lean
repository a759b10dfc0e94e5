import TileDeck.Primitive

set_option autoImplicit false

namespace TileDeck

inductive Call
  | plain (p : Primitive)
  /-- A primitive that is drawn in the palette of text. -/
  | inked (p : Primitive) (palette : PaletteId)
deriving DecidableEq, Repr

structure Recorder where
  calls : Array Call
  ink : PaletteId
  frames : Nat
deriving DecidableEq, Repr

namespace Recorder

def fresh : Recorder := ⟨#[], 0, 0⟩

def note (call : Call) (r : Recorder) : Recorder := { r with calls := r.calls.push call }

def perform (p : Primitive) (r : Recorder) : Recorder :=
  match p with
  | .textPalette id => { r with ink := id }
  | .text .. | .quote .. => r.note (.inked p r.ink)
  | .sleep n => { r.note (.plain p) with frames := r.frames + n.toNat }
  | _ => r.note (.plain p)

instance : Surface Recorder where
  perform := perform
  nextFrame r := { r with frames := r.frames + 1 }
  frames := Recorder.frames

def emptied (r : Recorder) : Recorder := { r with calls := #[] }

def texts (r : Recorder) : List String :=
  r.calls.toList.filterMap fun
    | .inked (.text _ _ text) _ => some text
    | _ => none

end Recorder

end TileDeck
