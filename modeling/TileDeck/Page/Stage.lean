import TileDeck.Code.Drawing
import TileDeck.Markup.Fault
import TileDeck.Pad.Remote
import TileDeck.Page.Cursor
import TileDeck.Position

set_option autoImplicit false

namespace TileDeck

/-- What stays the same throughout a show. -/
structure Options where
  port : UInt8
  palettes : Code.Palettes
  columns : Int32
deriving DecidableEq, Repr

def Options.standard : Options := ⟨0, .standard, 40⟩

structure Stage (σ : Type) where
  surface : σ
  remote : Remote
  position : Position
  cursor : Page.Cursor
  /-- The palette of text, chosen by a page; it outlives the page. -/
  ink : PaletteId
  faults : List Markup.Fault

namespace Stage

variable {σ : Type}

def ready (options : Options) (pages : Nat) (pad : Pad) (surface : σ) : Stage σ :=
  ⟨surface, .ofPad pad, .before pages, .home, options.palettes.plain, []⟩

variable [Surface σ]

def draw (ps : List Primitive) (stage : Stage σ) : Stage σ :=
  { stage with surface := Surface.performAll ps stage.surface }

def await (idle : List Primitive) (stage : Stage σ) : Option Turn × Stage σ :=
  let (turn, remote, surface) := stage.remote.await idle stage.surface
  (turn, { stage with remote := remote, surface := surface })

theorem pending_await (idle : List Primitive) (stage : Stage σ) :
    (stage.await idle).2.remote.pending ≤ stage.remote.pending ∧
      ((stage.await idle).1.isSome → (stage.await idle).2.remote.pending < stage.remote.pending) :=
  Remote.pending_await idle stage.remote stage.surface

end Stage

namespace Page

def titleRow : Int32 := 1

def centred (columns : Int32) (length : Nat) : Int32 :=
  max ((columns - Int32.ofNat length) / 2) 0

def titleLine (options : Options) (text : String) : List Primitive :=
  [.text (centred options.columns text.length) titleRow text]

/-- The characters of a text, as far as a word counts them: none below zero. -/
def counted (text : String) : Nat := (Int32.ofNat text.length).toInt.toNat

def textLine (x y : Int32) (bg : Option PaletteId) (text : String) : List Primitive :=
  (bg.toList.flatMap fun palette =>
    (List.range (counted text)).map fun k => .background (Code.columnAt x k) y palette .full) ++
  [.text x y text]

def codeLine (options : Options) (ink : PaletteId) (x y : Int32) (code : String) :
    List Primitive :=
  Code.draw code.toList x y options.palettes ++ [.textPalette ink]

end Page

end TileDeck
