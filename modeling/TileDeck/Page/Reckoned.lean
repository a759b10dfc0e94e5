import TileDeck.Code.Reckoned
import TileDeck.Page.Stage

set_option autoImplicit false

namespace TileDeck.Reckoning

open Page

variable (r : Reckoning)

def titleLine (options : Options) (text : String) : Option (List Primitive) := do
  let width ← r.count? text.length
  let rest ← Coordinate.difference? options.columns width
  return [.text (max (rest / 2) 0) titleRow text]

def backgrounds (x y : Int32) (palette : PaletteId) (length : Nat) : Option (List Primitive) := do
  let count ← r.count? length
  (List.range count.toInt.toNat).mapM fun k => do
    let column ← r.after? x k
    return .background column y palette .full

def textLine (x y : Int32) (bg : Option PaletteId) (text : String) : Option (List Primitive) := do
  let grounds ← bg.elim (some []) fun palette => r.backgrounds x y palette text.length
  return grounds ++ [.text x y text]

def codeLine (options : Options) (ink : PaletteId) (x y : Int32) (code : String) :
    Option (List Primitive) := do
  let drawn ← r.code code.toList x y options.palettes
  return drawn ++ [.textPalette ink]

theorem agrees_titleLine (options : Options) (text : String) :
    Agrees (r.titleLine options text) (Page.titleLine options text) :=
  (r.agrees_count text.length).bind ((Coordinate.agrees_difference _ _).bind (.always _))

theorem agrees_backgrounds (x y : Int32) (palette : PaletteId) (text : String) :
    Agrees (r.backgrounds x y palette text.length)
      ((List.range (counted text)).map fun k =>
        .background (Code.columnAt x k) y palette .full) := by
  refine (r.agrees_count text.length).bind (Agrees.mapM (fun k => ?_) _)
  exact (r.agrees_after x k).bind (.always _)

theorem agrees_textLine (x y : Int32) (bg : Option PaletteId) (text : String) :
    Agrees (r.textLine x y bg text) (Page.textLine x y bg text) := by
  unfold Reckoning.textLine Page.textLine
  cases bg with
  | none => exact .always _
  | some palette =>
    rw [Option.toList_some, List.flatMap_singleton]
    exact (r.agrees_backgrounds x y palette text).bind (.always _)

theorem agrees_codeLine (options : Options) (ink : PaletteId) (x y : Int32) (code : String) :
    Agrees (r.codeLine options ink x y code) (Page.codeLine options ink x y code) :=
  (r.agrees_code code.toList x y options.palettes).bind (.always _)

end TileDeck.Reckoning
