import TileDeck.Colour

set_option autoImplicit false

namespace TileDeck

structure Palette where
  slots : Vector (Option Rgb) 256

namespace Palette

def empty : Palette := ⟨Vector.replicate 256 none⟩

def colour? (palette : Palette) (id : PaletteId) : Option Rgb :=
  palette.slots[id.toFin]

def set (id : PaletteId) (colour : Rgb) (palette : Palette) : Palette :=
  ⟨palette.slots.set id.toNat (some colour) id.toNat_lt⟩

/-- Of two entries for a slot the later one holds. -/
def setAll (entries : List (PaletteId × Rgb)) (palette : Palette) : Palette :=
  entries.foldl (fun palette (id, colour) => palette.set id colour) palette

def powerOn : Palette := setAll powerOnPalette empty

theorem colour?_set (palette : Palette) (id other : PaletteId) (colour : Rgb) :
    (palette.set id colour).colour? other =
      if id = other then some colour else palette.colour? other := by
  simp [set, colour?, Vector.getElem_set, UInt8.toNat_inj]

end Palette

end TileDeck
