import TileDeck.Text.Numeral

set_option autoImplicit false

namespace TileDeck

abbrev PaletteId := UInt8

structure Rgb where
  red : UInt8
  green : UInt8
  blue : UInt8
deriving DecidableEq, Repr, Inhabited

namespace Rgb

def channel? (high low : Char) : Option UInt8 := do
  let h ← Text.digitOf? 16 high
  let l ← Text.digitOf? 16 low
  return UInt8.ofNat (16 * h + l)

def ofDigits? : List Char → Option Rgb
  | [r, g, b] => do return ⟨← channel? r r, ← channel? g g, ← channel? b b⟩
  | [r, r', g, g', b, b'] => do return ⟨← channel? r r', ← channel? g g', ← channel? b b'⟩
  | _ => none

def channelDigits (byte : UInt8) : List Char :=
  [Nat.digitChar (byte.toNat / 16), Nat.digitChar (byte.toNat % 16)]

def digits (colour : Rgb) : List Char :=
  channelDigits colour.red ++ channelDigits colour.green ++ channelDigits colour.blue

def ofHex? (s : String) : Option Rgb := ofDigits? s.toList

/-- A colour that marks `#` may stand before. -/
def ofMarked? (s : List Char) : Option Rgb := ofDigits? (s.dropWhile (· = '#'))

end Rgb

/-- The colours that every slot below sixteen has before a deck changes them. Slots zero to three
are those of code: plain words, keywords, identifiers and literals. -/
def powerOnPalette : List (PaletteId × Rgb) :=
  [(0, ⟨0xEE, 0xEE, 0xEE⟩), (1, ⟨0x89, 0xB4, 0xFA⟩), (2, ⟨0xF9, 0xE2, 0xAF⟩),
    (3, ⟨0xFA, 0xB3, 0x87⟩), (4, ⟨0x1E, 0x1E, 0x2E⟩), (5, ⟨0x31, 0x32, 0x44⟩),
    (6, ⟨0x45, 0x47, 0x5A⟩), (7, ⟨0xA6, 0xE3, 0xA1⟩), (8, ⟨0xF3, 0x8B, 0xA8⟩),
    (9, ⟨0x94, 0xE2, 0xD5⟩), (10, ⟨0xF5, 0xC2, 0xE7⟩), (11, ⟨0xCB, 0xA6, 0xF7⟩),
    (12, ⟨0x6C, 0x70, 0x86⟩), (13, ⟨0x00, 0x00, 0x00⟩), (14, ⟨0x88, 0x00, 0x00⟩),
    (15, ⟨0xFF, 0xFF, 0xFF⟩)]

end TileDeck
