import TileDeck.Primitive
import TileDeck.Code.Token

set_option autoImplicit false

namespace TileDeck.Code

def columnAt (x : Int32) (k : Nat) : Int32 := x + Int32.ofNat k

def Token.draw (x y : Int32) (palettes : Palettes) (token : Token) : List Primitive :=
  let text : Primitive := .text (columnAt x token.column) y (String.ofList token.text)
  .textPalette (palettes.slot token.kind) ::
    if token.kind = .literal then
      [.quote (columnAt x token.column - 1) y .opening, text,
        .quote (columnAt x (token.column + token.text.length)) y .closing]
    else [text]

def draw (line : List Char) (x y : Int32) (palettes : Palettes) : List Primitive :=
  (tokenize line).flatMap (Token.draw x y palettes)

end TileDeck.Code
