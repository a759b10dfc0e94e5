import TileDeck.Text.Blank
import TileDeck.Text.Lines
import TileDeck.Text.Numeral
import TileDeck.Markup.Fault

set_option autoImplicit false

/-!
# Lines of a page

A line is a comment, a command, or goes on with what the command before it began. The head of a
command, up to the first colon, holds its fields between commas; what follows is its payload and
is not cut any further.
-/
namespace TileDeck.Markup

/-- The largest coordinate, box size or arrow length that a command takes. -/
def maxExtent : Int := 0x7FFF

inductive Line
  | comment
  | command (command : Command)
  | continuation (text : String)
deriving DecidableEq, Repr

structure Header where
  keyword : Keyword
  fields : List (List Char)
  payload : List Char
deriving DecidableEq, Repr

namespace Field

def invalidNumber (field : List Char) : Cause := .invalidNumber (String.ofList field)

def orFault {α : Type} (cause : Cause) : Option α → Except Cause α
  | some a => .ok a
  | none => .error cause

def byte (field : List Char) : Except Cause UInt8 :=
  orFault (invalidNumber field) (Text.byte? 10 field)

def hexByte (field : List Char) : Except Cause UInt8 :=
  orFault (invalidNumber field) (Text.hexByte? field)

def word (field : List Char) : Except Cause UInt32 :=
  orFault (invalidNumber field) (Text.word? field)

def byteOrNone (field : List Char) : Except Cause (Option UInt8) :=
  if field = [] then .ok none else (byte field).map some

/-- A signed word between two bounds, both included. -/
def within (low high : Int) (field : List Char) : Except Cause Int32 := do
  let n ← orFault (invalidNumber field) (Text.signedWord? field)
  if low ≤ n.toInt ∧ n.toInt ≤ high then return n
  else throw (.outOfRange (String.ofList field))

def coordinate (field : List Char) : Except Cause Int32 := within (-maxExtent) maxExtent field

def extent (field : List Char) : Except Cause Int32 := within 0 maxExtent field

def arrowLength (field : List Char) : Except Cause UInt32 := do
  let n ← extent field
  if n = 0 then throw .zeroLength else return UInt32.ofNat n.toNatClampNeg

def colour (field : List Char) : Except Cause Rgb :=
  orFault (.invalidColour (String.ofList field)) (Rgb.ofMarked? field)

def direction? (field : List Char) : Option Direction :=
  let word := String.ofList (field.map Char.toLower)
  if word = "r" ∨ word = "right" then some .right
  else if word = "l" ∨ word = "left" then some .left
  else if word = "u" ∨ word = "up" then some .up
  else if word = "d" ∨ word = "down" then some .down
  else none

def direction (field : List Char) : Except Cause Direction :=
  orFault (.invalidDirection (String.ofList field)) (direction? field)

end Field

namespace Header

def ofLine? (keyword : Keyword) (line : List Char) : Option Header :=
  (Text.cut? ':' line).map fun (head, payload) =>
    ⟨keyword, (head.splitOn ',').tail.map Text.trim, Text.dropSpace payload⟩

/-- An arrow's length is read before the rest of its fields. -/
def arrow (branches : Bool) (x y direction length : List Char) : Except Cause Command := do
  let length ← Field.arrowLength length
  let x ← Field.coordinate x
  let y ← Field.coordinate y
  let direction ← Field.direction direction
  return .arrow x y direction length branches

def build? (payload : String) : Keyword → List (List Char) → Option (Except Cause Command)
  | .text, [x, y] => some do
    let x ← Field.coordinate x
    let y ← Field.coordinate y
    return .text x y none payload
  | .text, [x, y, bg] => some do
    let x ← Field.coordinate x
    let y ← Field.coordinate y
    let bg ← Field.byteOrNone bg
    return .text x y bg payload
  | .textPalette, [id] => some do
    let id ← Field.byte id
    return .textPalette id
  | .setColour, [id, colour] => some do
    let colour ← Field.colour colour
    let id ← Field.byte id
    return .setColour id colour
  | .image, [x, y, name] => some do
    let x ← Field.coordinate x
    let y ← Field.coordinate y
    return .image x y (String.ofList name)
  | .code, [x, y] => some do
    let x ← Field.coordinate x
    let y ← Field.coordinate y
    return .code x y payload
  | .box, [x, y, width, height] => some do
    let x ← Field.coordinate x
    let y ← Field.coordinate y
    let width ← Field.extent width
    let height ← Field.extent height
    return .box x y width height none
  | .box, [x, y, width, height, bg] => some do
    let x ← Field.coordinate x
    let y ← Field.coordinate y
    let width ← Field.extent width
    let height ← Field.extent height
    let bg ← Field.byteOrNone bg
    return .box x y width height bg
  | .branchArrow, [x, y, direction, length] => some (arrow true x y direction length)
  | .arrow, [x, y, direction, length] => some (arrow false x y direction length)
  | .backdrop, [id] => some do
    let id ← Field.hexByte id
    return .backdrop id
  | .sleep, [frames] => some do
    let frames ← Field.word frames
    return .sleep frames
  | .title, _ => some (.ok (.title payload))
  | .pause, _ => some (.ok .pause)
  | .titleScreen, _ => some (.ok .titleScreen)
  | .demoGame, _ => some (.ok .demoGame)
  | .renderBackground, _ => some (.ok .renderBackground)
  | .scroll, _ => some (.ok .scroll)
  | .initProgress, _ => some (.ok .initProgress)
  | .hideProgress, _ => some (.ok .hideProgress)
  | .resetTimer, _ => some (.ok .resetTimer)
  | .hideTimer, _ => some (.ok .hideTimer)
  | .playSound, _ => some (.ok .playSound)
  | _, _ => none

def command (header : Header) : Except Cause Command :=
  match build? (String.ofList header.payload) header.keyword header.fields with
  | some result => result
  | none => .error (.fieldCount (header.keyword.arity?.getD ⟨0, 0⟩) header.fields.length)

end Header

namespace Line

def ofChars (number : Nat) (line : List Char) : Except Fault Line :=
  if line.head? = some '#' then .ok .comment
  else match Keyword.ofLine? line with
    | none => .ok (.continuation (String.ofList line))
    | some keyword =>
      match Header.ofLine? keyword line with
      | none => .error ⟨number, keyword, .missingDelimiter⟩
      | some header =>
        match header.command with
        | .ok built => .ok (.command built)
        | .error cause => .error ⟨number, keyword, cause⟩

/-- Read a line that ends with a newline, a carriage return before it, or nothing. -/
def parse (number : Nat) (raw : String) : Except Fault Line :=
  ofChars number (Text.dropReturn raw.toList)

end Line

end TileDeck.Markup
