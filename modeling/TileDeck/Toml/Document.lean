import TileDeck.Toml.Scalar

set_option autoImplicit false

namespace TileDeck.Toml

open Text Text.Parser Scalar

/-- How deep arrays and tables may stand inside each other in a value, and how many parts a key may
have, each of which is a table inside the one before. -/
def maxDepth : Nat := 79

namespace Document

def gap : Parser Unit := do let _ ← run isGap

def comment : Parser Unit := do
  let _ ← char '#'
  let _ ← run isText

def wideGap : Parser Unit := do
  let _ ← many do
    gap
    orElse () comment
    newline
  gap

def isBare (c : Char) : Bool := c.isAlphanum || c == '-' || c == '_'

def bare : Parser String := String.ofList <$> runSome isBare

def simpleKey : Parser String := basic <|> literal <|> bare

def parts : Parser (List String) := do
  let part := gap *> simpleKey <* gap
  let first ← part
  let rest ← many (char '.' *> part)
  return first :: rest

def key : Parser (List String) :=
  parts.such fun path => if path.length ≤ maxDepth then some path else none

def separated {α : Type} (between : Parser Unit) (item : Parser α) : Parser (List α) :=
  orElse [] do
    let first ← item
    between
    let rest ← many do
      let _ ← char ','
      between
      let a ← item
      between
      return a
    return first :: rest

def array (item : Parser Value) : Parser Value := do
  let _ ← char '['
  wideGap
  let items ← separated wideGap item
  if !items.isEmpty then
    orElse () do
      let _ ← char ','
      wideGap
  let _ ← char ']'
  return .array items

def definition (item : Parser Value) : Parser (List String × Value) := do
  let path ← key
  let _ ← char '='
  gap
  let v ← item
  return (path, v)

def inlineTable (item : Parser Value) : Parser Value := do
  let _ ← char '\x7b'
  gap
  let entries ← (separated gap (definition item)).such fun definitions =>
    definitions.foldlM (fun entries (path, v) => Entries.define v path entries) []
  let _ ← char '\x7d'
  return .table (Item.freezeEntries entries)

def value : Nat → Parser Value
  | 0 => scalar
  | depth + 1 => scalar <|> array (value depth) <|> inlineTable (value depth)

inductive Entry
  | blank
  | definition (path : List String) (value : Value)
  | table (path : List String)
  | element (path : List String)

def header : Parser Entry :=
  (do
    word ['[', '[']
    let path ← key
    word [']', ']']
    return .element path) <|> do
    let _ ← char '['
    let path ← key
    let _ ← char ']'
    return .table path

def line : Parser Entry := do
  gap
  let entry ← orElse .blank (header <|> (do
    let (path, v) ← definition (value maxDepth)
    return .definition path v))
  gap
  orElse () comment
  return entry

def lines : Parser (List Entry) := do
  let first ← line
  let rest ← many (newline *> line)
  return first :: rest

/-- A document as far as it is read: its tables, and the one that definitions go into. -/
structure State where
  root : Entries
  current : List String

namespace State

def empty : State := ⟨[], []⟩

def add (state : State) : Entry → Option State
  | .blank => some state
  | .definition path v =>
    (Entries.within (Entries.define v path) state.current state.root).map
      fun root => { state with root := root }
  | .table path => do
    let name ← path.getLast?
    let root ← Entries.within (Entries.beginTable name) path.dropLast state.root
    return ⟨root, path⟩
  | .element path => do
    let name ← path.getLast?
    let root ← Entries.within (Entries.beginElement name) path.dropLast state.root
    return ⟨root, path⟩

end State

def dropMark : List Char → List Char
  | '\ufeff' :: s => s
  | s => s

end Document

open Document in
def parse? (text : String) : Option (List (String × Value)) := do
  let entries ← whole? lines (dropMark text.toList)
  let state ← entries.foldlM State.add .empty
  return Item.freezeEntries state.root

end TileDeck.Toml
