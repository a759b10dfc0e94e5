set_option autoImplicit false

/-!
# Values of a TOML document

Tables may be written in several places: under a header, by dotted keys, and as the elements of an
array of tables. While a document is read its tables remember how they came about, since only some
of them may be added to.
-/
namespace TileDeck.Toml

inductive Value
  | string (text : String)
  | integer (n : Int)
  | boolean (b : Bool)
  | real (text : String)
  | moment (text : String)
  | array (items : List Value)
  | table (entries : List (String × Value))

/-- How a table came about. -/
inductive Origin
  | header
  /-- By a header of a table inside it. -/
  | implied
  /-- By a dotted key. -/
  | dotted
deriving DecidableEq, Repr

inductive Item
  | value (value : Value)
  | table (origin : Origin) (entries : List (String × Item))
  | tables (elements : List (List (String × Item)))

abbrev Entries := List (String × Item)

namespace Item

mutual

def freeze : Item → Value
  | value v => v
  | table _ entries => .table (freezeEntries entries)
  | tables elements => .array (freezeElements elements)

def freezeEntries : List (String × Item) → List (String × Value)
  | [] => []
  | (key, item) :: rest => (key, freeze item) :: freezeEntries rest

def freezeElements : List (List (String × Item)) → List Value
  | [] => []
  | entries :: rest => .table (freezeEntries entries) :: freezeElements rest

end

end Item

namespace Entries

def put (key : String) (item : Item) (entries : Entries) : Entries :=
  if entries.any (·.1 == key) then
    entries.map fun e => if e.1 == key then (key, item) else e
  else entries ++ [(key, item)]

def inLast (f : Entries → Option Entries) (elements : List Entries) : Option (List Entries) :=
  elements.getLast?.bind fun last => (f last).map fun last => elements.dropLast ++ [last]

def within (f : Entries → Option Entries) : List String → Entries → Option Entries
  | [], entries => f entries
  | key :: rest, entries =>
    match entries.lookup key with
    | none => (within f rest []).map fun inner => entries.put key (.table .implied inner)
    | some (.value _) => none
    | some (.table origin inner) =>
      (within f rest inner).map fun inner => entries.put key (.table origin inner)
    | some (.tables elements) =>
      (inLast (within f rest) elements).map fun elements => entries.put key (.tables elements)

/-- Define a dotted key. A key is defined once, and only tables of dotted keys are added to; the path
to such a table may lead through implied ones and through the last element of an array. -/
def define (value : Value) : List String → Entries → Option Entries
  | [], _ => none
  | [key], entries =>
    if entries.any (·.1 == key) then none else some (entries ++ [(key, .value value)])
  | key :: rest, entries =>
    match entries.lookup key with
    | none => (define value rest []).map fun inner => entries.put key (.table .dotted inner)
    | some (.table .dotted inner) =>
      (define value rest inner).map fun inner => entries.put key (.table .dotted inner)
    | some (.table .implied inner) =>
      if rest.length < 2 then none
      else (define value rest inner).map fun inner => entries.put key (.table .implied inner)
    | some (.tables elements) =>
      if rest.length < 2 then none
      else (inLast (define value rest) elements).map fun elements => entries.put key (.tables elements)
    | some _ => none

/-- Begin the table of a header. One that other headers imply is begun by its own. -/
def beginTable (key : String) (entries : Entries) : Option Entries :=
  match entries.lookup key with
  | none => some (entries.put key (.table .header []))
  | some (.table .implied inner) => some (entries.put key (.table .header inner))
  | some _ => none

def beginElement (key : String) (entries : Entries) : Option Entries :=
  match entries.lookup key with
  | none => some (entries.put key (.tables [[]]))
  | some (.tables elements) => some (entries.put key (.tables (elements ++ [[]])))
  | some _ => none

end Entries

end TileDeck.Toml
