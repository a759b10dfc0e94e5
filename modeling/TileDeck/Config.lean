import TileDeck.Files
import TileDeck.Page.Stage
import TileDeck.Toml.Document

set_option autoImplicit false

namespace TileDeck

structure Display where
  columns : UInt16
  rows : UInt16
  rate : UInt32
deriving DecidableEq, Repr

def Display.standard : Display := ⟨40, 28, 60⟩

structure PaletteEntry where
  id : PaletteId
  rgb : String
deriving DecidableEq, Repr

structure Config where
  display : Display
  port : UInt8
  highlight : Code.Palettes
  palette : List PaletteEntry
  images : Option String
deriving DecidableEq, Repr

namespace Config

def standard : Config := ⟨.standard, 0, .standard, [], none⟩

inductive Defect
  | emptyDisplay
  | zeroRate
  | badColour (entry : PaletteEntry)
deriving DecidableEq, Repr

inductive Error
  | unreadable (path : String) (fault : Files.Fault)
  | malformed
  | invalid (defect : Defect)
deriving DecidableEq, Repr

def Defect.describe : Defect → String
  | emptyDisplay => "display size must be at least 1x1"
  | zeroRate => "fps must be positive"
  | badColour entry => s!"palette {entry.id}: '{entry.rgb}' is not RGB or RRGGBB hex"

def Error.message : Error → String
  | unreadable path fault => s!"Configuration error: failed to read {path}: {fault.message}"
  | malformed => "Configuration error: malformed document"
  | invalid defect => s!"Invalid configuration: {defect.describe}"

namespace Decode

open Toml (Value)

/-- The values of some fields. They are given by name, no other names being admitted, or in order;
then those at the end may be left out, and what goes beyond them does not count. -/
def fields? (names : List String) : Value → Option (List (String × Value))
  | .table entries => if entries.all fun e => names.contains e.1 then some entries else none
  | .array items => some (names.zip items)
  | _ => none

def field? {α : Type} (fields : List (String × Value)) (name : String) (default : α)
    (read : Value → Option α) : Option α :=
  match fields.lookup name with
  | some value => read value
  | none => some default

def below? (bound : Nat) : Value → Option Nat
  | .integer n => if 0 ≤ n ∧ n < bound then some n.toNat else none
  | _ => none

def byte? (v : Value) : Option UInt8 := (below? UInt8.size v).map UInt8.ofNat

def size? (v : Value) : Option UInt16 := (below? UInt16.size v).map UInt16.ofNat

def rate? (v : Value) : Option UInt32 := (below? UInt32.size v).map UInt32.ofNat

def string? : Value → Option String
  | .string s => some s
  | _ => none

def display? (v : Value) : Option Display := do
  let fields ← fields? ["columns", "rows", "fps"] v
  let columns ← field? fields "columns" Display.standard.columns size?
  let rows ← field? fields "rows" Display.standard.rows size?
  let rate ← field? fields "fps" Display.standard.rate rate?
  return ⟨columns, rows, rate⟩

def port? (v : Value) : Option UInt8 := do
  let fields ← fields? ["port"] v
  field? fields "port" 0 byte?

def highlight? (v : Value) : Option Code.Palettes := do
  let fields ← fields? ["plain", "keyword", "identifier", "string"] v
  let plain ← field? fields "plain" Code.Palettes.standard.plain byte?
  let keyword ← field? fields "keyword" Code.Palettes.standard.keyword byte?
  let identifier ← field? fields "identifier" Code.Palettes.standard.identifier byte?
  let literal ← field? fields "string" Code.Palettes.standard.literal byte?
  return ⟨plain, keyword, identifier, literal⟩

def paletteEntry? (v : Value) : Option PaletteEntry := do
  let fields ← fields? ["id", "rgb"] v
  let id ← (← fields.lookup "id") |> byte?
  let rgb ← (← fields.lookup "rgb") |> string?
  return ⟨id, rgb⟩

def palette? : Value → Option (List PaletteEntry)
  | .array items => items.mapM paletteEntry?
  | _ => none

def config? (entries : List (String × Value)) : Option Config := do
  let fields ← fields? ["display", "input", "highlight", "palette", "images"] (.table entries)
  let display ← field? fields "display" standard.display display?
  let port ← field? fields "input" standard.port port?
  let highlight ← field? fields "highlight" standard.highlight highlight?
  let palette ← field? fields "palette" standard.palette palette?
  let images ← field? fields "images" standard.images fun v => (string? v).map some
  return ⟨display, port, highlight, palette, images⟩

end Decode

def colour (entry : PaletteEntry) : Except Defect (PaletteId × Rgb) :=
  match Rgb.ofMarked? entry.rgb.toList with
  | some rgb => .ok (entry.id, rgb)
  | none => .error (.badColour entry)

def colours (config : Config) : Except Defect (List (PaletteId × Rgb)) :=
  config.palette.mapM colour

/-- The size is checked first, then the rate, then the colours. -/
def validate (config : Config) : Except Defect Unit :=
  if config.display.columns = 0 ∨ config.display.rows = 0 then .error .emptyDisplay
  else if config.display.rate = 0 then .error .zeroRate
  else config.colours.map fun _ => ()

def options (config : Config) : Options :=
  ⟨config.port, config.highlight, Int32.ofNat config.display.columns.toNat⟩

def ofToml (text : String) : Except Error Config :=
  match (Toml.parse? text).bind Decode.config? with
  | none => .error .malformed
  | some config =>
    match config.validate with
    | .error defect => .error (.invalid defect)
    | .ok () => .ok config

def read (files : Files.Node) (path : String) : Except Error Config :=
  match Files.read files path with
  | .error fault => .error (.unreadable path fault)
  | .ok text => ofToml text

def present (files : Files.Node) (path : String) : Bool := (Files.resolve files path).isOk

/-- The configuration of a path, or else of the usual place. The path has to be there, the usual
place need not. -/
def load (files : Files.Node) (usual : String) : Option String → Except Error Config
  | some path => read files path
  | none => if present files usual then read files usual else .ok standard

end Config

end TileDeck
