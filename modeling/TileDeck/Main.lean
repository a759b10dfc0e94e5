import TileDeck.Machine.Presentation
import TileDeck.Terminal.Ansi
import TileDeck.Terminal.Key
import TileDeck.Terminal.Reckoned
import TileDeck.Terminal.Settings

set_option autoImplicit false

namespace TileDeck.Main

structure Arguments where
  deck : Option String
  config : Option String
  port : Option UInt8
  images : Option String

def usage : String := "usage: tiledeck DECK [--config PATH] [--port N] [--images DIR]"

def Arguments.read (so : Arguments) : List String → Option Arguments
  | [] => if so.deck.isSome then some so else none
  | "-c" :: path :: rest | "--config" :: path :: rest => { so with config := some path }.read rest
  | "-p" :: port :: rest | "--port" :: port :: rest =>
    (Text.byte? 10 port.toList).bind fun port => { so with port := some port }.read rest
  | "-i" :: dir :: rest | "--images" :: dir :: rest => { so with images := some dir }.read rest
  | deck :: rest =>
    if so.deck.isSome ∨ deck.startsWith "-" then none else { so with deck := some deck }.read rest

def imageNames (deck : Deck) : List String :=
  (deck.pages.flatMap fun page => Page.scriptLines page.text).filterMap fun line =>
    match Markup.Line.parse 0 line with
    | .ok (.command (.image _ _ name)) => some name
    | _ => none

def stem (path : String) : String :=
  let name := ((path.toList.splitOn '/').getLast?).getD []
  match (name.splitOn '.').dropLast with
  | [] => String.ofList name
  | parts => if parts = [[]] then String.ofList name else String.ofList (['.'].intercalate parts)

def readText (path : String) : IO (Except Files.Fault String) := do
  try
    return (Files.Node.file (← IO.FS.readBinFile path)).text
  catch _ => return .error .missing

def usualConfig : IO (Option String) := do
  if let some dir ← IO.getEnv "XDG_CONFIG_HOME" then return some s!"{dir}/tiledeck/config.toml"
  return (← IO.getEnv "HOME").map fun home => s!"{home}/.config/tiledeck/config.toml"

def readConfig : Option String → IO (Except Config.Error Config)
  | some path => do
    match ← readText path with
    | .ok text => return Config.ofToml text
    | .error fault => return .error (.unreadable path fault)
  | none => do
    match ← usualConfig with
    | none => return .ok .standard
    | some path =>
      match ← readText path with
      | .ok text => return Config.ofToml text
      | .error .missing => return .ok .standard
      | .error fault => return .error (.unreadable path fault)

def readGallery (deck : Deck) : Option String → IO Gallery
  | none => return .empty
  | some dir => do
    let mut gallery := Gallery.empty
    for name in imageNames deck do
      if let .ok art ← readText s!"{dir}/{name}.txt" then gallery := gallery.insert name art
    return gallery

def fail (message : String) : IO UInt32 := do
  IO.eprintln s!"Error: {message}"
  return 1

partial def present (deck : Deck) (options : Options) (stage : Stage Terminal) : IO UInt32 := do
  if stage.remote.pad.finished then return 0
  match Terminal.machine.cycle deck options stage with
  | none => fail "attempt to reckon with overflow"
  | some (turn, stage) =>
    IO.print (Terminal.Ansi.screen stage.surface.painted)
    if turn.isSome then present deck options stage else return 0

def run (arguments : Arguments) (path : String) : IO UInt32 := do
  match ← readConfig arguments.config with
  | .error e => fail e.message
  | .ok config =>
    let config := { config with
      port := arguments.port.getD config.port
      images := arguments.images.orElse fun _ => config.images }
    match config.colours, ← readText path with
    | .error defect, _ => fail (Config.Error.invalid defect).message
    | _, .error fault => fail s!"Failed to read deck {path}: {fault.message}"
    | .ok colours, .ok source =>
      let deck := Deck.parse source
      let gallery ← readGallery deck config.images
      let keys := (← (← IO.getStdin).readToEnd).toList.map Terminal.Key.ofChar
      let display := config.settings colours (stem path)
      match Terminal.sum? display.columns 2, Terminal.sum? display.rows 3 with
      | some width, some height =>
        let terminal := Terminal.start ⟨width, height⟩ display gallery
        let pad := Terminal.Key.pad config.port keys
        present deck config.options
          (Presentation.start (.ready config.options deck.size pad terminal))
      | _, _ => fail "no terminal is large enough"

end TileDeck.Main

open TileDeck Main in
def main (arguments : List String) : IO UInt32 := do
  match Arguments.read ⟨none, none, none, none⟩ arguments with
  | some arguments => run arguments (arguments.deck.getD "")
  | none => do
    IO.eprintln usage
    return 2
