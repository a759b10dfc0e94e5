import TileDeck.Files
import TileDeck.Text.Blank

set_option autoImplicit false

namespace TileDeck

structure Gallery where
  images : List (String × List String)
deriving DecidableEq, Repr

namespace Gallery

def empty : Gallery := ⟨[]⟩

/-- The rows of an image, without the blanks that end them. A newline at the end begins no row. -/
def rows (art : String) : List String :=
  let lines := art.toList.splitOn '\n'
  let lines := if lines.getLast? = some [] then lines.dropLast else lines
  lines.map fun line => String.ofList (Text.trimEnd line)

def insert (name art : String) (gallery : Gallery) : Gallery :=
  ⟨(name, rows art) :: gallery.images.filter (·.1 ≠ name)⟩

def get? (name : String) (gallery : Gallery) : Option (List String) := gallery.images.lookup name

def size (gallery : Gallery) : Nat := gallery.images.length

def isEmpty (gallery : Gallery) : Bool := gallery.images.isEmpty

/-- The image name of a file name; a bare extension is none. -/
def imageName? (file : String) : Option String :=
  let extension := ".txt".toList
  let name := file.toList
  if extension.isSuffixOf name ∧ extension.length < name.length then
    some (String.ofList (name.take (name.length - extension.length)))
  else none

def load (gallery : Gallery) (entry : String × Files.Node) : Except Files.Fault Gallery :=
  match imageName? entry.1 with
  | none => .ok gallery
  | some name => (entry.2.text).map fun art => gallery.insert name art

/-- The gallery of a directory. The first entry that cannot be read is the answer. -/
def ofDirectory (entries : List (String × Files.Node)) : Except Files.Fault Gallery :=
  entries.foldlM load empty

end Gallery

end TileDeck
