import TileDeck.Text.Blank
import TileDeck.Text.Lines

set_option autoImplicit false

namespace TileDeck

structure Page where
  text : String
deriving DecidableEq, Repr

def Page.isBlank (page : Page) : Bool := page.text.toList.all Text.isBlank

structure Deck where
  pages : List Page
deriving DecidableEq, Repr

namespace Deck

def isSeparator (line : List Char) : Bool := Text.trimEnd line == ['-', '-', '-']

/-- A page's text with one more line. Lines that are empty leave no trace at the top of a page. -/
def extend (text line : List Char) : List Char :=
  if text = [] then line else text ++ '\n' :: line

/-- The page texts of the lines that follow `text`. What stands behind the last separator is a page
unless it is blank. -/
def divide (text : List Char) : List (List Char) → List (List Char)
  | [] => if text.all Text.isBlank then [] else [text]
  | line :: rest =>
    if isSeparator line then text :: divide [] rest else divide (extend text line) rest

def parse (source : String) : Deck :=
  ⟨(divide [] (Text.lines source.toList)).map fun text => ⟨String.ofList text⟩⟩

def source (deck : Deck) : String :=
  String.ofList (deck.pages.flatMap fun page => page.text.toList ++ "\n---\n".toList)

def size (deck : Deck) : Nat := deck.pages.length

def page? (deck : Deck) (index : Nat) : Option Page := deck.pages[index]?

end Deck

end TileDeck
