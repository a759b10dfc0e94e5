set_option autoImplicit false

namespace TileDeck.Text

def lines (s : List Char) : List (List Char) := s.splitOn '\n'

/-- A line without the carriage return that may end it; only one is taken. -/
def dropReturn (s : List Char) : List Char :=
  if s.getLast? = some '\r' then s.dropLast else s

def cut? (mark : Char) : List Char → Option (List Char × List Char)
  | [] => none
  | c :: s => if c = mark then some ([], s) else (cut? mark s).map fun p => (c :: p.1, p.2)

def dropSpace : List Char → List Char
  | ' ' :: s => s
  | s => s

end TileDeck.Text
