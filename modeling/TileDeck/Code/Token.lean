import TileDeck.Colour

set_option autoImplicit false

/-!
# Tokens of a line of code

Quotes part a line into code and the bodies of literals, in turn. Code is cut into runs of spaces
and words; a word is an identifier, a keyword or plain. Every token knows the column it starts at.
-/
namespace TileDeck.Code

inductive TokenKind
  | identifier
  | keyword
  | plain
  | whitespace
  | literal
deriving DecidableEq, Repr

/-- A run of one kind. The column is counted from the start of the line, quotes included. -/
structure Token where
  kind : TokenKind
  text : List Char
  column : Nat
deriving DecidableEq, Repr

structure Palettes where
  plain : PaletteId
  keyword : PaletteId
  identifier : PaletteId
  literal : PaletteId
deriving DecidableEq, Repr

def Palettes.standard : Palettes := ⟨0, 1, 2, 3⟩

def Palettes.slot (palettes : Palettes) : TokenKind → PaletteId
  | .identifier => palettes.identifier
  | .keyword => palettes.keyword
  | .plain | .whitespace => palettes.plain
  | .literal => palettes.literal

def reservedWords : List String :=
  ["alias", "and", "begin", "break", "case", "class", "def", "do", "else", "elsif", "end",
    "ensure", "false", "for", "if", "in", "loop", "module", "next", "nil", "not", "or", "redo",
    "rescue", "retry", "return", "self", "super", "then", "true", "undef", "unless", "until",
    "when", "while", "yield"]

/-- A capital letter decides before the list of reserved words does. -/
def classify (word : List Char) : TokenKind :=
  if word.head?.any Char.isUpper then .identifier
  else if reservedWords.contains (String.ofList word) then .keyword
  else .plain

/-- What stands between the quotes: code at even places, literals at odd ones. -/
def fragments (line : List Char) : List (List Char) := line.splitOn '"'

def runs (code : List Char) : List (List Char) :=
  code.splitBy fun c d => (c == ' ') == (d == ' ')

theorem flatten_loop {sep : Char → Char → Bool} (rest : List Char) (c : Char) (run : List Char)
    (done : List (List Char)) : (List.splitBy.loop sep rest c run done).flatten =
      done.reverse.flatten ++ run.reverse ++ c :: rest := by
  induction rest generalizing c run done with
  | nil =>
    change ((c :: run).reverse :: done).reverse.flatten = _
    simp
  | cons d rest ih =>
    change (match sep c d with
      | true => List.splitBy.loop sep rest d (c :: run) done
      | false => List.splitBy.loop sep rest d [] ((c :: run).reverse :: done)).flatten = _
    cases sep c d <;> simp [ih]

theorem flatten_runs (code : List Char) : (runs code).flatten = code := by
  cases code with
  | nil => rfl
  | cons c rest => exact flatten_loop rest c [] []

def runKind (run : List Char) : TokenKind :=
  if run.head? = some ' ' then .whitespace else classify run

def place (column : Nat) : List (List Char) → List Token
  | [] => []
  | run :: rest => ⟨runKind run, run, column⟩ :: place (column + run.length) rest

mutual

def codeFirst (column : Nat) : List (List Char) → List Token
  | [] => []
  | code :: rest => place column (runs code) ++ literalFirst (column + code.length) rest

/-- The tokens of fragments of which the first is a literal; its quotes take a column each. -/
def literalFirst (column : Nat) : List (List Char) → List Token
  | [] => []
  | body :: rest => ⟨.literal, body, column + 1⟩ :: codeFirst (column + body.length + 2) rest

end

def tokenize (line : List Char) : List Token := codeFirst 0 (fragments line)

end TileDeck.Code
