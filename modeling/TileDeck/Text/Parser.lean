set_option autoImplicit false

namespace TileDeck.Text

abbrev Parser := StateT (List Char) Option

namespace Parser

variable {α β : Type}

def satisfy (p : Char → Bool) : Parser Char
  | [] => none
  | c :: s => if p c then some (c, s) else none

def char (c : Char) : Parser Char := satisfy (· == c)

def word : List Char → Parser Unit
  | [] => pure ()
  | c :: rest => do
    let _ ← char c
    word rest

def run (p : Char → Bool) : Parser (List Char) := fun s => some (s.takeWhile p, s.dropWhile p)

def runSome (p : Char → Bool) : Parser (List Char) := do
  let first ← satisfy p
  let rest ← run p
  return first :: rest

/-- The rest of the text from here on starts as asked for. -/
def ahead (p : List Char → Bool) : Parser Unit := fun s => if p s then some ((), s) else none

def orElse (a : α) (p : Parser α) : Parser α := p <|> pure a

/-- As often as the parser takes something; what takes nothing is done once at most. -/
def many (p : Parser α) (s : List Char) : Option (List α × List Char) :=
  match p s with
  | none => some ([], s)
  | some (a, rest) =>
    if _h : rest.length < s.length then (many p rest).map fun (as, t) => (a :: as, t)
    else some ([a], rest)
termination_by s.length

def times (p : Parser α) : Nat → Parser (List α)
  | 0 => pure []
  | n + 1 => do
    let a ← p
    let as ← times p n
    return a :: as

def such (p : Parser α) (f : α → Option β) : Parser β := do
  let a ← p
  match f a with
  | some b => pure b
  | none => failure

def taken (p : Parser Unit) : Parser String := fun s =>
  (p s).map fun ((), rest) => (String.ofList (s.take (s.length - rest.length)), rest)

def whole? (p : Parser α) (s : List Char) : Option α :=
  match p s with
  | some (a, []) => some a
  | _ => none

end Parser

end TileDeck.Text
