import TileDeck.Text.Decimal
import TileDeck.Text.Parser
import TileDeck.Toml.Value

set_option autoImplicit false

namespace TileDeck.Toml

open Text Text.Parser

namespace Scalar

def apostrophe : Char := '\x27'

def isGap (c : Char) : Bool := c == ' ' || c == '\t'

/-- Every character but the control characters; a tab is none of them here. -/
def isText (c : Char) : Bool := c == '\t' || (0x20 ≤ c.toNat && c.toNat ≠ 0x7F)

def isBasic (c : Char) : Bool := isText c && c ≠ '"' && c ≠ '\\'

def isLiteral (c : Char) : Bool := isText c && c ≠ apostrophe

def isDecimal (c : Char) : Bool := (digitOf? 10 c).isSome

def newline : Parser Char := word ['\r', '\n'] *> pure '\n' <|> char '\n'

def codePoint (digits : Nat) : Parser Char :=
  (times (satisfy fun c => (digitOf? 16 c).isSome) digits).such fun s =>
    (digits? 16 s).bind fun n => if n.isValidChar then some (Char.ofNat n) else none

def escape : Parser Char := do
  let _ ← char '\\'
  let c ← satisfy fun _ => true
  match c with
  | 'b' => pure '\x08'
  | 't' => pure '\t'
  | 'n' => pure '\n'
  | 'f' => pure '\x0c'
  | 'r' => pure '\r'
  | '"' => pure '"'
  | '\\' => pure '\\'
  | 'u' => codePoint 4
  | 'U' => codePoint 8
  | _ => failure

def alone (c : Char) : List Char := [c]

def basic : Parser String := do
  let _ ← char '"'
  let pieces ← many (runSome isBasic <|> alone <$> escape)
  let _ ← char '"'
  return String.ofList pieces.flatten

def literal : Parser String := do
  let _ ← char apostrophe
  let s ← run isLiteral
  let _ ← char apostrophe
  return String.ofList s

def thrice (c : Char) : List Char := [c, c, c]

def loneMark (c : Char) : Parser Char :=
  ahead (fun s => !(thrice c).isPrefixOf s) *> char c

/-- Three marks end a string; up to two more before them belong to it. -/
def closing (c : Char) : Parser (List Char) :=
  (word [c, c, c, c, c] *> pure [c, c]) <|> (word [c, c, c, c] *> pure [c]) <|>
    (word (thrice c) *> pure [])

def continuation : Parser (List Char) := do
  let _ ← char '\\'
  let _ ← run isGap
  let _ ← newline
  let _ ← many (satisfy isGap <|> newline)
  return []

def multiline (mark : Char) (piece : Parser (List Char)) : Parser String := do
  word (thrice mark)
  let _ ← orElse '\n' newline
  let pieces ← many (piece <|> alone <$> (newline <|> loneMark mark))
  let last ← closing mark
  return String.ofList (pieces.flatten ++ last)

def multilineBasic : Parser String :=
  multiline '"' (continuation <|> runSome isBasic <|> alone <$> escape)

def multilineLiteral : Parser String :=
  multiline apostrophe (runSome isLiteral)

def string : Parser String :=
  multilineBasic <|> multilineLiteral <|>
    (ahead (fun s => !(thrice '"').isPrefixOf s && !(thrice apostrophe).isPrefixOf s) *>
      (basic <|> literal))

def digitRun (base : Nat) : Parser (List Char) := do
  let digits := runSome fun c => (digitOf? base c).isSome
  let first ← digits
  let rest ← many (char '_' *> digits)
  return first ++ rest.flatten

def sign : Parser (List Char) :=
  orElse [] (alone <$> satisfy fun c => c == '+' || c == '-')

def wholeNumber : Parser (List Char) :=
  (ahead (fun s => s.head? ≠ some '0') *> digitRun 10) <|> alone <$> char '0'

def inRange (n : Int) : Option Int :=
  if -0x8000000000000000 ≤ n ∧ n ≤ 0x7FFFFFFFFFFFFFFF then some n else none

def based (letter : Char) (base : Nat) : Parser Int := do
  word ['0', letter]
  (digitRun base).such fun s => (digits? base s).bind fun n => inRange n

def decimal : Parser Int :=
  such (do return (← sign) ++ (← wholeNumber)) fun s => (signed? s).bind inRange

def integer : Parser Int := based 'x' 16 <|> based 'o' 8 <|> based 'b' 2 <|> decimal

def fraction : Parser (List Char) := char '.' *> digitRun 10

def exponent : Parser Int := do
  let _ ← satisfy fun c => c == 'e' || c == 'E'
  such (do return (← sign) ++ (← digitRun 10)) signed?

def realNumber : Parser Decimal :=
  such (do
    let whole ← wholeNumber
    let (fraction, exponent) ← (do return (← fraction, ← orElse 0 exponent)) <|>
      (do return ([], ← exponent))
    return Decimal.ofDigits? whole fraction exponent) id

def special : Parser Unit := word ['i', 'n', 'f'] <|> word ['n', 'a', 'n']

/-- Infinity has to be written as such; only below zero may a number be too large to be told
from it. -/
def real : Parser Unit := do
  let s ← sign
  special <|> realNumber.such fun d => if s ≠ ['-'] ∧ d.overflows then none else some ()

def boolean : Parser Bool :=
  (word "true".toList *> pure true) <|> (word "false".toList *> pure false)

def upTo (digits low high : Nat) : Parser Nat :=
  (times (satisfy isDecimal) digits).such fun s =>
    (digits? 10 s).filter fun n => low ≤ n && n ≤ high

def isLeap (year : Nat) : Bool := year % 4 == 0 && (year % 100 ≠ 0 || year % 400 == 0)

def daysIn (year month : Nat) : Nat :=
  if month = 2 then (if isLeap year then 29 else 28)
  else if month = 4 ∨ month = 6 ∨ month = 9 ∨ month = 11 then 30
  else 31

def date : Parser Unit := do
  let year ← upTo 4 0 9999
  let _ ← char '-'
  let month ← upTo 2 1 12
  let _ ← char '-'
  let _ ← upTo 2 1 (daysIn year month)

def time : Parser Unit := do
  let _ ← upTo 2 0 23
  let _ ← char ':'
  let _ ← upTo 2 0 59
  let _ ← char ':'
  let _ ← upTo 2 0 60
  orElse () do
    let _ ← char '.'
    let _ ← satisfy isDecimal
    let _ ← run isDecimal

def offset : Parser Unit :=
  (do let _ ← satisfy fun c => c == 'Z' || c == 'z') <|> do
    let _ ← satisfy fun c => c == '+' || c == '-'
    let _ ← upTo 2 0 23
    let _ ← char ':'
    let _ ← upTo 2 0 59

def dateTime : Parser Unit := do
  date
  orElse () do
    let _ ← satisfy fun c => c == 'T' || c == 't' || c == ' '
    time
    orElse () offset

end Scalar

open Scalar in
def scalar : Parser Value :=
  Value.string <$> string <|> Value.boolean <$> boolean <|>
    Value.moment <$> taken (dateTime <|> time) <|> Value.real <$> taken real <|>
    Value.integer <$> integer

end TileDeck.Toml
