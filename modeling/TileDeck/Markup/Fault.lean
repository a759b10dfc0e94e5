import TileDeck.Markup.Command

set_option autoImplicit false

namespace TileDeck.Markup

inductive Cause
  | missingDelimiter
  | fieldCount (expected : Arity) (got : Nat)
  | invalidNumber (field : String)
  | invalidColour (field : String)
  | invalidDirection (field : String)
  | outOfRange (field : String)
  | zeroLength
deriving DecidableEq, Repr

/-- A cause with the line of the page, counted from one, and the command it was found in. -/
structure Fault where
  line : Nat
  keyword : Keyword
  cause : Cause
deriving DecidableEq, Repr

def Cause.describe : Cause → String
  | missingDelimiter => "command is missing its ':' delimiter"
  | fieldCount expected got => s!"expects {expected.describe} field(s), got {got}"
  | invalidNumber field => s!"field '{field}' is not a valid number"
  | invalidColour field => s!"colour '{field}' is not RGB or RRGGBB hex"
  | invalidDirection field => s!"direction '{field}' is not one of r, l, u, d"
  | outOfRange field => s!"field '{field}' is out of range"
  | zeroLength => "length must be at least 1"

def Fault.message (fault : Fault) : String :=
  s!"line {fault.line}: `{fault.keyword.name}` {fault.cause.describe}"

end TileDeck.Markup
