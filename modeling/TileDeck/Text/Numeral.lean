set_option autoImplicit false

namespace TileDeck.Text

def digit? (c : Char) : Option Nat :=
  if '0' ≤ c ∧ c ≤ '9' then some (c.toNat - '0'.toNat)
  else if 'a' ≤ c ∧ c ≤ 'f' then some (c.toNat - 'a'.toNat + 10)
  else if 'A' ≤ c ∧ c ≤ 'F' then some (c.toNat - 'A'.toNat + 10)
  else none

def digitOf? (base : Nat) (c : Char) : Option Nat := (digit? c).filter (· < base)

def digitsFrom? (base n : Nat) : List Char → Option Nat
  | [] => some n
  | c :: s => (digitOf? base c).bind fun d => digitsFrom? base (n * base + d) s

def digits? (base : Nat) : List Char → Option Nat
  | [] => none
  | s => digitsFrom? base 0 s

def unsigned? (base : Nat) : List Char → Option Nat
  | '+' :: s => digits? base s
  | s => digits? base s

def signed? : List Char → Option Int
  | '-' :: s => (digits? 10 s).map fun n => -(n : Int)
  | s => (unsigned? 10 s).map fun n => (n : Int)

def byte? (base : Nat) (s : List Char) : Option UInt8 :=
  ((unsigned? base s).filter (· < UInt8.size)).map UInt8.ofNat

def word? (s : List Char) : Option UInt32 :=
  ((unsigned? 10 s).filter (· < UInt32.size)).map UInt32.ofNat

def signedWord? (s : List Char) : Option Int32 :=
  ((signed? s).filter fun n => -0x80000000 ≤ n && n ≤ 0x7FFFFFFF).map Int32.ofInt

/-- A byte in hexadecimal, with or without the mark `0x` or `0X`. -/
def hexByte? : List Char → Option UInt8
  | '0' :: 'x' :: s => byte? 16 s
  | '0' :: 'X' :: s => byte? 16 s
  | s => byte? 16 s

def numeral (base n : Nat) : List Char := Nat.toDigits base n

def signedNumeral : Int → List Char
  | .ofNat n => numeral 10 n
  | .negSucc n => '-' :: numeral 10 (n + 1)

end TileDeck.Text
