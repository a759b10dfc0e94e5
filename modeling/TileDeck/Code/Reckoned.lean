import TileDeck.Code.Drawing
import TileDeck.Reckoning

set_option autoImplicit false

namespace TileDeck

open Code Coordinate

structure Code.PlacedToken where
  kind : TokenKind
  text : List Char
  offset : Int32
deriving DecidableEq, Repr

def Code.Token.placed (token : Token) : PlacedToken :=
  ⟨token.kind, token.text, Int32.ofNat token.column⟩

namespace Reckoning

variable (r : Reckoning)

def place (offset : Int32) : List (List Char) → Option (List PlacedToken × Int32)
  | [] => some ([], offset)
  | run :: rest => do
    let count ← r.count? run.length
    let next ← sum? offset count
    let (tokens, last) ← place next rest
    return (⟨runKind run, run, offset⟩ :: tokens, last)

mutual

def codeFirst (offset : Int32) : List (List Char) → Option (List PlacedToken)
  | [] => some []
  | code :: rest => do
    let (tokens, next) ← r.place offset (runs code)
    let others ← literalFirst next rest
    return tokens ++ others

def literalFirst (offset : Int32) : List (List Char) → Option (List PlacedToken)
  | [] => some []
  | body :: rest => do
    let start ← sum? offset 1
    let count ← r.count? body.length
    let width ← sum? count 2
    let next ← sum? offset width
    let others ← codeFirst next rest
    return ⟨.literal, body, start⟩ :: others

end

def tokenize (line : List Char) : Option (List PlacedToken) := r.codeFirst 0 (fragments line)

def token (x y : Int32) (palettes : Palettes) (token : PlacedToken) : Option (List Primitive) := do
  let start ← sum? x token.offset
  let text : Primitive := .text start y (String.ofList token.text)
  if token.kind = .literal then
    let opening ← difference? start 1
    let count ← r.count? token.text.length
    let close ← sum? token.offset count
    let closing ← sum? x close
    return [.textPalette (palettes.slot token.kind), .quote opening y .opening, text,
      .quote closing y .closing]
  else return [.textPalette (palettes.slot token.kind), text]

/-- A line of code as it is drawn by sums that cannot go round. -/
def code (line : List Char) (x y : Int32) (palettes : Palettes) : Option (List Primitive) := do
  let tokens ← r.tokenize line
  let drawn ← tokens.mapM (r.token x y palettes)
  return drawn.flatten

theorem agrees_place (pieces : List (List Char)) (column : Nat) :
    Agrees (r.place (Int32.ofNat column) pieces)
      ((Code.place column pieces).map Token.placed,
        Int32.ofNat (column + pieces.flatten.length)) := by
  induction pieces generalizing column with
  | nil => exact .always _
  | cons run rest ih =>
    rw [List.flatten_cons, List.length_append, ← Nat.add_assoc]
    refine (r.agrees_count run.length).bind ((agrees_sum _ _).bind ?_)
    rw [← Int32.ofNat_add]
    exact (ih (column + run.length)).bind (.always _)

theorem agrees_tokens (pieces : List (List Char)) (column : Nat) :
    Agrees (r.codeFirst (Int32.ofNat column) pieces)
        ((Code.codeFirst column pieces).map Token.placed) ∧
      Agrees (r.literalFirst (Int32.ofNat column) pieces)
        ((Code.literalFirst column pieces).map Token.placed) := by
  induction pieces generalizing column with
  | nil => exact ⟨.always _, .always _⟩
  | cons piece rest ih =>
    constructor
    · have hplace := r.agrees_place (runs piece) column
      rw [flatten_runs] at hplace
      rw [Code.codeFirst, List.map_append]
      exact hplace.bind ((ih (column + piece.length)).2.bind (.always _))
    · rw [Code.literalFirst, List.map_cons]
      refine (agrees_sum _ 1).bind ((r.agrees_count piece.length).bind
        ((agrees_sum _ 2).bind ((agrees_sum _ _).bind ?_)))
      have hnext : Int32.ofNat column + (Int32.ofNat piece.length + 2) =
          Int32.ofNat (column + piece.length + 2) := by
        rw [Nat.add_assoc, Int32.ofNat_add column, Int32.ofNat_add piece.length]
        rfl
      rw [hnext]
      refine (ih (column + piece.length + 2)).1.bind ?_
      rw [Token.placed, Int32.ofNat_add column]
      exact .always _

theorem agrees_tokenize (line : List Char) :
    Agrees (r.tokenize line) ((Code.tokenize line).map Token.placed) :=
  (r.agrees_tokens (fragments line) 0).1

theorem agrees_token (x y : Int32) (palettes : Palettes) (token : Token) :
    Agrees (r.token x y palettes token.placed) (token.draw x y palettes) := by
  unfold Reckoning.token Token.draw Token.placed columnAt
  dsimp only
  refine (agrees_sum x _).bind ?_
  split
  · refine (agrees_difference _ 1).bind ((r.agrees_count token.text.length).bind
      ((agrees_sum _ _).bind ((agrees_sum x _).bind ?_)))
    rw [← Int32.ofNat_add]
    exact .always _
  · exact .always _

theorem agrees_code (line : List Char) (x y : Int32) (palettes : Palettes) :
    Agrees (r.code line x y palettes) (Code.draw line x y palettes) := by
  refine (r.agrees_tokenize line).bind ?_
  rw [List.mapM_map, Code.draw, List.flatMap_def]
  exact (Agrees.mapM (r.agrees_token x y palettes) _).bind (.always _)

end Reckoning

end TileDeck
