import TileDeck.Markup.Command
import TileDeck.Text.Numeral

set_option autoImplicit false

namespace TileDeck.Markup

def directionLetter : Direction → Char
  | .right => 'r'
  | .left => 'l'
  | .up => 'u'
  | .down => 'd'

namespace Command

def keyword : Command → Keyword
  | title _ => .title
  | text .. => .text
  | setColour .. => .setColour
  | textPalette _ => .textPalette
  | pause => .pause
  | image .. => .image
  | code .. => .code
  | box .. => .box
  | arrow _ _ _ _ true => .branchArrow
  | arrow _ _ _ _ false => .arrow
  | backdrop _ => .backdrop
  | sleep _ => .sleep
  | titleScreen => .titleScreen
  | demoGame => .demoGame
  | renderBackground => .renderBackground
  | scroll => .scroll
  | initProgress => .initProgress
  | hideProgress => .hideProgress
  | resetTimer => .resetTimer
  | hideTimer => .hideTimer
  | playSound => .playSound

def wordField (n : Int32) : List Char := Text.signedNumeral n.toInt

def byteField (n : UInt8) : List Char := Text.numeral 10 n.toNat

def fields : Command → List (List Char)
  | text x y bg _ => [wordField x, wordField y] ++ bg.toList.map byteField
  | setColour id colour => [byteField id, colour.digits]
  | textPalette id => [byteField id]
  | image x y name => [wordField x, wordField y, name.toList]
  | code x y _ => [wordField x, wordField y]
  | box x y width height bg =>
    [wordField x, wordField y, wordField width, wordField height] ++ bg.toList.map byteField
  | arrow x y direction length _ =>
    [wordField x, wordField y, [directionLetter direction], Text.numeral 10 length.toNat]
  | backdrop id => [Text.numeral 16 id.toNat]
  | sleep frames => [Text.numeral 10 frames.toNat]
  | _ => []

def payload? : Command → Option String
  | title content => some content
  | text _ _ _ content => some content
  | code _ _ content => some content
  | _ => none

def head (command : Command) : List Char :=
  command.keyword.opening ++
    if command.keyword.arity?.isSome then [','].intercalate command.fields ++ [':'] else []

/-- The line of a command. It ends in a carriage return, so that its payload may end in one. -/
def print (command : Command) : String :=
  String.ofList (command.head ++ (command.payload?.elim [] fun p => ' ' :: p.toList) ++ ['\r'])

end Command

end TileDeck.Markup
