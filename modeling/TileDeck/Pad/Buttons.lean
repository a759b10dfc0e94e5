set_option autoImplicit false

namespace TileDeck

structure Buttons where
  up : Bool
  down : Bool
  left : Bool
  right : Bool
  cancel : Bool
  aux : Bool
  confirm : Bool
  start : Bool
deriving DecidableEq, Repr

namespace Buttons

def released : Buttons := ⟨false, false, false, false, false, false, false, false⟩

/-- The pad's register has one bit a button, the lowest for up. -/
def ofByte (byte : UInt8) : Buttons :=
  let bit := byte.toNat.testBit
  ⟨bit 0, bit 1, bit 2, bit 3, bit 4, bit 5, bit 6, bit 7⟩

def toByte (b : Buttons) : UInt8 :=
  UInt8.ofNat <| b.up.toNat + 2 * b.down.toNat + 4 * b.left.toNat + 8 * b.right.toNat +
    16 * b.cancel.toNat + 32 * b.aux.toNat + 64 * b.confirm.toNat + 128 * b.start.toNat

def pressed (previous current : Buttons) : Buttons where
  up := current.up && !previous.up
  down := current.down && !previous.down
  left := current.left && !previous.left
  right := current.right && !previous.right
  cancel := current.cancel && !previous.cancel
  aux := current.aux && !previous.aux
  confirm := current.confirm && !previous.confirm
  start := current.start && !previous.start

end Buttons

inductive Turn
  | forward
  | back
  | reload
deriving DecidableEq, Repr

/-- The turn of freshly pressed buttons; start and confirm go before cancel, cancel before aux. -/
def Turn.ofPressed? (pressed : Buttons) : Option Turn :=
  if pressed.start || pressed.confirm then some .forward
  else if pressed.cancel then some .back
  else if pressed.aux then some .reload
  else none

/-- The turns in a row of samples, `previous` being the sample before the first. -/
def Turn.ofSamples (previous : Buttons) : List Buttons → List Turn
  | [] => []
  | sample :: rest =>
    (Turn.ofPressed? (Buttons.pressed previous sample)).toList ++ Turn.ofSamples sample rest

namespace Buttons

theorem pressed_self (b : Buttons) : pressed b b = released := by
  simp [pressed, released]

theorem ofPressed?_released : Turn.ofPressed? released = none := rfl

end Buttons

end TileDeck
