import TileDeck.Double

set_option autoImplicit false

namespace TileDeck.Terminal

structure Size where
  width : UInt16
  height : UInt16
deriving DecidableEq, Repr

namespace Size

def cells (size : Size) : Nat := size.width.toNat * size.height.toNat

def maxCells : Nat := 0xFFFF

/-- A size in the proportion of another with as many cells as can be. The proportion and both sides
are reckoned in double precision, then cut to whole cells. -/
def shrink (size : Size) : Size :=
  let proportion := (Double.ofNat size.width.toNat).div (.ofNat size.height.toNat)
  let height := ((Double.ofNat maxCells).div proportion).sqrt
  ⟨UInt16.ofNat (height.mul proportion).floor, UInt16.ofNat height.floor⟩

/-- The size of the buffer. Without columns there are no rows either. -/
def buffer (size : Size) : Size :=
  if size.width = 0 then ⟨0, 0⟩
  else if size.cells ≤ maxCells then size
  else size.shrink

theorem buffer_of_le {size : Size} (hw : size.width ≠ 0) (h : size.cells ≤ maxCells) :
    size.buffer = size := by
  simp [buffer, hw, h]

end Size

end TileDeck.Terminal
