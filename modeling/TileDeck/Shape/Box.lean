import TileDeck.Primitive

set_option autoImplicit false

namespace TileDeck

/-- The columns up to `x + width` and the rows up to `y + height` are covered, both included. -/
structure Box where
  x : Int32
  y : Int32
  width : Int32
  height : Int32
deriving DecidableEq, Repr

namespace Box

def right (box : Box) : Int32 := Coordinate.add box.x box.width

def bottom (box : Box) : Int32 := Coordinate.add box.y box.height

def innerColumns (box : Box) : List Int32 :=
  Coordinate.span (Coordinate.add box.x 1) box.right

def innerRows (box : Box) : List Int32 :=
  Coordinate.span (Coordinate.add box.y 1) box.bottom

def fill (bg : Option PaletteId) (x y : Int32) (attachment : Attachment) : List Primitive :=
  bg.toList.map fun palette => .background x y palette attachment

def columnEdges (box : Box) (bg : Option PaletteId) (column : Int32) : List Primitive :=
  [.rule column box.y .horizontal, .rule column box.bottom .horizontal] ++
    fill bg column box.y .bottom ++ fill bg column box.bottom .top

def rowEdges (box : Box) (bg : Option PaletteId) (row : Int32) : List Primitive :=
  [.rule box.x row .vertical, .rule box.right row .vertical] ++
    fill bg box.x row .right ++ fill bg box.right row .left ++
    box.innerColumns.flatMap fun column => fill bg column row .full

def corners (box : Box) : List (Int32 × Int32 × Corner) :=
  [(box.x, box.y, .topLeft), (box.right, box.y, .topRight),
    (box.x, box.bottom, .bottomLeft), (box.right, box.bottom, .bottomRight)]

def drawCorner (bg : Option PaletteId) : Int32 × Int32 × Corner → List Primitive
  | (x, y, corner) => .corner x y corner :: fill bg x y (.corner corner)

def draw (box : Box) (bg : Option PaletteId) : List Primitive :=
  box.innerColumns.flatMap (box.columnEdges bg) ++ box.innerRows.flatMap (box.rowEdges bg) ++
    box.corners.flatMap (drawCorner bg)

end Box

end TileDeck
