import TileDeck.Gallery
import TileDeck.Plane
import TileDeck.Terminal.Painting
import TileDeck.Terminal.Size

set_option autoImplicit false

/-!
# The terminal as a display

Primitives land on a plane of tiles. At every frame the plane and the status line are painted; what
was painted last stays until the next frame.
-/
namespace TileDeck

structure Terminal where
  width : UInt16
  height : UInt16
  plane : Plane
  gallery : Gallery
  title : String
  rate : Nat
  frames : Nat
  progress : Option (Nat × Nat)
  timer : Option Nat
  painted : Terminal.Buffer

namespace Terminal

structure Settings where
  columns : UInt16
  rows : UInt16
  rate : Nat
  title : String
  palette : List (PaletteId × Rgb)

/-- A terminal of a size, with nothing painted on its buffer. -/
def start (size : Size) (settings : Settings) (gallery : Gallery) : Terminal where
  width := size.buffer.width
  height := size.buffer.height
  plane :=
    let plane := Plane.empty settings.columns settings.rows
    { plane with palette := plane.palette.setAll settings.palette }
  gallery := gallery
  title := settings.title
  rate := max settings.rate 1
  frames := 0
  progress := none
  timer := none
  painted := untouched size.buffer.width.toNat size.buffer.height.toNat

def layout (t : Terminal) : Layout := .place t.plane.columns t.plane.rows t.width t.height

def status (t : Terminal) : List Span := Status.spans t.progress t.timer t.frames t.rate

def present (t : Terminal) : Terminal :=
  { t with painted := paint t.width.toNat t.height.toNat t.layout t.plane.lines t.status }

def nextFrame (t : Terminal) : Terminal := { t.present with frames := t.frames + 1 }

/-- A number of frames in a row; of their paintings only the last one remains. -/
def sleep (t : Terminal) : Nat → Terminal
  | 0 => t
  | n + 1 => nextFrame { t with frames := t.frames + n }

def onPlane (f : Plane → Plane) (t : Terminal) : Terminal := { t with plane := f t.plane }

def demoText : String := "demo game is only available on hardware"

def putRows (x y : Int32) : Nat → List String → Plane → Plane
  | _, [], plane => plane
  | k, row :: rest, plane => putRows x y (k + 1) rest (plane.putText x (y + Int32.ofNat k) row)

def putImage (gallery : Gallery) (x y : Int32) (name : String) (plane : Plane) : Plane :=
  match gallery.get? name with
  | some rows => putRows x y 0 rows plane
  | none => plane.putText x y s!"[{name}]"

/-- A tile of the terminal has one background, whatever part of it is to be covered. -/
def perform (p : Primitive) (t : Terminal) : Terminal :=
  match p with
  | .clear => t.onPlane Plane.clear
  | .text x y text => t.onPlane (Plane.putText x y text)
  | .rule x y orientation => t.onPlane (Plane.put x y orientation.glyph)
  | .corner x y corner => t.onPlane (Plane.put x y corner.glyph)
  | .arrowhead x y direction => t.onPlane (Plane.put x y direction.headGlyph)
  | .junction x y direction => t.onPlane (Plane.put x y direction.junctionGlyph)
  | .quote x y side => t.onPlane (Plane.put x y side.glyph)
  | .image x y name => t.onPlane (putImage t.gallery x y name)
  | .background x y palette _ => t.onPlane (Plane.fill x y palette)
  | .paletteColour id colour => t.onPlane (Plane.setColour id colour)
  | .textPalette id => t.onPlane (Plane.setInk id)
  | .backdrop id => t.onPlane (Plane.setBackdrop id)
  | .renderBackground => t.onPlane Plane.showLayer
  | .scrollBackground step => t.onPlane (Plane.scrollLayer step)
  | .titleScreen => t.onPlane (Plane.titleCard t.title)
  | .demoGame =>
    t.onPlane fun plane => plane.clear.putText 2 plane.middleRow demoText
  | .progress done total => { t with progress := some (done, total) }
  | .hideProgress => { t with progress := none }
  | .timer baseline => { t with timer := some baseline }
  | .hideTimer => { t with timer := none }
  | .sound => t
  | .sleep frames => t.sleep frames.toNat

instance : Surface Terminal where
  perform := perform
  nextFrame := nextFrame
  frames := Terminal.frames

end Terminal

end TileDeck
