import TileDeck.Machine
import TileDeck.Plane.Reckoned
import TileDeck.Terminal

set_option autoImplicit false

namespace TileDeck

namespace Reckoning

open Terminal

variable (r : Reckoning)

def putRows (x y : Int32) : Nat → List String → Plane → Option Plane
  | _, [], plane => some plane
  | k, row :: rest, plane => do
    let place ← r.after? y k
    let drawn ← r.putText x place row plane
    putRows x y (k + 1) rest drawn

def putImage (gallery : Gallery) (x y : Int32) (name : String) (plane : Plane) : Option Plane :=
  match gallery.get? name with
  | some rows => r.putRows x y 0 rows plane
  | none => r.putText x y s!"[{name}]" plane

theorem agrees_putRows (x y : Int32) (k : Nat) (rows : List String) (plane : Plane) :
    Agrees (r.putRows x y k rows plane) (Terminal.putRows x y k rows plane) := by
  induction rows generalizing k plane with
  | nil => exact .always plane
  | cons row rest ih =>
    exact (r.agrees_after y k).bind ((r.agrees_putText x _ row plane).bind (ih _ _))

theorem agrees_putImage (gallery : Gallery) (x y : Int32) (name : String) (plane : Plane) :
    Agrees (r.putImage gallery x y name plane) (Terminal.putImage gallery x y name plane) := by
  unfold putImage Terminal.putImage
  cases gallery.get? name with
  | some rows => exact r.agrees_putRows x y 0 rows plane
  | none => exact r.agrees_putText x y _ plane

end Reckoning

namespace Terminal

def layout? (t : Terminal) : Option Layout :=
  Layout.place? t.plane.columns t.plane.rows t.width t.height

def status? (t : Terminal) : Option (List Span) :=
  Status.spans? t.progress t.timer t.frames t.rate

def present? (t : Terminal) : Option Terminal := do
  let status ← t.status?
  let layout ← t.layout?
  let lines ← t.plane.lines?
  return { t with painted := paint t.width.toNat t.height.toNat layout lines status }

def nextFrame? (t : Terminal) : Option Terminal := do
  let shown ← t.present?
  return { shown with frames := t.frames + 1 }

/-- Where the last frame can be painted, so can those before it. -/
def sleep? (t : Terminal) : Nat → Option Terminal
  | 0 => some t
  | n + 1 => nextFrame? { t with frames := t.frames + n }

def onPlane? (f : Plane → Option Plane) (t : Terminal) : Option Terminal := do
  let plane ← f t.plane
  return { t with plane := plane }

def perform? (p : Primitive) (t : Terminal) : Option Terminal :=
  match p with
  | .text x y text => t.onPlane? (Reckoning.checked.putText x y text)
  | .image x y name => t.onPlane? (Reckoning.checked.putImage t.gallery x y name)
  | .titleScreen => t.onPlane? (Reckoning.checked.titleCard t.title)
  | .demoGame =>
    t.onPlane? fun plane => Reckoning.checked.putText 2 plane.middleRow demoText plane.clear
  | .sleep frames => t.sleep? frames.toNat
  | p => some (perform p t)

variable (t : Terminal)

theorem agrees_layout : Agrees t.layout? t.layout :=
  Layout.agrees_place t.plane.columns t.plane.rows t.width t.height

theorem agrees_status : Agrees t.status? t.status := .ite _ _

theorem agrees_present : Agrees t.present? t.present :=
  t.agrees_status.bind (t.agrees_layout.bind (t.plane.agrees_lines.bind (.always _)))

theorem agrees_nextFrame : Agrees t.nextFrame? t.nextFrame := t.agrees_present.bind (.always _)

theorem agrees_sleep (n : Nat) : Agrees (t.sleep? n) (t.sleep n) := by
  cases n with
  | zero => exact .always t
  | succ n => exact agrees_nextFrame { t with frames := t.frames + n }

variable {t} in
theorem agrees_onPlane {f : Plane → Option Plane} {g : Plane → Plane}
    (h : Agrees (f t.plane) (g t.plane)) : Agrees (t.onPlane? f) (t.onPlane g) :=
  h.bind (.always _)

theorem agrees_perform (p : Primitive) : Agrees (t.perform? p) (t.perform p) := by
  cases p with
  | text x y text => exact agrees_onPlane (Reckoning.agrees_putText _ x y text t.plane)
  | image x y name => exact agrees_onPlane (Reckoning.agrees_putImage _ t.gallery x y name t.plane)
  | titleScreen => exact agrees_onPlane (Reckoning.agrees_titleCard _ t.title t.plane)
  | demoGame =>
    -- the two functions are written out, since unification would open the text of the demo
    exact agrees_onPlane
      (f := fun plane => Reckoning.checked.putText 2 plane.middleRow demoText plane.clear)
      (g := fun plane => plane.clear.putText 2 plane.middleRow demoText)
      (Reckoning.checked.agrees_putText 2 _ demoText t.plane.clear)
  | sleep frames => exact t.agrees_sleep frames.toNat
  | _ => exact .always _

/-- A terminal on a machine that checks its sums. -/
def machine : Machine Terminal where
  reckoning := .checked
  perform p t := t.perform? p
  nextFrame := nextFrame?
  agrees_perform p t := t.agrees_perform p
  agrees_nextFrame := agrees_nextFrame

end Terminal

end TileDeck
