import TileDeck.Shape.Arrow
import TileDeck.Shape.Box

set_option autoImplicit false

namespace TileDeck

namespace Primitive

def place? : Primitive → Option (Int32 × Int32)
  | rule x y _ | corner x y _ | arrowhead x y _ | junction x y _ | quote x y _
  | background x y _ _ => some (x, y)
  | _ => none

def standsOn (column row : Int32) (p : Primitive) : Bool := p.place? = some (column, row)

def isBackground : Primitive → Bool
  | background .. => true
  | _ => false

@[simp] theorem standsOn_rule (column row x y : Int32) (orientation : Orientation) :
    (rule x y orientation).standsOn column row = decide (x = column ∧ y = row) := by
  simp [standsOn, place?]

@[simp] theorem standsOn_corner (column row x y : Int32) (c : Corner) :
    (Primitive.corner x y c).standsOn column row = decide (x = column ∧ y = row) := by
  simp [standsOn, place?]

@[simp] theorem standsOn_background (column row x y : Int32) (palette : PaletteId)
    (attachment : Attachment) :
    (background x y palette attachment).standsOn column row = decide (x = column ∧ y = row) := by
  simp [standsOn, place?]

end Primitive

namespace Box

variable {bg : Option PaletteId} {p : Primitive}

theorem placed_fill {x y : Int32} {attachment : Attachment} (h : p ∈ fill bg x y attachment) :
    p.place?.isSome := by
  obtain ⟨palette, _, rfl⟩ := List.mem_map.1 h
  rfl

theorem placed_columnEdges {box : Box} {column : Int32} (h : p ∈ box.columnEdges bg column) :
    p.place?.isSome := by
  simp only [columnEdges, List.mem_append, List.mem_cons, List.not_mem_nil, or_false] at h
  rcases h with ((rfl | rfl) | h) | h
  · rfl
  · rfl
  · exact placed_fill h
  · exact placed_fill h

theorem placed_rowEdges {box : Box} {row : Int32} (h : p ∈ box.rowEdges bg row) :
    p.place?.isSome := by
  simp only [rowEdges, List.mem_append, List.mem_cons, List.not_mem_nil, or_false,
    List.mem_flatMap] at h
  rcases h with (((rfl | rfl) | h) | h) | ⟨column, _, h⟩
  · rfl
  · rfl
  · exact placed_fill h
  · exact placed_fill h
  · exact placed_fill h

theorem placed_drawCorner {corner : Int32 × Int32 × Corner} (h : p ∈ drawCorner bg corner) :
    p.place?.isSome := by
  obtain ⟨x, y, corner⟩ := corner
  rcases List.mem_cons.1 h with rfl | h
  · rfl
  · exact placed_fill h

theorem placed_draw {box : Box} (h : p ∈ box.draw bg) : p.place?.isSome := by
  simp only [draw, List.mem_append, List.mem_flatMap] at h
  rcases h with (⟨column, _, h⟩ | ⟨row, _, h⟩) | ⟨corner, _, h⟩
  · exact placed_columnEdges h
  · exact placed_rowEdges h
  · exact placed_drawCorner h

end Box

namespace Arrow

variable {p : Primitive}

theorem placed_shaft {d : Direction} {n : Nat} {place : Int32 × Int32} (h : p ∈ shaft d n place) :
    p.place?.isSome := by
  induction n generalizing place with
  | zero =>
    obtain rfl := List.mem_singleton.1 h
    rfl
  | succ n ih =>
    rcases List.mem_cons.1 h with rfl | h
    · rfl
    · exact ih h

theorem placed_draw {a : Arrow} (h : p ∈ a.draw) : p.place?.isSome := by
  unfold draw at h
  split at h
  · rcases List.mem_cons.1 h with rfl | h
    · rfl
    · exact placed_shaft h
  · exact placed_shaft h

end Arrow

end TileDeck
