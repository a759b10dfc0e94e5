import TileDeck.Page.Showing
import TileDeck.Proofs.Shape.Tiles

set_option autoImplicit false

namespace TileDeck

def Primitive.paints : Primitive → Bool
  | text .. | rule .. | corner .. | arrowhead .. | junction .. | quote .. | image ..
  | background .. => true
  | _ => false

/-- Whether a primitive tells the display something about more than a tile and no text depends on
it. -/
def Primitive.tells : Primitive → Bool
  | paletteColour .. | backdrop .. | renderBackground | titleScreen | demoGame | progress ..
  | hideProgress | timer .. | hideTimer | sound | sleep .. => true
  | _ => false

@[simp] theorem Primitive.paints_clear : Primitive.clear.paints = false := rfl

@[simp] theorem Primitive.tells_clear : Primitive.clear.tells = false := rfl

@[simp] theorem Primitive.paints_textPalette (id : PaletteId) :
    (Primitive.textPalette id).paints = false := rfl

@[simp] theorem Primitive.tells_textPalette (id : PaletteId) :
    (Primitive.textPalette id).tells = false := rfl

theorem Surface.performAll_keeps {σ : Type} [Surface σ] {A : Primitive → Prop} {I : σ → Prop}
    (h : ∀ p surface, A p → I surface → I (Surface.perform p surface)) {ps : List Primitive}
    (hp : ∀ p ∈ ps, A p) {surface : σ} (hi : I surface) : I (Surface.performAll ps surface) := by
  induction ps generalizing surface with
  | nil => exact hi
  | cons p ps ih =>
    rw [List.forall_mem_cons] at hp
    exact ih hp.2 (h p surface hp.1 hi)

theorem Primitive.paints_of_placed {p : Primitive} (h : p.place?.isSome) : p.paints := by
  cases p with
  | rule | corner | arrowhead | junction | quote | background => rfl
  | _ => cases h

theorem Box.paints_draw (box : Box) (bg : Option PaletteId) {p : Primitive}
    (h : p ∈ box.draw bg) : p.paints :=
  Primitive.paints_of_placed (placed_draw h)

theorem Arrow.paints_draw (a : Arrow) {p : Primitive} (h : p ∈ a.draw) : p.paints :=
  Primitive.paints_of_placed (placed_draw h)

namespace Code

theorem paints_token {x y : Int32} {palettes : Palettes} {token : Token} {p : Primitive}
    (h : p ∈ token.draw x y palettes) : p.paints ∨ ∃ id, p = .textPalette id := by
  rcases List.mem_cons.1 h with rfl | h
  · exact .inr ⟨_, rfl⟩
  · left
    split at h
    · simp only [List.mem_cons, List.not_mem_nil, or_false] at h
      rcases h with rfl | rfl | rfl <;> rfl
    · obtain rfl := List.mem_singleton.1 h
      rfl

end Code

namespace Page

theorem paints_titleLine {options : Options} {text : String} {p : Primitive}
    (h : p ∈ titleLine options text) : p.paints := by
  obtain rfl := List.mem_singleton.1 h
  rfl

theorem paints_textLine {x y : Int32} {bg : Option PaletteId} {text : String} {p : Primitive}
    (h : p ∈ textLine x y bg text) : p.paints := by
  simp only [textLine, List.mem_append, List.mem_flatMap, List.mem_map, List.mem_singleton] at h
  rcases h with ⟨palette, _, k, _, rfl⟩ | rfl <;> rfl

theorem paints_codeLine {options : Options} {ink : PaletteId} {x y : Int32} {code : String}
    {p : Primitive} (h : p ∈ codeLine options ink x y code) :
    p.paints ∨ ∃ id, p = .textPalette id := by
  simp only [codeLine, Code.draw, List.mem_append, List.mem_flatMap, List.mem_singleton] at h
  rcases h with ⟨token, _, h⟩ | rfl
  · exact Code.paints_token h
  · exact .inr ⟨ink, rfl⟩

end Page

end TileDeck
