import TileDeck.Proofs.Page.Lines
import TileDeck.Terminal

set_option autoImplicit false

namespace TileDeck

namespace Palette

theorem set_set (palette : Palette) (id : PaletteId) (first last : Rgb) :
    (palette.set id first).set id last = palette.set id last := by
  unfold set
  rw [Vector.set_set]

theorem set_comm (palette : Palette) {id other : PaletteId} (h : id ≠ other) (a b : Rgb) :
    (palette.set id a).set other b = (palette.set other b).set id a := by
  have hn : id.toNat ≠ other.toNat := fun he => h (UInt8.toNat_inj.1 he)
  unfold set
  rw [Vector.set_comm _ _ hn]

end Palette

namespace Plane

section Keeping
variable {α : Type} {f : Plane → α}
  (h : ∀ x y change plane, f (Plane.modify x y change plane) = f plane)
include h

theorem putChars_keeps (x y : Int32) (k : Nat) (text : List Char) (plane : Plane) :
    f (putChars x y k text plane) = f plane := by
  induction text generalizing k plane with
  | nil => rfl
  | cons c rest ih => exact (ih _ _).trans (h _ y _ plane)

theorem putText_keeps (x y : Int32) (text : String) (plane : Plane) :
    f (plane.putText x y text) = f plane :=
  putChars_keeps h x y 0 text.toList plane

theorem putRules_keeps (plane : Plane) : f plane.putRules = f plane := by
  unfold putRules
  generalize List.range plane.columns.toNat = columns
  induction columns generalizing plane with
  | nil => rfl
  | cons column columns ih => exact (ih _).trans ((h _ _ _ _).trans (h _ _ _ plane))

theorem titleCard_keeps (title : String) (plane : Plane) :
    f (plane.titleCard title) = f plane.clear := by
  unfold titleCard
  rw [putText_keeps h, putText_keeps h, putRules_keeps h]

end Keeping

theorem clear_clear (plane : Plane) : plane.clear.clear = plane.clear := rfl

theorem clear_modify (x y : Int32) (f : Tile → Tile) (plane : Plane) :
    (plane.modify x y f).clear = plane.clear := by
  unfold modify
  split <;> rfl

theorem clear_put (x y : Int32) (symbol : Char) (plane : Plane) :
    (plane.put x y symbol).clear = plane.clear :=
  clear_modify x y _ plane

theorem clear_fill (x y : Int32) (id : PaletteId) (plane : Plane) :
    (plane.fill x y id).clear = plane.clear :=
  clear_modify x y _ plane

theorem clear_putText (x y : Int32) (text : String) (plane : Plane) :
    (plane.putText x y text).clear = plane.clear :=
  putText_keeps clear_modify x y text plane

theorem clear_putRules (plane : Plane) : plane.putRules.clear = plane.clear :=
  putRules_keeps clear_modify plane

theorem clear_titleCard (title : String) (plane : Plane) :
    (plane.titleCard title).clear = plane.clear :=
  titleCard_keeps clear_modify title plane

theorem ink_clear (plane : Plane) : plane.clear.ink = plane.ink := rfl

theorem setColour_setColour (id : PaletteId) (first last : Rgb) (plane : Plane) :
    (plane.setColour id first).setColour id last = plane.setColour id last := by
  unfold setColour
  dsimp only
  rw [Palette.set_set]

theorem setColour_comm {id other : PaletteId} (h : id ≠ other) (a b : Rgb) (plane : Plane) :
    (plane.setColour id a).setColour other b = (plane.setColour other b).setColour id a := by
  unfold setColour
  dsimp only
  rw [Palette.set_comm _ h]

end Plane

namespace Terminal

theorem clear_putRows (x y : Int32) (k : Nat) (rows : List String) (plane : Plane) :
    (putRows x y k rows plane).clear = plane.clear := by
  induction rows generalizing k plane with
  | nil => rfl
  | cons row rest ih =>
    rw [putRows, ih]
    exact Plane.clear_putText x _ row plane

theorem clear_putImage (gallery : Gallery) (x y : Int32) (name : String) (plane : Plane) :
    (putImage gallery x y name plane).clear = plane.clear := by
  unfold putImage
  split
  · exact clear_putRows x y 0 _ plane
  · exact Plane.clear_putText x y _ plane

theorem plane_sleep (t : Terminal) (n : Nat) : (t.sleep n).plane = t.plane := by
  cases n <;> rfl

theorem clear_perform {p : Primitive} (h : p.paints) (t : Terminal) :
    (Surface.perform p t).plane.clear = t.plane.clear := by
  change (perform p t).plane.clear = t.plane.clear
  cases p with
  | text x y text => exact Plane.clear_putText x y text t.plane
  | rule x y orientation => exact Plane.clear_put x y _ t.plane
  | corner x y corner => exact Plane.clear_put x y _ t.plane
  | arrowhead x y direction => exact Plane.clear_put x y _ t.plane
  | junction x y direction => exact Plane.clear_put x y _ t.plane
  | quote x y side => exact Plane.clear_put x y _ t.plane
  | image x y name => exact clear_putImage t.gallery x y name t.plane
  | background x y palette attachment => exact Plane.clear_fill x y palette t.plane
  | _ => simp [Primitive.paints] at h

theorem clear_performAll {ps : List Primitive} (h : ∀ p ∈ ps, p.paints) (t : Terminal) :
    (Surface.performAll ps t).plane.clear = t.plane.clear :=
  Surface.performAll_keeps (A := fun p => p.paints = true)
    (I := fun u : Terminal => u.plane.clear = t.plane.clear)
    (fun _ u hp hu => (clear_perform hp u).trans hu) h rfl

/-- The images, the title and the size of the plane are those that they were. -/
structure Fixed (before after : Terminal) : Prop where
  gallery : after.gallery = before.gallery
  title : after.title = before.title
  columns : after.plane.columns = before.plane.columns
  rows : after.plane.rows = before.plane.rows

theorem Fixed.refl (t : Terminal) : Fixed t t := ⟨rfl, rfl, rfl, rfl⟩

theorem Fixed.trans {first middle last : Terminal} (h : Fixed first middle)
    (h' : Fixed middle last) : Fixed first last :=
  ⟨h'.gallery.trans h.gallery, h'.title.trans h.title, h'.columns.trans h.columns,
    h'.rows.trans h.rows⟩

theorem fixed_nextFrame (t : Terminal) : Fixed t (Surface.nextFrame t) := ⟨rfl, rfl, rfl, rfl⟩

theorem fixed_sleep (t : Terminal) (n : Nat) : Fixed t (t.sleep n) := by
  cases n with
  | zero => exact .refl t
  | succ n => exact ⟨rfl, rfl, rfl, rfl⟩

theorem fixed_of_clear {before after : Terminal} (hgallery : after.gallery = before.gallery)
    (htitle : after.title = before.title) (h : after.plane.clear = before.plane.clear) :
    Fixed before after := by
  have hcolumns : after.plane.clear.columns = before.plane.clear.columns := by rw [h]
  have hrows : after.plane.clear.rows = before.plane.clear.rows := by rw [h]
  exact ⟨hgallery, htitle, hcolumns, hrows⟩

theorem fixed_onPlane {f : Plane → Plane} {t : Terminal} (h : (f t.plane).clear = t.plane.clear) :
    Fixed t (t.onPlane f) :=
  fixed_of_clear rfl rfl h

theorem fixed_perform (p : Primitive) (t : Terminal) : Fixed t (Surface.perform p t) := by
  cases p with
  | text | rule | corner | arrowhead | junction | quote | image | background =>
    exact fixed_of_clear rfl rfl (clear_perform rfl t)
  | titleScreen => exact fixed_onPlane (Plane.clear_titleCard t.title t.plane)
  | demoGame =>
    -- the function is written out, since unification would open the text of the demo
    have h : (t.plane.clear.putText 2 t.plane.middleRow demoText).clear = t.plane.clear := by
      rw [Plane.clear_putText, Plane.clear_clear]
    exact fixed_onPlane (f := fun plane => plane.clear.putText 2 plane.middleRow demoText) h
  | sleep frames => exact fixed_sleep t frames.toNat
  | _ => exact ⟨rfl, rfl, rfl, rfl⟩

theorem kept_fixed (first : Terminal) :
    Stage.Kept (· ≠ .clear) fun (_ : Remote) (t : Terminal) => Fixed first t :=
  .of_frames (fun p _ t _ h => h.trans (fixed_perform p t)) (fun _ _ h => h)
    (fun _ t _ h => h.trans (fixed_nextFrame t))

end Terminal

end TileDeck
