import TileDeck.Proofs.Code.Extent
import TileDeck.Proofs.Plane.Shown
import TileDeck.Proofs.Shape.Tiles
import TileDeck.Proofs.Terminal.Layout

set_option autoImplicit false

/-!
# Pictures drawn with checked sums

Whatever is drawn on a terminal, in whatever order, and then shown. Boxes and arrows stop at the ends
of the range and can be drawn from everywhere. A text, an image or a line of code has to end at a
coordinate, and where the layer of dots shows through, so has the sum of its register and the column.
Frames need room, too. Nothing else can stop a terminal, however long the drawing is.
-/
namespace TileDeck

open Coordinate

/-- What a terminal is told: a primitive, a drawing that is made of primitives, or to show the next
frame. -/
inductive Act
  | primitive (p : Primitive)
  | code (line : List Char) (x y : Int32) (palettes : Code.Palettes)
  | box (b : Box) (bg : Option PaletteId)
  | arrow (a : Arrow)
  | nextFrame

namespace Terminal

/-- The next frame of a terminal can be painted. -/
structure Shows (t : Terminal) : Prop where
  layer : t.plane.Showable
  room : Layout.HasRoom t.plane.columns t.plane.rows
  bar : Status.BarFits t.progress

theorem answers_nextFrame (t : Terminal) : Answers t.nextFrame? t.Shows t.nextFrame := by
  have hstatus : Answers t.status? (Status.BarFits t.progress) t.status := .ite _ _
  have hlayout : Answers t.layout? (Layout.HasRoom t.plane.columns t.plane.rows) t.layout := by
    rw [layout?_eq]
    exact .ite _ _
  have hshown : Answers t.present? t.Shows t.present :=
    Answers.congr (hstatus.bind fun _ => hlayout.bind fun _ =>
        (Plane.answers_lines t.plane).bind fun _ => .always _)
      ⟨fun ⟨hbar, hroom, hlayer, _⟩ => ⟨hlayer, hroom, hbar⟩,
        fun h => ⟨h.bar, h.room, h.layer, trivial⟩⟩
  exact Answers.congr (hshown.bind fun _ => .always _) (and_iff_left trivial)

theorem answers_sleep (t : Terminal) (n : Nat) :
    Answers (t.sleep? n) (n ≠ 0 → t.Shows) (t.sleep n) := by
  cases n with
  | zero => exact (Answers.always t).congr (iff_of_true trivial fun h => absurd rfl h)
  | succ n =>
    refine (answers_nextFrame { t with frames := t.frames + n }).congr ?_
    exact ⟨fun h _ => ⟨h.layer, h.room, h.bar⟩,
      fun h => ⟨(h n.succ_ne_zero).layer, (h n.succ_ne_zero).room, (h n.succ_ne_zero).bar⟩⟩

theorem answers_onPlane {f : Plane → Option Plane} {g : Plane → Plane} {holds : Prop} {t : Terminal}
    (h : Answers (f t.plane) holds (g t.plane)) : Answers (t.onPlane? f) holds (t.onPlane g) :=
  Answers.congr (h.bind fun _ => .always _) (and_iff_left trivial)

/-- Whether a terminal has room for what a primitive does. -/
def Takes (t : Terminal) : Primitive → Prop
  | .text x _ content => ∀ k < content.length, Reckoning.checked.Reaches x k
  | .image x y name => Reckoning.checked.ImageFits t.gallery x y name
  | .titleScreen => t.plane.Centres (Plane.banner t.title).length
  | .sleep frames => frames.toNat ≠ 0 → t.Shows
  | _ => True

theorem answers_perform (p : Primitive) (t : Terminal) :
    Answers (t.perform? p) (t.Takes p) (Surface.perform p t) := by
  cases p with
  | text x y content =>
    exact answers_onPlane (Reckoning.answers_putText _ x y content t.plane)
  | image x y name =>
    exact answers_onPlane (Reckoning.answers_putImage _ t.gallery x y name t.plane)
  | titleScreen => exact answers_onPlane (Plane.answers_titleCard t.title t.plane)
  | demoGame =>
    have hreaches : ∀ k < demoText.length, Reckoning.checked.Reaches 2 k :=
      (Reckoning.checked.forall_reaches_iff (by decide)).2 ⟨by decide, by decide⟩
    have htext := Reckoning.checked.answers_putText 2 t.plane.middleRow demoText t.plane.clear
    -- the two functions are written out, since unification would open the text of the demo
    exact (answers_onPlane
      (f := fun plane => Reckoning.checked.putText 2 plane.middleRow demoText plane.clear)
      (g := fun plane => plane.clear.putText 2 plane.middleRow demoText)
      htext).congr (iff_of_true hreaches trivial)
  | sleep frames => exact answers_sleep t frames.toNat
  | _ => exact .always _

theorem takes_of_placed {p : Primitive} (h : p.place?.isSome) (t : Terminal) : t.Takes p := by
  cases p with
  | text | image | titleScreen | sleep => cases h
  | _ => trivial

theorem answers_placed {ps : List Primitive} (h : ∀ p ∈ ps, p.place?.isSome) (t : Terminal) :
    Answers (machine.performAll ps t) True (Surface.performAll ps t) :=
  (Answers.foldlM_of_mem (fun p hp t => (answers_perform p t).congr
    (iff_true_intro (takes_of_placed (h p hp) t))) t).congr (iff_true_intro fun _ _ => trivial)

section Code
variable {x y : Int32} {palettes : Code.Palettes}

theorem answers_token {token : Code.Token} {p : Primitive} (h : p ∈ token.draw x y palettes)
    (first t : Terminal) : Answers (t.perform? p) (first.Takes p) (Surface.perform p t) := by
  have hp := answers_perform p t
  unfold Code.Token.draw at h
  rcases List.mem_cons.1 h with rfl | h
  · exact hp
  · split at h
    · simp only [List.mem_cons, List.not_mem_nil, or_false] at h
      rcases h with rfl | rfl | rfl
      · exact hp
      · exact hp
      · exact hp
    · obtain rfl := List.mem_singleton.1 h
      exact hp

theorem answers_drawn (line : List Char) (x y : Int32) (palettes : Code.Palettes) (t : Terminal) :
    Answers (machine.performAll (Code.draw line x y palettes) t)
      (∀ p ∈ Code.draw line x y palettes, t.Takes p)
      (Surface.performAll (Code.draw line x y palettes) t) := by
  refine Answers.foldlM_of_mem (fun p hp u => ?_) t
  obtain ⟨token, -, hp⟩ := List.mem_flatMap.1 hp
  exact answers_token hp t u

theorem takes_token_iff (t : Terminal) (token : Code.Token)
    (h : (token.text.length : Int) ≤ greatest) :
    (∀ p ∈ token.draw x y palettes, t.Takes p) ↔
      Room (Code.columnAt x token.column) (token.text.length - 1) := by
  rw [← Reckoning.checked.forall_reaches_iff (by omega)]
  unfold Code.Token.draw
  split <;> simp [Takes]

end Code

end Terminal

namespace Act

def perform (a : Act) (t : Terminal) : Terminal :=
  match a with
  | .primitive p => Surface.perform p t
  | .code line x y palettes => Surface.performAll (Code.draw line x y palettes) t
  | .box b bg => Surface.performAll (b.draw bg) t
  | .arrow a => Surface.performAll a.draw t
  | .nextFrame => Surface.nextFrame t

def perform? (a : Act) (t : Terminal) : Option Terminal :=
  match a with
  | .primitive p => Terminal.machine.perform p t
  | .code line x y palettes => do
    let ps ← Terminal.machine.reckoning.code line x y palettes
    Terminal.machine.performAll ps t
  | .box b bg => Terminal.machine.performAll (b.draw bg) t
  | .arrow a => Terminal.machine.performAll a.draw t
  | .nextFrame => Terminal.machine.nextFrame t

/-- Whether a terminal has room for an act. -/
def Fits (a : Act) (t : Terminal) : Prop :=
  match a with
  | .primitive p => t.Takes p
  | .code line x y palettes =>
    ∃ ps, Reckoning.checked.code line x y palettes = some ps ∧ ∀ p ∈ ps, t.Takes p
  | .box _ _ | .arrow _ => True
  | .nextFrame => t.Shows

theorem answers_code (line : List Char) (x y : Int32) (palettes : Code.Palettes) (t : Terminal) :
    Answers ((Act.code line x y palettes).perform? t) ((Act.code line x y palettes).Fits t)
      ((Act.code line x y palettes).perform t) := by
  have hdrawn := Terminal.answers_drawn line x y palettes t
  unfold perform? Fits
  cases hcode : Reckoning.checked.code line x y palettes with
  | none =>
    refine ⟨?_, fun _ => congrArg (Option.bind · _) hcode⟩
    rintro ⟨ps, hps, _⟩
    rw [hcode] at hps
    cases hps
  | some ps =>
    obtain rfl := Reckoning.checked.agrees_code line x y palettes ps hcode
    have hrun : (do
        let ps ← Terminal.machine.reckoning.code line x y palettes
        Terminal.machine.performAll ps t) =
        Terminal.machine.performAll (Code.draw line x y palettes) t :=
      congrArg (Option.bind · _) hcode
    dsimp only
    rw [hrun]
    refine hdrawn.congr ⟨fun h => ⟨_, hcode, h⟩, ?_⟩
    rintro ⟨ps, hps, h⟩
    obtain rfl := Option.some.inj (hcode.symm.trans hps)
    exact h

theorem answers_perform (a : Act) (t : Terminal) : Answers (a.perform? t) (a.Fits t) (a.perform t) := by
  cases a with
  | primitive p => exact Terminal.answers_perform p t
  | code line x y palettes => exact answers_code line x y palettes t
  | box b bg => exact Terminal.answers_placed (fun _ => Box.placed_draw) t
  | arrow a => exact Terminal.answers_placed (fun _ => Arrow.placed_draw) t
  | nextFrame => exact Terminal.answers_nextFrame t

/-- In a line whose width is a word, code has room just if the last character of it has, closed. -/
theorem fits_code_iff {line : List Char} (h : ((Code.closed line).length : Int) ≤ greatest)
    (x y : Int32) (palettes : Code.Palettes) (t : Terminal) :
    (Act.code line x y palettes).Fits t ↔ Room x ((Code.closed line).length - 1) := by
  have hcode := Code.answers_code .checked h x y palettes
  refine hcode.exists_iff.trans ?_
  rw [Code.draw, List.forall_mem_flatMap, ← Code.room_past_iff, ← forall₂_and]
  refine forall₂_congr fun token ht => ?_
  have hpast := Code.past_le_closed ht
  have hlength : token.text.length ≤ token.past := by
    unfold Code.Token.past
    omega
  rw [Terminal.takes_token_iff t token (by omega),
    Code.room_token_iff (Code.wellMade_tokenize ht) (by omega)]

end Act

namespace Terminal

def performActs (acts : List Act) (t : Terminal) : Terminal := acts.foldl (fun t a => a.perform t) t

def picture? (acts : List Act) (t : Terminal) : Option (List (List Span)) := do
  let drawn ← acts.foldlM (fun t a => a.perform? t) t
  drawn.plane.lines?

/-- On the machine of a terminal acts and the showing of the plane after them are not stopped just if
each act has room on the terminal that it comes to, and the layer, too, where it shows through in the
end. A text of a length that is a word, and code of such a length, have room just if their last
character has. -/
theorem picture_exact (acts : List Act) (t : Terminal) :
    Answers (picture? acts t)
      ((∀ before act after, acts = before ++ act :: after → act.Fits (performActs before t)) ∧
        (performActs acts t).plane.Showable)
      (performActs acts t).plane.lines ∧
    (∀ (x y : Int32) (content : String), (content.length : Int) ≤ greatest →
      ((Act.primitive (.text x y content)).Fits t ↔ Room x (content.length - 1))) ∧
    (∀ (line : List Char) (x y : Int32) (palettes : Code.Palettes),
      ((Code.closed line).length : Int) ≤ greatest →
        ((Act.code line x y palettes).Fits t ↔ Room x ((Code.closed line).length - 1))) := by
  refine ⟨?_, fun x _ content h => Reckoning.checked.forall_reaches_iff (by omega),
    fun line x y palettes h => Act.fits_code_iff h x y palettes t⟩
  have hacts : Answers (acts.foldlM (fun t a => a.perform? t) t)
      (∀ before act after, acts = before ++ act :: after → act.Fits (performActs before t))
      (performActs acts t) :=
    Answers.foldlM (fun t a => Act.answers_perform a t) acts t
  exact hacts.bind fun _ => Plane.answers_lines (performActs acts t).plane

def twoColumns : Terminal := start ⟨9, 6⟩ ⟨2, 1, 1, "", []⟩ (Gallery.empty.insert "tower" "a\nb")

def atLimit : List Act :=
  [.primitive (.text 2147483647 0 "ab"), .primitive (.image 0 2147483647 "tower"),
    .code "a b".toList 2147483647 0 .standard, .code "\"a\"".toList 2147483646 0 .standard,
    .primitive (.scrollBackground 2147483647)]

/-- Each of them stops the machine, so it is not so that whatever is drawn is clipped. Code at the end
of the range cannot be drawn on any display. -/
theorem not_clipped :
    Reckoning.checked.code "a b".toList 2147483647 0 .standard = none ∧
      (∀ act ∈ atLimit, picture? [act] twoColumns = none) ∧
      ¬ ∀ (size : Size) (settings : Settings) (gallery : Gallery) (acts : List Act),
        (picture? acts (start size settings gallery)).isSome := by
  have hlimit : ∀ act ∈ atLimit, picture? [act] twoColumns = none := by decide +kernel
  refine ⟨by decide +kernel, hlimit, fun h => ?_⟩
  have hnone := hlimit (.code "a b".toList 2147483647 0 .standard) (by simp [atLimit])
  have hsome : (picture? [.code "a b".toList 2147483647 0 .standard] twoColumns).isSome :=
    h ⟨9, 6⟩ ⟨2, 1, 1, "", []⟩ (Gallery.empty.insert "tower" "a\nb") _
  rw [hnone] at hsome
  cases hsome

end Terminal

end TileDeck
