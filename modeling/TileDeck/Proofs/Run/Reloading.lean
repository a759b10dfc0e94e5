import Mathlib.Data.List.Induction
import Mathlib.Logic.Function.Iterate
import TileDeck.Proofs.Page.Lockstep
import TileDeck.Proofs.Page.Reach
import TileDeck.Proofs.Plane.Clearing

set_option autoImplicit false

/-!
# Reloading a page

A page that hands nothing to the viewer may find other settings when it is visited again, since
colours, palettes and the backdrop outlive it. But it sets them in the same order each time, and what
it has set once it only sets again: from the second visit on the page looks the same.
-/
namespace TileDeck

open Markup

section Overwriting
variable {α β : Type} {f : α → β → α} (self : ∀ a b, f (f a b) b = f a b)
  (absorbs : ∀ a b c, f (f (f a b) c) b = f (f a c) b)
include self absorbs

/-- A last step undoes the difference that the same step made before the others. -/
theorem foldl_absorbs (bs : List β) (a : α) (b : β) :
    f (bs.foldl f (f a b)) b = f (bs.foldl f a) b := by
  induction bs using List.reverseRecOn generalizing b with
  | nil => exact self a b
  | append_singleton bs c ih =>
    rw [List.foldl_concat, List.foldl_concat]
    calc
      f (f (bs.foldl f (f a b)) c) b = f (f (f (bs.foldl f (f a b)) b) c) b := (absorbs _ b c).symm
      _ = f (f (f (bs.foldl f a) b) c) b := by rw [ih b]
      _ = f (f (bs.foldl f a) c) b := absorbs _ b c

theorem foldl_foldl (bs : List β) (a : α) : bs.foldl f (bs.foldl f a) = bs.foldl f a := by
  induction bs using List.reverseRecOn with
  | nil => rfl
  | append_singleton bs b ih =>
    rw [List.foldl_concat, List.foldl_concat, foldl_absorbs self absorbs, ih]

end Overwriting

/-- A change that outlives the page. -/
inductive Lasting
  | colour (id : PaletteId) (colour : Rgb)
  | ink (id : PaletteId)
  | restored
  | backdrop (id : PaletteId)
  | marked
  | unmarked
  | timed
  | untimed
deriving DecidableEq, Repr

def Markup.Command.lasting? : Command → Option Lasting
  | .setColour id colour => some (.colour id colour)
  | .textPalette id => some (.ink id)
  | .code .. => some .restored
  | .backdrop id => some (.backdrop id)
  | .initProgress => some .marked
  | .hideProgress => some .unmarked
  | .resetTimer => some .timed
  | .hideTimer => some .untimed
  | _ => none

/-- What a visit finds: the plane, cleared, the ink of the stage, and the position, which tells what
there is to say of the progress. -/
structure Legacy where
  plane : Plane
  ink : PaletteId
  position : Position

namespace Legacy

def after (legacy : Legacy) : Lasting → Legacy
  | .colour id colour => { legacy with plane := legacy.plane.setColour id colour }
  | .ink id => { legacy with plane := legacy.plane.setInk id, ink := id }
  | .restored => { legacy with plane := legacy.plane.setInk legacy.ink }
  | .backdrop id => { legacy with plane := legacy.plane.setBackdrop id }
  | .marked => { legacy with position := legacy.position.markStart }
  | .unmarked => { legacy with position := legacy.position.clearStart }
  | .timed => { legacy with position := legacy.position.resetTimer 0 }
  | .untimed => { legacy with position := legacy.position.hideTimer }

theorem after_self (legacy : Legacy) (change : Lasting) :
    (legacy.after change).after change = legacy.after change := by
  cases change with
  | colour id colour => simp only [after, Plane.setColour_setColour]
  | _ => rfl

theorem after_absorbs (legacy : Legacy) (change other : Lasting) :
    ((legacy.after change).after other).after change = (legacy.after other).after change := by
  cases change with
  | colour id colour =>
    -- only colours have more than one place: two of them either meet or pass each other
    cases other with
    | colour id' colour' =>
      by_cases h : id = id'
      · subst h
        simp only [after, Plane.setColour_setColour]
      · simp only [after, Plane.setColour_comm h, Plane.setColour_setColour]
    | _ => simp only [after, Plane.setColour, Plane.setInk, Plane.setBackdrop, Palette.set_set]
  | _ => cases other <;> rfl

end Legacy

def Stage.legacy (stage : Stage Terminal) : Legacy :=
  ⟨stage.surface.plane.clear, stage.ink, stage.position.untimed⟩

theorem Terminal.clear_codeLine (options : Options) (ink : PaletteId) (x y : Int32)
    (code : String) (t : Terminal) :
    (Surface.performAll (Page.codeLine options ink x y code) t).plane.clear =
      t.plane.clear.setInk ink := by
  have hd : ∀ p ∈ Code.draw code.toList x y options.palettes,
      p.paints ∨ ∃ id, p = .textPalette id := by
    intro p hp
    have hline : p ∈ Page.codeLine options ink x y code := List.mem_append_left _ hp
    exact Page.paints_codeLine hline
  have hk : (Surface.performAll (Code.draw code.toList x y options.palettes) t).plane.clear.setInk
      ink = t.plane.clear.setInk ink := by
    refine Surface.performAll_keeps (A := fun p => p.paints ∨ ∃ id, p = .textPalette id)
      (I := fun u : Terminal => u.plane.clear.setInk ink = t.plane.clear.setInk ink) ?_ hd rfl
    rintro p u (hp | ⟨id, rfl⟩) hu
    · rw [clear_perform hp, hu]
    · exact hu
  unfold Page.codeLine Surface.performAll
  rw [List.foldl_append]
  exact hk

namespace Page

theorem legacy_draw {ps : List Primitive} (h : ∀ p ∈ ps, p.paints) (stage : Stage Terminal) :
    (stage.draw ps).legacy = stage.legacy :=
  congrArg (Legacy.mk · stage.ink stage.position.untimed)
    (Terminal.clear_performAll h stage.surface)

theorem legacy_initProgress (stage : Stage Terminal) :
    (initProgress stage).legacy = stage.legacy.after .marked := by
  unfold initProgress
  dsimp only
  cases stage.position.markStart.progress? <;> rfl

theorem legacy_execute (options : Options) (stage : Stage Terminal) {command : Command}
    (h : command.waits = false) :
    (execute options stage command).2.legacy =
      command.lasting?.toList.foldl Legacy.after stage.legacy := by
  cases command with
  | pause | titleScreen | demoGame | scroll => simp [Command.waits] at h
  | title text => exact legacy_draw (fun _ hp => paints_titleLine hp) stage
  | text x y bg text => exact legacy_draw (fun _ hp => paints_textLine hp) stage
  | box x y width height bg => exact legacy_draw (fun _ hp => Box.paints_draw _ _ hp) stage
  | arrow x y direction length branches =>
    exact legacy_draw (fun _ hp => Arrow.paints_draw _ hp) stage
  | image x y name => exact legacy_draw (by simp [Primitive.paints]) stage
  | code x y code =>
    exact congrArg (Legacy.mk · stage.ink stage.position.untimed)
      (Terminal.clear_codeLine options stage.ink x y code stage.surface)
  | initProgress => exact legacy_initProgress stage
  | sleep frames =>
    exact congrArg (fun plane => Legacy.mk plane.clear stage.ink stage.position.untimed)
      (Terminal.plane_sleep stage.surface frames.toNat)
  | _ => rfl

def Restored (stage : Stage Terminal) : Prop :=
  stage.cursor.mode = .code → stage.surface.plane.ink = stage.ink

theorem restored_execute (options : Options) {stage : Stage Terminal}
    (hm : stage.cursor.mode = .none) {command : Command} (h : command.waits = false) :
    Restored (execute options stage command).2 := by
  cases command with
  | pause | titleScreen | demoGame | scroll => simp [Command.waits] at h
  | text => exact fun hc => by cases hc
  | code x y code =>
    intro _
    change (Surface.performAll (codeLine options stage.ink x y code) stage.surface).plane.ink =
      stage.ink
    rw [← Plane.ink_clear, Terminal.clear_codeLine]
    rfl
  | _ => exact fun hc => absurd (hm.symm.trans hc) (by simp)

theorem legacy_proceed (options : Options) (text : String) {stage : Stage Terminal}
    (h : Restored stage) : (proceed options text stage).legacy = stage.legacy := by
  unfold proceed
  split
  · rfl
  · exact legacy_draw (fun _ hp => paints_textLine hp) stage
  · rename_i hm
    have hc := Terminal.clear_codeLine options stage.ink stage.cursor.x stage.cursor.y text
      stage.surface
    have hi : stage.surface.plane.clear.setInk stage.ink = stage.surface.plane.clear := by
      rw [← h hm]
      rfl
    exact congrArg (Legacy.mk · stage.ink stage.position.untimed) (hc.trans hi)

theorem restored_proceed (options : Options) (text : String) {stage : Stage Terminal}
    (h : Restored stage) : Restored (proceed options text stage) := by
  have hl := legacy_proceed options text h
  have hink : (proceed options text stage).ink = stage.ink := congrArg Legacy.ink hl
  have hplane : (proceed options text stage).surface.plane.ink = stage.surface.plane.ink :=
    congrArg (fun legacy => legacy.plane.ink) hl
  intro hc
  rw [(cursor_proceed options text stage).1] at hc
  rw [hink, hplane, h hc]

def lasting? (line : String) : Option Lasting := (Line.command? line).bind Command.lasting?

theorem legacy_showLine (options : Options) (number : Nat) {line : String}
    {stage : Stage Terminal} (hw : ∀ command ∈ Line.command? line, command.waits = false)
    (h : Restored stage) :
    ∃ next, showLine options number line stage = (.onward, next) ∧ next.remote = stage.remote ∧
      next.legacy = (lasting? line).toList.foldl Legacy.after stage.legacy ∧ Restored next := by
  unfold lasting?
  cases hc : Line.command? line with
  | some command =>
    have hw := hw command hc
    unfold showLine
    rw [Line.command?_eq_some.1 hc]
    obtain ⟨hf, hr, _⟩ :=
      execute_drawing options { stage with cursor := stage.cursor.leave } hw
    refine ⟨_, Prod.ext hf rfl, hr, ?_, restored_execute options rfl hw⟩
    exact legacy_execute options { stage with cursor := stage.cursor.leave } hw
  | none =>
    unfold showLine
    split
    · exact ⟨stage, rfl, rfl, rfl, h⟩
    · rename_i text _
      exact ⟨_, rfl, remote_proceed options text stage, legacy_proceed options text h,
        restored_proceed options text h⟩
    · rename_i command hp
      rw [Line.command?_eq_some.2 hp] at hc
      contradiction
    · exact ⟨_, rfl, rfl, rfl, h⟩

theorem legacy_showLines (options : Options) (number : Nat) {lines : List String}
    {stage : Stage Terminal}
    (hw : ∀ line ∈ lines, ∀ command ∈ Line.command? line, command.waits = false)
    (h : Restored stage) :
    (showLines options number stage lines).2.remote = stage.remote ∧
      (showLines options number stage lines).2.legacy =
        (lines.filterMap lasting?).foldl Legacy.after stage.legacy := by
  induction lines generalizing number stage with
  | nil => exact ⟨rfl, rfl⟩
  | cons line rest ih =>
    rw [List.forall_mem_cons] at hw
    obtain ⟨next, hs, hr, hl, hn⟩ := legacy_showLine options number hw.1 h
    obtain ⟨ihr, ihl⟩ := ih (number + 1) hw.2 hn
    rw [showLines_onward hs, ihr, ihl, hr, hl]
    refine ⟨rfl, ?_⟩
    cases hlast : lasting? line with
    | none => rw [List.filterMap_cons_none hlast]; rfl
    | some change => rw [List.filterMap_cons_some hlast]; rfl

/-- No line of a page hands the screen to the viewer. -/
def Waitless (text : String) : Prop :=
  ∀ line ∈ scriptLines text, ∀ command ∈ Line.command? line, command.waits = false

instance (text : String) : Decidable (Waitless text) := by
  unfold Waitless
  infer_instance

def visit (options : Options) (text : String) (stage : Stage Terminal) : Stage Terminal :=
  (showPage options text (stage.draw [.clear])).2

theorem legacy_visit (options : Options) {text : String} (hw : Waitless text)
    (stage : Stage Terminal) :
    (visit options text stage).remote = stage.remote ∧
      (visit options text stage).legacy =
        ((scriptLines text).filterMap lasting?).foldl Legacy.after stage.legacy := by
  have hidle : Restored (opened (stage.draw [.clear])) := fun hc => by cases hc
  exact legacy_showLines options 1 hw hidle

theorem legacy_visit_visit (options : Options) {text : String} (hw : Waitless text)
    (stage : Stage Terminal) :
    (visit options text (visit options text stage)).legacy = (visit options text stage).legacy := by
  rw [(legacy_visit options hw _).2, (legacy_visit options hw stage).2,
    foldl_foldl Legacy.after_self Legacy.after_absorbs]

theorem fixed_visit (options : Options) (text : String) (stage : Stage Terminal) :
    Terminal.Fixed stage.surface (visit options text stage).surface :=
  kept_showLines (Terminal.kept_fixed stage.surface) options 1 _
    (opened (stage.draw [.clear])) ⟨rfl, rfl, rfl, rfl⟩

end Page

namespace Terminal

structure SamePicture (t u : Terminal) : Prop where
  plane : u.plane = t.plane
  gallery : u.gallery = t.gallery
  title : u.title = t.title

theorem samePicture_onPlane {t u : Terminal} (h : SamePicture t u) (f : Plane → Plane) :
    SamePicture (t.onPlane f) (u.onPlane f) :=
  ⟨congrArg f h.plane, h.gallery, h.title⟩

theorem samePicture_perform {t u : Terminal} (h : SamePicture t u) (p : Primitive) :
    SamePicture (Surface.perform p t) (Surface.perform p u) := by
  cases p with
  | progress | hideProgress | timer | hideTimer => exact ⟨h.plane, h.gallery, h.title⟩
  | sound => exact h
  | sleep frames =>
    have ht := fixed_sleep t frames.toNat
    have hu := fixed_sleep u frames.toNat
    refine ⟨?_, ?_, ?_⟩
    · exact (u.plane_sleep _).trans (h.plane.trans (t.plane_sleep _).symm)
    · exact hu.gallery.trans (h.gallery.trans ht.gallery.symm)
    · exact hu.title.trans (h.title.trans ht.title.symm)
  | image x y name =>
    change SamePicture (t.onPlane (putImage t.gallery x y name))
      (u.onPlane (putImage u.gallery x y name))
    rw [h.gallery]
    exact samePicture_onPlane h _
  | titleScreen =>
    change SamePicture (t.onPlane (Plane.titleCard t.title)) (u.onPlane (Plane.titleCard u.title))
    rw [h.title]
    exact samePicture_onPlane h _
  | demoGame =>
    exact samePicture_onPlane h fun plane => plane.clear.putText 2 plane.middleRow demoText
  | _ => exact samePicture_onPlane h _

end Terminal

def Comparison.picture : Comparison Terminal Terminal :=
  ⟨fun r t r' u => r' = r ∧ Terminal.SamePicture t u, fun _ _ => True, id⟩

theorem Comparison.lawful_picture : Comparison.picture.Lawful := by
  refine .of_displays ?_ ?_ fun _ _ _ => trivial
  · intro p p' t u hp h
    cases hp with
    | same p => exact Terminal.samePicture_perform h p
    | timer => exact ⟨h.plane, h.gallery, h.title⟩
  · intro t u h
    exact ⟨h.plane, h.gallery, h.title⟩

namespace Page

/-- A visit shows what it finds and nothing else of the past. -/
theorem plane_visit (options : Options) (text : String) {s t : Stage Terminal}
    (hremote : t.remote = s.remote) (hfixed : Terminal.Fixed s.surface t.surface)
    (hlegacy : t.legacy = s.legacy) :
    (visit options text t).surface.plane = (visit options text s).surface.plane := by
  have hplane : (t.draw [.clear]).surface.plane = (s.draw [.clear]).surface.plane :=
    congrArg Legacy.plane hlegacy
  have ha : Comparison.picture.Agree (opened (s.draw [.clear])) (opened (t.draw [.clear])) :=
    ⟨⟨hremote, hplane, hfixed.gallery, hfixed.title⟩, (congrArg Legacy.position hlegacy).symm,
      trivial, rfl, (congrArg Legacy.ink hlegacy).symm, rfl⟩
  obtain ⟨_, h⟩ := Comparison.agree_showPage Comparison.lawful_picture options (.inl rfl) ha
  exact h.joined.2.plane

/-- Every visit after the first finds what the first has left. -/
theorem found_again (options : Options) {text : String} (hw : Waitless text)
    (stage : Stage Terminal) (n : Nat) :
    let first := visit options text stage
    let later := (visit options text)^[n] first
    later.remote = first.remote ∧ Terminal.Fixed first.surface later.surface ∧
      later.legacy = first.legacy := by
  induction n with
  | zero => exact ⟨rfl, .refl _, rfl⟩
  | succ n ih =>
    dsimp only at ih ⊢
    rw [Function.iterate_succ_apply']
    obtain ⟨hr, hf, hl⟩ := ih
    -- of the visits so far only what the induction tells is needed
    generalize (visit options text)^[n] (visit options text stage) = later at hr hf hl ⊢
    refine ⟨(legacy_visit options hw later).1.trans hr, hf.trans (fixed_visit options text later), ?_⟩
    rw [(legacy_visit options hw later).2, hl, ← (legacy_visit options hw _).2,
      legacy_visit_visit options hw]

/-- Visited again and again, a page that hands nothing to the viewer shows from the second visit on
the same symbols in the same colours. -/
theorem lines_visit_again (options : Options) {text : String} (hw : Waitless text)
    (stage : Stage Terminal) (n : Nat) :
    ((visit options text)^[n + 2] stage).surface.plane.lines =
      ((visit options text)^[2] stage).surface.plane.lines := by
  obtain ⟨hr, hf, hl⟩ := found_again options hw stage n
  have hplane := plane_visit options text hr hf hl
  rw [← Function.iterate_succ_apply' (visit options text),
    ← Function.iterate_succ_apply (visit options text)] at hplane
  exact congrArg Plane.lines hplane

def belated : String := "txt,0,0: a\ntxtpal,1:\nsetcolour,1,#010203:"

theorem belated_twice :
    let stage := Stage.ready .standard 1 (.ofScript [])
      (Terminal.start ⟨1, 1⟩ ⟨1, 1, 1, "", []⟩ .empty)
    let shown := fun n => ((visit .standard belated)^[n] stage).surface.plane.lines
    Waitless belated ∧ shown 2 ≠ shown 1 ∧ shown 3 = shown 2 := by
  intro stage shown
  have hw : Waitless belated := by decide +kernel
  have hfirst : shown 2 ≠ shown 1 := by decide +kernel
  exact ⟨hw, hfirst, lines_visit_again .standard hw stage 1⟩

end Page

end TileDeck
