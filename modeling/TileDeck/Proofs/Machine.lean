import TileDeck.Machine.Presentation
import TileDeck.Proofs.Page.Lines
import TileDeck.Proofs.Run.Visits

set_option autoImplicit false

namespace TileDeck

variable {σ : Type} [Surface σ]

/-- As long as its display is in a state of `I`, the machine does what is told of `A`. -/
structure Machine.Goes (m : Machine σ) (A : Primitive → Prop) (I : σ → Prop) : Prop where
  perform : ∀ {p surface}, A p → I surface → m.perform p surface = some (Surface.perform p surface)
  nextFrame : ∀ {surface}, I surface → m.nextFrame surface = some (Surface.nextFrame surface)
  drawn : ∀ {p surface}, A p → I surface → I (Surface.perform p surface)
  shown : ∀ {surface}, I surface → I (Surface.nextFrame surface)

namespace Machine.Goes

open Markup Page

variable {m : Machine σ} {A : Primitive → Prop} {I : σ → Prop} (h : m.Goes A I)
include h

theorem kept : Stage.Kept A fun (_ : Remote) (surface : σ) => I surface :=
  .of_frames (fun _ _ _ => h.drawn) (fun _ _ hi => hi) (fun _ _ _ => h.shown)

theorem performAll {ps : List Primitive} (hp : ∀ p ∈ ps, A p) {surface : σ} (hi : I surface) :
    m.performAll ps surface = some (Surface.performAll ps surface) := by
  induction ps generalizing surface with
  | nil => rfl
  | cons p ps ih =>
    rw [List.forall_mem_cons] at hp
    rw [Machine.performAll, List.foldlM_cons, h.perform hp.1 hi]
    exact ih hp.2 (h.drawn hp.1 hi)

theorem draw {ps : List Primitive} (hp : ∀ p ∈ ps, A p) {stage : Stage σ} (hi : I stage.surface) :
    m.draw ps stage = some (stage.draw ps) := by
  rw [Machine.draw, h.performAll hp hi]
  rfl

theorem waitFor {idle : List Primitive} (hp : ∀ p ∈ idle, A p) (remote : Remote) {surface : σ}
    (hi : I surface) : m.waitFor idle remote surface = some (remote.await idle surface) := by
  fun_induction Remote.await idle remote surface with
  | case1 remote surface turn ht => rw [Machine.waitFor, ht]
  | case2 remote surface ht hf => rw [Machine.waitFor, ht, dif_pos hf]
  | case3 remote surface ht hf ih =>
    have hdrawn := Surface.performAll_keeps (fun _ _ => h.drawn) hp hi
    rw [Machine.waitFor, ht, dif_neg hf, h.performAll hp hi]
    simp only [Option.bind_eq_bind, Option.bind_some, h.nextFrame hdrawn]
    exact ih (h.shown hdrawn)

theorem await {idle : List Primitive} (hp : ∀ p ∈ idle, A p) {stage : Stage σ}
    (hi : I stage.surface) : m.await idle stage = some (stage.await idle) := by
  rw [Machine.await, h.waitFor hp stage.remote hi]
  rfl

theorem endOnTurn {idle : List Primitive} (hp : ∀ p ∈ idle, A p) {stage : Stage σ}
    (hi : I stage.surface) : m.endOnTurn idle stage = some (Page.endOnTurn idle stage) := by
  rw [Machine.endOnTurn, h.await hp hi]
  rfl

theorem pause {stage : Stage σ} (hi : I stage.surface) : m.pause stage = some (Page.pause stage) := by
  rw [Machine.pause, h.await (List.forall_mem_nil A) hi, Page.pause]
  generalize stage.await [] = waited
  obtain ⟨_ | _ | _, _⟩ := waited <;> rfl

end Machine.Goes

namespace Page

open Markup

/-- The words for what a command draws can be reckoned. Only titles, texts and code need any. -/
def Reckons (r : Reckoning) (options : Options) (ink : PaletteId) : Command → Prop
  | .title text => r.titleLine options text = some (titleLine options text)
  | .text x y bg text => r.textLine x y bg text = some (textLine x y bg text)
  | .code x y code => r.codeLine options ink x y code = some (codeLine options ink x y code)
  | _ => True

def Extends (r : Reckoning) (options : Options) (ink : PaletteId) (cursor : Cursor)
    (text : String) : Prop :=
  match cursor.mode with
  | .none => True
  | .text bg => r.textLine cursor.x cursor.y bg text = some (textLine cursor.x cursor.y bg text)
  | .code =>
    r.codeLine options ink cursor.x cursor.y text =
      some (codeLine options ink cursor.x cursor.y text)

end Page

namespace Machine.Goes

open Markup Page

variable {m : Machine σ} {A : Primitive → Prop} {I : σ → Prop} (h : m.Goes A I)
  {options : Options} {stage : Stage σ}
include h

theorem execute (hscroll : A (.scrollBackground 1)) {command : Command}
    (hr : Reckons m.reckoning options stage.ink command)
    (hd : ∀ p ∈ drawing options stage command, A p) (hi : I stage.surface) :
    m.execute options stage command = some (Page.execute options stage command) := by
  have hdraw := h.draw hd hi
  have hdrawn := kept_draw h.kept hd stage hi
  cases command with
  | title | text | code =>
    rw [Machine.execute, hr, Option.bind_eq_bind, Option.bind_some]
    exact congrArg (Option.bind · _) hdraw
  | pause => exact h.pause hi
  | titleScreen | demoGame =>
    exact (congrArg (Option.bind · _) hdraw).trans (h.endOnTurn (List.forall_mem_nil A) hdrawn)
  | scroll => exact h.endOnTurn (List.forall_mem_singleton.2 hscroll) hi
  | initProgress =>
    have hinit : m.initProgress stage = some (Page.initProgress stage) :=
      congrArg (Option.bind · _) hdraw
    exact congrArg (Option.bind · _) hinit
  | resetTimer =>
    have hreset : m.resetTimer stage = some (Page.resetTimer stage) :=
      congrArg (Option.bind · _) hdraw
    exact congrArg (Option.bind · _) hreset
  | _ => exact congrArg (Option.bind · _) hdraw

theorem proceed {text : String}
    (hr : Extends m.reckoning options stage.ink stage.cursor text)
    (hd : ∀ p ∈ extension options stage text, A p) (hi : I stage.surface) :
    m.proceed options text stage = some (Page.proceed options text stage) := by
  have hdraw := h.draw hd hi
  unfold extension at hdraw
  unfold Extends at hr
  unfold Machine.proceed Page.proceed
  cases hm : stage.cursor.mode with
  | none => rfl
  | text bg | code =>
    rw [hm] at hr hdraw
    dsimp only at hr hdraw ⊢
    rw [hr, Option.bind_eq_bind, Option.bind_some]
    exact congrArg (Option.bind · _) hdraw

end Machine.Goes

end TileDeck
