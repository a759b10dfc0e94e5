import TileDeck.Proofs.Position
import TileDeck.Proofs.Run.Past
import TileDeck.Terminal

set_option autoImplicit false

namespace TileDeck

open Markup

def Primitive.indicates : Primitive → Bool
  | progress .. | hideProgress | timer .. | hideTimer => true
  | _ => false

theorem Primitive.indicates_of_paints {p : Primitive} (h : p.paints) : p.indicates = false := by
  cases p <;> first | rfl | simp [paints] at h

def Markup.Command.indicates : Command → Bool
  | .initProgress | .hideProgress | .resetTimer | .hideTimer => true
  | _ => false

namespace Terminal

/-- The indicators stay, and time does not run backwards. -/
structure Undisturbed (before after : Terminal) : Prop where
  progress : after.progress = before.progress
  timer : after.timer = before.timer
  frames : before.frames ≤ after.frames

theorem Undisturbed.refl (t : Terminal) : Undisturbed t t := ⟨rfl, rfl, Nat.le_refl _⟩

theorem Undisturbed.trans {first middle last : Terminal} (h : Undisturbed first middle)
    (h' : Undisturbed middle last) : Undisturbed first last :=
  ⟨h'.progress.trans h.progress, h'.timer.trans h.timer, Nat.le_trans h.frames h'.frames⟩

theorem undisturbed_nextFrame (t : Terminal) : Undisturbed t t.nextFrame :=
  ⟨rfl, rfl, Nat.le_succ _⟩

theorem undisturbed_sleep (t : Terminal) (n : Nat) : Undisturbed t (t.sleep n) := by
  cases n with
  | zero => exact .refl t
  | succ n => exact ⟨rfl, rfl, by change t.frames ≤ t.frames + n + 1; omega⟩

theorem undisturbed_onPlane (f : Plane → Plane) (t : Terminal) : Undisturbed t (t.onPlane f) :=
  ⟨rfl, rfl, Nat.le_refl _⟩

theorem undisturbed_perform {p : Primitive} (h : p.indicates = false) (t : Terminal) :
    Undisturbed t (Surface.perform p t) := by
  change Undisturbed t (perform p t)
  unfold perform
  cases p with
  | progress | hideProgress | timer | hideTimer => simp [Primitive.indicates] at h
  | sleep frames => exact undisturbed_sleep t frames.toNat
  | sound => exact .refl t
  | _ => exact undisturbed_onPlane _ t

theorem kept_undisturbed (first : Terminal) :
    Stage.Kept (·.indicates = false) fun (_ : Remote) (t : Terminal) => Undisturbed first t :=
  .of_frames (fun _ _ t hp h => h.trans (undisturbed_perform hp t)) (fun _ _ h => h)
    (fun _ t _ h => h.trans (undisturbed_nextFrame t))

end Terminal

namespace Presentation

/-- What the terminal shows is what the position says, but for the progress on pages where nobody
has told it yet: there it is only known that nothing is shown without a mark. -/
structure Mirrors (stage : Stage Terminal) : Prop where
  unmarked : stage.position.start = none → stage.surface.progress = none
  timer : stage.surface.timer =
    if stage.position.timerVisible then some stage.position.timerBaseline else none
  baseline : stage.position.timerBaseline ≤ stage.surface.frames

theorem Mirrors.undisturbed {stage next : Stage Terminal} (h : Mirrors stage)
    (hs : Terminal.Undisturbed stage.surface next.surface) (hp : next.position = stage.position) :
    Mirrors next := by
  refine ⟨fun hn => ?_, ?_, ?_⟩
  · rw [hp] at hn
    rw [hs.progress, h.unmarked hn]
  · rw [hs.timer, h.timer, hp]
  · rw [hp]
    exact Nat.le_trans h.baseline hs.frames

theorem Mirrors.moved {stage : Stage Terminal} (h : Mirrors stage) (index : Option Nat) :
    Mirrors { stage with position := { stage.position with index := index } } :=
  ⟨h.unmarked, h.timer, h.baseline⟩

theorem mirrors_draw {stage : Stage Terminal} (h : Mirrors stage) {ps : List Primitive}
    (hp : ∀ p ∈ ps, p.indicates = false) : Mirrors (stage.draw ps) :=
  h.undisturbed (Page.kept_draw (Terminal.kept_undisturbed stage.surface) hp stage (.refl _)) rfl

theorem indicates_drawing {options : Options} {stage : Stage Terminal} {command : Command}
    (hc : command.indicates = false) {p : Primitive} (h : p ∈ Page.drawing options stage command) :
    p.indicates = false := by
  cases command with
  | initProgress | hideProgress | resetTimer | hideTimer => simp [Command.indicates] at hc
  | title => exact Primitive.indicates_of_paints (Page.paints_titleLine h)
  | text => exact Primitive.indicates_of_paints (Page.paints_textLine h)
  | box => exact Primitive.indicates_of_paints (Box.paints_draw _ _ h)
  | arrow => exact Primitive.indicates_of_paints (Arrow.paints_draw _ h)
  | code =>
    rcases Page.paints_codeLine h with h | ⟨id, rfl⟩
    · exact Primitive.indicates_of_paints h
    · rfl
  | pause | scroll => simp [Page.drawing] at h
  | _ =>
    obtain rfl := List.mem_singleton.1 h
    rfl

theorem position_execute {σ : Type} [Surface σ] (options : Options) (stage : Stage σ)
    {command : Command}
    (hc : command.indicates = false) :
    (Page.execute options stage command).2.position = stage.position := by
  cases command with
  | initProgress | hideProgress | resetTimer | hideTimer => simp [Command.indicates] at hc
  | pause =>
    change (Page.pause stage).2.position = stage.position
    rw [Page.pause_await]
    rfl
  | _ => rfl

/-- The page that is marked is the one shown, so there is progress to tell. -/
theorem mirrors_initProgress {stage : Stage Terminal} (h : Mirrors stage) :
    Mirrors (Page.initProgress stage) := by
  have hshown : stage.position.markStart.progress? =
      some (1, stage.position.pages - stage.position.index.getD 0) := by
    simp [Position.progress?, Position.markStart]
  unfold Page.initProgress
  dsimp only
  rw [hshown]
  exact ⟨fun hn => by simp [Position.markStart] at hn, h.timer, h.baseline⟩

theorem mirrors_execute (options : Options) {stage : Stage Terminal} (h : Mirrors stage)
    (command : Command) : Mirrors (Page.execute options stage command).2 := by
  cases hc : command.indicates with
  | false =>
    have hs := Page.kept_execute (Terminal.kept_undisturbed stage.surface) rfl options stage command
      (fun p hp => indicates_drawing hc hp) (.refl _)
    exact h.undisturbed hs (position_execute options stage hc)
  | true =>
    cases command with
    | initProgress => exact mirrors_initProgress h
    | hideProgress => exact ⟨fun _ => rfl, h.timer, h.baseline⟩
    | resetTimer => exact ⟨h.unmarked, rfl, Nat.le_refl _⟩
    | hideTimer => exact ⟨h.unmarked, rfl, h.baseline⟩
    | _ => simp [Command.indicates] at hc

theorem mirrors_proceed (options : Options) {stage : Stage Terminal} (h : Mirrors stage)
    (text : String) : Mirrors (Page.proceed options text stage) := by
  have hs : Terminal.Undisturbed stage.surface (Page.proceed options text stage).surface := by
    refine Page.kept_proceed (Terminal.kept_undisturbed stage.surface) options text stage
      (fun p hp => ?_) (.refl _)
    rcases Page.mem_extension hp with hp | ⟨⟨id, rfl⟩, _⟩
    · exact Primitive.indicates_of_paints hp
    · rfl
  refine h.undisturbed hs ?_
  unfold Page.proceed
  split <;> rfl

theorem mirrors_showLine (options : Options) (number : Nat) (line : String)
    {stage : Stage Terminal} (h : Mirrors stage) :
    Mirrors (Page.showLine options number line stage).2 := by
  have hleft : Mirrors { stage with cursor := stage.cursor.leave } := h.undisturbed (.refl _) rfl
  unfold Page.showLine
  split
  · exact h
  · exact mirrors_proceed options h _
  · exact mirrors_execute options hleft _
  · exact h.undisturbed (.refl _) rfl

theorem mirrors_refreshProgress {stage : Stage Terminal} (h : Mirrors stage) :
    Mirrors (refreshProgress stage) ∧
      (refreshProgress stage).surface.progress = (refreshProgress stage).position.progress? := by
  unfold refreshProgress
  split
  · rename_i done total hp
    refine ⟨⟨fun hn => ?_, h.timer, h.baseline⟩, hp.symm⟩
    have hs : stage.position.start = none := hn
    simp [Position.progress?, hs] at hp
  · rename_i start hp hs
    exact ⟨⟨fun _ => rfl, h.timer, h.baseline⟩, hp.symm⟩
  · rename_i hp hs
    exact ⟨h, (h.unmarked hs).trans hp.symm⟩

theorem steady_mirrors (options : Options) : Steady options fun _ stage => Mirrors stage where
  cleared _ _ h := mirrors_draw h (by simp [Primitive.indicates])
  opened _ _ h := h.undisturbed (.refl _) rfl
  line _ _ number line h := mirrors_showLine options number line h
  refreshed _ _ h := (mirrors_refreshProgress h).1
  waited _ stage h := by
    have hs := (Terminal.kept_undisturbed stage.surface).waited [] stage.remote stage.surface
      (by simp) (.refl _)
    exact h.undisturbed hs rfl
  turned _ stage turn h := by
    rw [Position.apply_eq]
    exact h.moved _

theorem mirrors_cycles (deck : Deck) (options : Options) {stage : Stage Terminal}
    (h : Mirrors stage) (n : Nat) : Mirrors (cycles deck options n stage) := by
  induction n with
  | zero => exact h
  | succ n ih => exact steady_cycle (steady_mirrors options) [] ih

theorem mirrors_opening (deck : Deck) (options : Options) (pad : Pad) (size : Terminal.Size)
    (settings : Terminal.Settings) (gallery : Gallery) :
    Mirrors (opening deck options pad (Terminal.start size settings gallery)) := by
  unfold opening start
  rw [Position.begin_eq]
  exact Mirrors.moved ⟨fun _ => rfl, rfl, Nat.le_refl _⟩ _

/-- Once a page is shown, the indicators of the terminal tell what the position does, and the timer
counts from a frame that is over. -/
theorem indicators_mirror (deck : Deck) (options : Options) (pad : Pad) (size : Terminal.Size)
    (settings : Terminal.Settings) (gallery : Gallery) (n : Nat) :
    let first := opening deck options pad (Terminal.start size settings gallery)
    let stage := cycles deck options n first
    let shown := (showCurrent deck options (stage.draw [.clear])).2
    shown.surface.progress = shown.position.progress? ∧
    (∀ frame, shown.surface.timer = some frame ↔
      shown.position.timerVisible = true ∧ frame = shown.position.timerBaseline) ∧
    ∀ frame, shown.surface.timer = some frame → frame ≤ shown.surface.frames := by
  intro first stage shown
  have hc : Mirrors stage := mirrors_cycles deck options
    (mirrors_opening deck options pad size settings gallery) n
  obtain ⟨before, hb, heq⟩ := steady_before_refresh (steady_mirrors options) deck [] hc
  have hshown : shown = refreshProgress before := heq
  obtain ⟨hm, hprogress⟩ := mirrors_refreshProgress hb
  rw [hshown]
  refine ⟨hprogress, fun frame => ?_, fun frame hf => ?_⟩
  · rw [hm.timer]
    cases (refreshProgress before).position.timerVisible <;> simp [eq_comm]
  · rw [hm.timer] at hf
    obtain rfl : (refreshProgress before).position.timerBaseline = frame := by
      split at hf
      · exact Option.some.inj hf
      · simp at hf
    exact hm.baseline

end Presentation

end TileDeck
