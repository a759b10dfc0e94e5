import Mathlib.Logic.Function.Iterate
import TileDeck.Proofs.Run.Lockstep
import TileDeck.Recorder
import TileDeck.Terminal

set_option autoImplicit false

namespace TileDeck

/-- The frames that a primitive takes by itself. -/
def Primitive.duration : Primitive → Nat
  | sleep frames => frames.toNat
  | _ => 0

structure Surface.KeepsTime (σ : Type) [Surface σ] : Prop where
  performed : ∀ (p : Primitive) (surface : σ),
    Surface.frames (Surface.perform p surface) = Surface.frames surface + p.duration
  waited : ∀ surface : σ, Surface.frames (Surface.nextFrame surface) = Surface.frames surface + 1

theorem Recorder.keepsTime : Surface.KeepsTime Recorder where
  performed p r := by cases p <;> rfl
  waited _ := rfl

namespace Terminal

/-- Sleeping is waiting for one frame after the other; of the paintings only the last is seen. -/
theorem sleep_eq_iterate (t : Terminal) (n : Nat) : t.sleep n = nextFrame^[n] t := by
  induction n with
  | zero => rfl
  | succ n ih =>
    rw [Function.iterate_succ_apply', ← ih]
    cases n with
    | zero => rfl
    | succ n => rfl

theorem frames_sleep (t : Terminal) (n : Nat) : (t.sleep n).frames = t.frames + n := by
  rw [sleep_eq_iterate]
  induction n with
  | zero => rfl
  | succ n ih =>
    rw [Function.iterate_succ_apply']
    change (nextFrame^[n] t).frames + 1 = t.frames + (n + 1)
    rw [ih, Nat.add_assoc]

theorem keepsTime : Surface.KeepsTime Terminal where
  performed p t := by
    cases p with
    | sleep frames => exact t.frames_sleep frames.toNat
    | _ => rfl
  waited _ := rfl

end Terminal

variable {σ τ : Type} [Surface σ] [Surface τ]

def Comparison.paced (σ τ : Type) [Surface σ] [Surface τ] : Comparison σ τ :=
  ⟨fun r s r' s' => r' = r ∧ Surface.frames s' = Surface.frames s, Eq, id⟩

theorem Comparison.lawful_paced (K : Surface.KeepsTime σ) (K' : Surface.KeepsTime τ) :
    (Comparison.paced σ τ).Lawful := by
  refine .of_displays ?_ ?_ fun _ _ h => h.symm
  · intro p p' s s' hp h
    rw [hp.eq, K.performed, K'.performed, h]
  · intro s s' h
    rw [K.waited, K'.waited, h]

namespace Presentation

/-- What can be told of a show after one of its cycles: the turn, the position and the time. -/
structure Outcome where
  turn : Option Turn
  position : Position
  frames : Nat
deriving DecidableEq, Repr

def outcome (deck : Deck) (options : Options) (stage : Stage σ) : Outcome :=
  let next := cycle deck options stage
  ⟨next.1, next.2.position, Surface.frames next.2.surface⟩

def outcomes (deck : Deck) (options : Options) (stage : Stage σ) : List Outcome :=
  (visited deck options stage).map (outcome deck options)

theorem outcome_eq_of_paced {deck : Deck} {options : Options} (K : Surface.KeepsTime σ)
    (K' : Surface.KeepsTime τ) {s : Stage σ} {t : Stage τ} (h : (Comparison.paced σ τ).Agree s t) :
    outcome deck options s = outcome deck options t := by
  obtain ⟨hturn, ha⟩ := agree_cycle (Comparison.lawful_paced K K') options
    (Comparison.sameDeck_self _ deck) h
  have hp : (cycle deck options s).2.position = (cycle deck options t).2.position :=
    Position.eq_of_untimed ha.untimed ha.baseline
  unfold outcome
  dsimp only
  rw [hturn, hp, ha.joined.2]

/-- A terminal and a recorder whose pads show the same samples are in step: there are as many cycles
on both, after each of them the turn, the position and the count of frames are the same, and so they
are when the run is over. A sleep takes frames on both and no sample on either. -/
theorem run_paced (deck : Deck) (options : Options) (script : List Buttons)
    (size : Terminal.Size) (settings : Terminal.Settings) (gallery : Gallery) :
    let replay : Pad := ⟨.released, script, false⟩
    let terminal := Terminal.start size settings gallery
    let shown := run deck options replay terminal
    let recorded := run deck options (.ofScript (.released :: script)) Recorder.fresh
    outcomes deck options (opening deck options replay terminal) =
      outcomes deck options
        (opening deck options (.ofScript (.released :: script)) Recorder.fresh) ∧
    shown.position = recorded.position ∧ shown.surface.frames = recorded.surface.frames ∧
    shown.remote = recorded.remote ∧ shown.cursor = recorded.cursor ∧
    shown.faults = recorded.faults := by
  intro replay terminal shown recorded
  have hj : (Comparison.paced Terminal Recorder).joined (.ofPad replay) terminal
      (.ofPad (.ofScript (.released :: script))) Recorder.fresh := ⟨rfl, rfl⟩
  have hd := (Comparison.paced Terminal Recorder).sameDeck_self deck
  have hopening := agree_opening options hd rfl hj
  obtain ⟨hv, ha⟩ := agree_visited
    (Comparison.lawful_paced Terminal.keepsTime Recorder.keepsTime) options hd hopening
  have hfaults : shown.faults.map id = recorded.faults.map id := ha.faults
  rw [List.map_id, List.map_id] at hfaults
  have hposition : shown.position = recorded.position :=
    Position.eq_of_untimed ha.untimed ha.baseline
  refine ⟨?_, hposition, ha.joined.2.symm, ha.joined.1.symm, ha.cursor, hfaults⟩
  exact map_eq_of_together
    (fun _ _ h => outcome_eq_of_paced Terminal.keepsTime Recorder.keepsTime h) hv

end Presentation

end TileDeck
