import TileDeck.Page.Reckoned
import TileDeck.Recorder

set_option autoImplicit false

/-!
# Machines

A machine does what its display does, and stops where it cannot reckon.
-/
namespace TileDeck

structure Machine (σ : Type) [Surface σ] where
  reckoning : Reckoning
  perform : Primitive → σ → Option σ
  nextFrame : σ → Option σ
  agrees_perform : ∀ p surface, Agrees (perform p surface) (Surface.perform p surface)
  agrees_nextFrame : ∀ surface, Agrees (nextFrame surface) (Surface.nextFrame surface)

namespace Machine

variable {σ : Type} [Surface σ]

/-- A display that reckons nothing by itself. -/
def trusting (r : Reckoning) : Machine σ where
  reckoning := r
  perform p surface := some (Surface.perform p surface)
  nextFrame surface := some (Surface.nextFrame surface)
  agrees_perform _ _ := .always _
  agrees_nextFrame _ := .always _

variable (m : Machine σ)

def performAll (ps : List Primitive) (surface : σ) : Option σ :=
  ps.foldlM (fun surface p => m.perform p surface) surface

def draw (ps : List Primitive) (stage : Stage σ) : Option (Stage σ) := do
  let surface ← m.performAll ps stage.surface
  return { stage with surface := surface }

def waitFor (idle : List Primitive) (remote : Remote) (surface : σ) :
    Option (Option Turn × Remote × σ) :=
  match remote.poll.1 with
  | some turn => some (some turn, remote.poll.2, surface)
  | none =>
    if _h : remote.pad.finished = true then some (none, remote.poll.2, surface)
    else do
      let drawn ← m.performAll idle surface
      let shown ← m.nextFrame drawn
      waitFor idle remote.poll.2.nextFrame shown
termination_by remote.pad.remaining
decreasing_by
  have hf : remote.pad.finished = false := by simpa using _h
  have := Pad.remaining_next hf
  simp only [Remote.nextFrame, Remote.poll_pad]
  omega

def await (idle : List Primitive) (stage : Stage σ) : Option (Option Turn × Stage σ) := do
  let (turn, remote, surface) ← m.waitFor idle stage.remote stage.surface
  return (turn, { stage with remote := remote, surface := surface })

theorem agrees_performAll (ps : List Primitive) (surface : σ) :
    Agrees (m.performAll ps surface) (Surface.performAll ps surface) :=
  .foldlM (fun surface p => m.agrees_perform p surface) ps surface

theorem agrees_draw (ps : List Primitive) (stage : Stage σ) :
    Agrees (m.draw ps stage) (stage.draw ps) :=
  (m.agrees_performAll ps stage.surface).bind (.always _)

theorem agrees_waitFor (idle : List Primitive) (remote : Remote) (surface : σ) :
    Agrees (m.waitFor idle remote surface) (remote.await idle surface) := by
  fun_induction Remote.await idle remote surface with
  | case1 remote surface turn h =>
    rw [waitFor, h]
    exact .always _
  | case2 remote surface h hf =>
    rw [waitFor, h, dif_pos hf]
    exact .always _
  | case3 remote surface h hf ih =>
    rw [waitFor, h, dif_neg hf]
    exact (m.agrees_performAll idle surface).bind ((m.agrees_nextFrame _).bind ih)

theorem agrees_await (idle : List Primitive) (stage : Stage σ) :
    Agrees (m.await idle stage) (stage.await idle) :=
  (m.agrees_waitFor idle stage.remote stage.surface).bind (.always _)

end Machine

def Recorder.machine : Machine Recorder := .trusting .checked

end TileDeck
