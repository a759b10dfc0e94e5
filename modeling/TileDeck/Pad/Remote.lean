import TileDeck.Primitive
import TileDeck.Pad.Buttons

set_option autoImplicit false

/-!
# The pad and what is heard of it

A pad shows one sample a frame. When the samples have run out it shows no button and asks to stop.
A remote holds a pad together with the sample it saw last; waiting for a turn always comes to an
end, because every frame uses up a sample.
-/
namespace TileDeck

structure Pad where
  current : Buttons
  upcoming : List Buttons
  finished : Bool
deriving DecidableEq, Repr

namespace Pad

def idle : Pad := ⟨.released, [], false⟩

def ofScript : List Buttons → Pad
  | [] => ⟨.released, [], true⟩
  | sample :: rest => ⟨sample, rest, false⟩

/-- Each of the presses for one frame, with a frame of rest after it. -/
def ofPresses (presses : List Buttons) : Pad :=
  ofScript (presses.flatMap fun press => [press, .released])

def next (pad : Pad) : Pad :=
  match pad.upcoming with
  | [] => ⟨.released, [], true⟩
  | sample :: rest => ⟨sample, rest, pad.finished⟩

def remaining (pad : Pad) : Nat := if pad.finished then 0 else pad.upcoming.length + 1

theorem remaining_next {pad : Pad} (h : pad.finished = false) :
    pad.next.remaining + 1 = pad.remaining := by
  unfold next remaining
  cases pad.upcoming <;> simp [h]

end Pad

structure Remote where
  pad : Pad
  previous : Buttons
  heard : List Turn
deriving DecidableEq, Repr

namespace Remote

def ofPad (pad : Pad) : Remote := ⟨pad, .released, []⟩

def edge (sample : Buttons) (remote : Remote) : Buttons × Remote :=
  (Buttons.pressed remote.previous sample, { remote with previous := sample })

def observe (sample : Buttons) (remote : Remote) : Option Turn × Remote :=
  let turn := Turn.ofPressed? (Buttons.pressed remote.previous sample)
  (turn, { remote with previous := sample, heard := remote.heard ++ turn.toList })

def poll (remote : Remote) : Option Turn × Remote := remote.observe remote.pad.current

def nextFrame (remote : Remote) : Remote := { remote with pad := remote.pad.next }

theorem poll_pad (remote : Remote) : remote.poll.2.pad = remote.pad := rfl

variable {σ : Type} [Surface σ]

/-- Wait, frame by frame, until a turn is heard; nothing is heard only of a pad that asks to stop.
The `idle` primitives are performed on every frame of the wait. -/
def await (idle : List Primitive) (remote : Remote) (surface : σ) : Option Turn × Remote × σ :=
  match remote.poll.1 with
  | some turn => (some turn, remote.poll.2, surface)
  | none =>
    if _h : remote.pad.finished = true then (none, remote.poll.2, surface)
    else await idle remote.poll.2.nextFrame (Surface.nextFrame (Surface.performAll idle surface))
termination_by remote.pad.remaining
decreasing_by
  have hf : remote.pad.finished = false := by simpa using _h
  have := Pad.remaining_next hf
  simp only [nextFrame, poll_pad]
  omega

/-- What the waits to come have to live on: the frames left, and the press that nobody has taken
yet. -/
def pending (remote : Remote) : Nat :=
  2 * remote.pad.remaining + remote.poll.1.toList.length

theorem poll_again (remote : Remote) : remote.poll.2.poll.1 = none := by
  simp [poll, observe, Buttons.pressed_self, Buttons.ofPressed?_released]

theorem pending_poll_le (remote : Remote) : remote.poll.2.pending ≤ remote.pending := by
  unfold pending
  rw [poll_again, poll_pad]
  simp

theorem pending_poll_lt {remote : Remote} {turn : Turn} (h : remote.poll.1 = some turn) :
    remote.poll.2.pending < remote.pending := by
  unfold pending
  rw [poll_again, poll_pad, h]
  simp

theorem pending_nextFrame_le (remote : Remote) (h : remote.pad.finished = false) :
    remote.nextFrame.pending ≤ remote.pending := by
  have hr := Pad.remaining_next h
  have hl : remote.nextFrame.poll.1.toList.length ≤ 1 := Option.length_toList_le
  unfold pending at *
  simp only [nextFrame] at *
  omega

theorem pending_await (idle : List Primitive) (remote : Remote) (surface : σ) :
    (remote.await idle surface).2.1.pending ≤ remote.pending ∧
      ((remote.await idle surface).1.isSome →
        (remote.await idle surface).2.1.pending < remote.pending) := by
  fun_induction await idle remote surface with
  | case1 remote surface turn h => exact ⟨pending_poll_le remote, fun _ => pending_poll_lt h⟩
  | case2 remote surface h hf => exact ⟨pending_poll_le remote, by simp⟩
  | case3 remote surface h hf ih =>
    have hp := pending_poll_le remote
    have hn := pending_nextFrame_le remote.poll.2 (by simpa [poll_pad] using hf)
    exact ⟨by omega, fun hs => by have := ih.2 hs; omega⟩

end Remote

end TileDeck
