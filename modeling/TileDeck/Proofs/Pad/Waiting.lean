import Mathlib.Data.List.ReduceOption
import TileDeck.Pad.Remote

set_option autoImplicit false

namespace TileDeck

namespace Pad

def Settled (pad : Pad) : Prop := pad.finished = true → pad.current = .released ∧ pad.upcoming = []

theorem settled_ofScript (script : List Buttons) : (ofScript script).Settled := by
  cases script with
  | nil => exact fun _ => ⟨rfl, rfl⟩
  | cons sample rest => intro h; simp [ofScript] at h

theorem settled_next {pad : Pad} (h : pad.Settled) : pad.next.Settled := by
  intro hf
  unfold next at hf ⊢
  cases hu : pad.upcoming with
  | nil => exact ⟨rfl, rfl⟩
  | cons sample rest =>
    simp only [hu] at hf
    have := (h hf).2
    simp [hu] at this

end Pad

namespace Remote

def unheard (remote : Remote) : List Turn :=
  Turn.ofSamples remote.previous (remote.pad.current :: remote.pad.upcoming)

theorem heard_poll (remote : Remote) :
    remote.poll.2.heard = remote.heard ++ remote.poll.1.toList := rfl

theorem unheard_poll (remote : Remote) :
    remote.poll.2.unheard = Turn.ofSamples remote.pad.current remote.pad.upcoming := by
  simp [unheard, poll, observe, Turn.ofSamples, Buttons.pressed_self, Buttons.ofPressed?_released]

theorem unheard_nextFrame {remote : Remote} (h : remote.previous = remote.pad.current) :
    remote.nextFrame.unheard = remote.unheard := by
  have hs : Turn.ofPressed? (Buttons.pressed remote.pad.current remote.pad.current) = none := by
    rw [Buttons.pressed_self]
    rfl
  unfold unheard nextFrame Pad.next
  cases hu : remote.pad.upcoming with
  | nil =>
    have hr : Turn.ofPressed? (Buttons.pressed remote.pad.current .released) = none := by
      simp [Buttons.pressed, Buttons.released, Turn.ofPressed?]
    simp [Turn.ofSamples, h, hs, hr]
  | cons sample rest => simp [Turn.ofSamples, h, hs]

theorem unheard_eq_nil {remote : Remote} (h : remote.pad.Settled)
    (hf : remote.pad.finished = true) : remote.unheard = [] := by
  obtain ⟨hc, hu⟩ := h hf
  simp [unheard, hc, hu, Turn.ofSamples, Turn.ofPressed?, Buttons.pressed, Buttons.released]

variable {σ : Type} [Surface σ]

theorem await_of_turn {idle : List Primitive} {remote : Remote} {surface : σ} {turn : Turn}
    (h : remote.poll.1 = some turn) :
    remote.await idle surface = (some turn, remote.poll.2, surface) := by
  rw [await, h]

theorem await_of_finished {idle : List Primitive} {remote : Remote} {surface : σ}
    (h : remote.poll.1 = none) (hf : remote.pad.finished = true) :
    remote.await idle surface = (none, remote.poll.2, surface) := by
  rw [await, h]
  exact dif_pos hf

theorem await_of_frame {idle : List Primitive} {remote : Remote} {surface : σ}
    (h : remote.poll.1 = none) (hf : remote.pad.finished = false) :
    remote.await idle surface =
      remote.poll.2.nextFrame.await idle
        (Surface.nextFrame (Surface.performAll idle surface)) := by
  rw [await, h]
  exact dif_neg (by simp [hf])

/-- A wait keeps what polling keeps and what a frame keeps after a poll. -/
theorem await_keeps (I : Remote → σ → Prop) {idle : List Primitive}
    (hpoll : ∀ remote surface, I remote surface → I remote.poll.2 surface)
    (hframe : ∀ remote surface, remote.previous = remote.pad.current →
      remote.pad.finished = false → I remote surface →
      I remote.nextFrame (Surface.nextFrame (Surface.performAll idle surface)))
    (remote : Remote) (surface : σ) (h : I remote surface) :
    I (remote.await idle surface).2.1 (remote.await idle surface).2.2 := by
  fun_induction await idle remote surface with
  | case1 remote surface turn ht => exact hpoll remote surface h
  | case2 remote surface ht hf => exact hpoll remote surface h
  | case3 remote surface ht hf ih =>
    have hg : remote.pad.finished = false := by simpa using hf
    exact ih (hframe remote.poll.2 surface rfl hg (hpoll remote surface h))

/-- A wait has its answer from the pad alone: on two displays it is the same, and they go together
after it if they do after each frame. -/
theorem await_alike {τ : Type} [Surface τ] (R : σ → τ → Prop) {idle : List Primitive}
    (hframe : ∀ s s', R s s' → R (Surface.nextFrame (Surface.performAll idle s))
      (Surface.nextFrame (Surface.performAll idle s')))
    (remote : Remote) {s : σ} {s' : τ} (h : R s s') :
    (remote.await idle s).1 = (remote.await idle s').1 ∧
      (remote.await idle s').2.1 = (remote.await idle s).2.1 ∧
      R (remote.await idle s).2.2 (remote.await idle s').2.2 := by
  fun_induction await idle remote s generalizing s' with
  | case1 remote s turn ht =>
    rw [await_of_turn ht]
    exact ⟨rfl, rfl, h⟩
  | case2 remote s ht hf =>
    rw [await_of_finished ht hf]
    exact ⟨rfl, rfl, h⟩
  | case3 remote s ht hf ih =>
    rw [await_of_frame ht (by simpa using hf)]
    exact ih (hframe s s' h)

theorem heard_await (idle : List Primitive) (remote : Remote) (surface : σ) :
    (remote.await idle surface).2.1.heard =
      remote.heard ++ (remote.await idle surface).1.toList := by
  fun_induction await idle remote surface with
  | case1 remote surface turn ht => rw [heard_poll, ht]
  | case2 remote surface ht hf => rw [heard_poll, ht]
  | case3 remote surface ht hf ih =>
    rw [ih]
    change remote.heard ++ remote.poll.1.toList ++ _ = _
    rw [ht, Option.toList_none, List.append_nil]

theorem heard_unheard_await (idle : List Primitive) (remote : Remote) (surface : σ) :
    (remote.await idle surface).2.1.heard ++ (remote.await idle surface).2.1.unheard =
      remote.heard ++ remote.unheard := by
  refine await_keeps (fun r _ => r.heard ++ r.unheard = remote.heard ++ remote.unheard)
    ?_ ?_ remote surface rfl
  · intro r _ h
    rw [← h, heard_poll, unheard_poll, List.append_assoc]
    rfl
  · intro r _ hp _ h
    rw [unheard_nextFrame hp]
    exact h

theorem settled_await (idle : List Primitive) {remote : Remote} (surface : σ)
    (h : remote.pad.Settled) : (remote.await idle surface).2.1.pad.Settled :=
  await_keeps (fun r _ => r.pad.Settled) (fun _ _ hs => hs)
    (fun _ _ _ _ hs => Pad.settled_next hs) remote surface h

theorem finished_of_await_none {idle : List Primitive} {remote : Remote} {surface : σ}
    (h : (remote.await idle surface).1 = none) :
    (remote.await idle surface).2.1.pad.finished = true := by
  fun_induction await idle remote surface with
  | case1 remote surface turn ht => simp at h
  | case2 remote surface ht hf => exact hf
  | case3 remote surface ht hf ih => exact ih h

theorem going_of_await_some {idle : List Primitive} {remote : Remote} {surface : σ}
    (hs : remote.pad.Settled) (h : (remote.await idle surface).1.isSome) :
    (remote.await idle surface).2.1.pad.finished = false := by
  fun_induction await idle remote surface with
  | case1 remote surface turn ht =>
    by_contra hf
    have hn := unheard_eq_nil hs (by simpa [poll_pad] using hf)
    change remote.poll.1.toList ++ _ = [] at hn
    rw [ht] at hn
    simp at hn
  | case2 remote surface ht hf => simp at h
  | case3 remote surface ht hf ih => exact ih (Pad.settled_next hs) h

/-- `answers` are what waits answered, one after the other, until `first` became a remote. -/
inductive Waits (σ : Type) [Surface σ] (first : Remote) : List (Option Turn) → Remote → Prop
  | start : Waits σ first [] first
  | wait {answers : List (Option Turn)} {remote : Remote} (idle : List Primitive) (surface : σ)
      (before : Waits σ first answers remote) :
      Waits σ first (answers ++ [(remote.await idle surface).1]) (remote.await idle surface).2.1

theorem Waits.heard {first remote : Remote} {answers : List (Option Turn)}
    (h : Waits σ first answers remote) : remote.heard = first.heard ++ answers.reduceOption := by
  induction h with
  | start => simp
  | @wait answers remote idle surface _ ih =>
    rw [heard_await, ih, List.reduceOption_append, List.append_assoc]
    cases (remote.await idle surface).1 <;> rfl

/-- What waiting did to a remote: turns forward that only ended pauses, then perhaps a last turn. -/
structure Hears (before : Remote) (pauses : Nat) (turn : Option Turn) (after : Remote) : Prop where
  heard : after.heard = before.heard ++ List.replicate pauses .forward ++ turn.toList
  settled : before.pad.Settled → after.pad.Settled
  going : before.pad.Settled → turn.isSome → after.pad.finished = false

theorem Hears.refl (remote : Remote) : Hears remote 0 none remote :=
  ⟨by simp, id, fun _ h => by simp at h⟩

theorem Hears.trans {first middle last : Remote} {m n : Nat} {turn : Option Turn}
    (h : Hears first m none middle) (h' : Hears middle n turn last) :
    Hears first (m + n) turn last where
  heard := by
    rw [h'.heard, h.heard, List.replicate_add]
    simp
  settled hs := h'.settled (h.settled hs)
  going hs ht := h'.going (h.settled hs) ht

theorem hears_await (idle : List Primitive) (remote : Remote) (surface : σ) :
    Hears remote 0 (remote.await idle surface).1 (remote.await idle surface).2.1 where
  heard := by simp [heard_await]
  settled := settled_await idle surface
  going := going_of_await_some

end Remote

end TileDeck
