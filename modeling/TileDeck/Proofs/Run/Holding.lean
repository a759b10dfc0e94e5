import TileDeck.Proofs.Recorder
import TileDeck.Proofs.Run.Lockstep

set_option autoImplicit false

/-!
# A sample held for a frame longer

A pad that shows one sample twice falls behind the pad that shows it once, by a frame that no wait
hears anything in; from then on both show the same. What is told apart is the time: frames counted,
the frame from which a timer counts, and how far the background has scrolled.
-/
namespace TileDeck

/-- The second row of samples holds one sample of the first for a frame longer. -/
inductive Stretched : List Buttons → List Buttons → Prop
  | here (sample : Buttons) (rest : List Buttons) :
    Stretched (sample :: rest) (sample :: sample :: rest)
  | later (sample : Buttons) {samples stretched : List Buttons} (h : Stretched samples stretched) :
    Stretched (sample :: samples) (sample :: stretched)

theorem stretched_append (before after : List Buttons) (sample : Buttons) :
    Stretched (before ++ sample :: after) (before ++ sample :: sample :: after) := by
  induction before with
  | nil => exact .here sample after
  | cons first before ih => exact .later first ih

theorem Stretched.head_eq {first first' : Buttons} {rest rest' : List Buttons}
    (h : Stretched (first :: rest) (first' :: rest')) : first' = first := by
  cases h <;> rfl

namespace Remote

/-- The second remote is behind, or will be, by a sample that its pad holds for longer. -/
structure Lags (r r' : Remote) : Prop where
  samples : Stretched (r.pad.current :: r.pad.upcoming) (r'.pad.current :: r'.pad.upcoming)
  going : r.pad.finished = false
  going' : r'.pad.finished = false
  previous : r'.previous = r.previous
  heard : r'.heard = r.heard

variable {r r' : Remote}

theorem Lags.poll (h : Lags r r') : r'.poll.1 = r.poll.1 ∧ Lags r.poll.2 r'.poll.2 := by
  have hc : r'.pad.current = r.pad.current := h.samples.head_eq
  have hp : r'.poll.1 = r.poll.1 := by
    unfold Remote.poll observe
    rw [hc, h.previous]
  refine ⟨hp, h.samples, h.going, h.going', hc, ?_⟩
  rw [heard_poll, heard_poll, h.heard, hp]

/-- A frame after a poll: either nothing of the held sample is seen yet, or it is seen again now, to
no effect, and the next frame is the one that the first remote has come to. -/
theorem Lags.nextFrame (h : Lags r r') (hp : r.previous = r.pad.current) :
    Lags r.nextFrame r'.nextFrame ∨
      r'.nextFrame.poll.1 = none ∧ r'.nextFrame.pad.finished = false ∧
        r'.nextFrame.poll.2.nextFrame = r.nextFrame := by
  obtain ⟨⟨current, upcoming, finished⟩, previous, heard⟩ := r
  obtain ⟨⟨current', upcoming', finished'⟩, previous', heard'⟩ := r'
  obtain ⟨hs, hg, hg', hprevious, hheard⟩ := h
  dsimp only at hs hg hg' hp hprevious hheard
  subst hp hg hg' hprevious hheard
  cases hs with
  -- the held sample is on both pads: the first goes on, the second shows it once more
  | here =>
    refine .inr ⟨?_, rfl, ?_⟩
    · simp [Remote.nextFrame, Pad.next, Remote.poll, observe, Buttons.pressed_self,
        Buttons.ofPressed?_released]
    · simp [Remote.nextFrame, Pad.next, Remote.poll, observe, Buttons.pressed_self,
        Buttons.ofPressed?_released]
  | later _ hs =>
    left
    cases hs with
    | here sample rest => exact ⟨.here sample rest, rfl, rfl, rfl, rfl⟩
    | later sample hs => exact ⟨.later sample hs, rfl, rfl, rfl, rfl⟩

end Remote

/-- A call without what it tells of time; scrolling the background tells nothing else. -/
def Call.timeless? : Call → Option Call
  | .plain (.scrollBackground _) => none
  | .plain (.timer _) => some (.plain (.timer 0))
  | call => some call

namespace Recorder

def timeless (r : Recorder) : List Call := r.calls.toList.filterMap Call.timeless?

structure Abreast (r r' : Recorder) : Prop where
  ink : r'.ink = r.ink
  timeless : r'.timeless = r.timeless

theorem timeless_perform (p : Primitive) (r : Recorder) :
    (Surface.perform p r).timeless =
      r.timeless ++ (Call.of? r.ink p).toList.filterMap Call.timeless? := by
  unfold timeless
  rw [calls_perform, List.filterMap_append]

theorem Abreast.perform {r r' : Recorder} (h : Abreast r r') {p p' : Primitive}
    (hp : p.Like (fun _ _ => True) p') : Abreast (Surface.perform p r) (Surface.perform p' r') := by
  cases hp with
  | same p =>
    refine ⟨?_, ?_⟩
    · cases p with
      | textPalette id => rfl
      | _ => exact h.ink
    · rw [timeless_perform, timeless_perform, h.timeless, h.ink]
  | timer _ =>
    refine ⟨h.ink, ?_⟩
    rw [timeless_perform, timeless_perform, h.timeless]
    rfl

theorem Abreast.trans {r r' r'' : Recorder} (h : Abreast r r') (h' : Abreast r' r'') :
    Abreast r r'' :=
  ⟨h'.ink.trans h.ink, h'.timeless.trans h.timeless⟩

theorem Abreast.symm {r r' : Recorder} (h : Abreast r r') : Abreast r' r :=
  ⟨h.ink.symm, h.timeless.symm⟩

/-- A frame of a wait takes time and nothing else. -/
theorem abreast_frame {idle : List Primitive} (hi : ∀ p ∈ idle, p = .scrollBackground 1)
    (r : Recorder) : Abreast r (Surface.nextFrame (Surface.performAll idle r)) := by
  have hidle : Abreast r (Surface.performAll idle r) := by
    refine Surface.performAll_keeps (A := (· = .scrollBackground 1)) (I := Abreast r) ?_ hi
      ⟨rfl, rfl⟩
    rintro p s rfl h
    refine ⟨h.ink, ?_⟩
    rw [timeless_perform, h.timeless]
    exact List.append_nil _
  exact ⟨hidle.ink, hidle.timeless⟩

end Recorder

def Comparison.held : Comparison Recorder Recorder :=
  ⟨fun r s r' s' => (r' = r ∨ Remote.Lags r r') ∧ Recorder.Abreast s s', fun _ _ => True, id⟩

theorem Remote.held_await {idle : List Primitive} (hi : ∀ p ∈ idle, p = .scrollBackground 1)
    {r r' : Remote} {s s' : Recorder} (hr : r' = r ∨ Lags r r') (hs : Recorder.Abreast s s') :
    (r'.await idle s').1 = (r.await idle s).1 ∧
      ((r'.await idle s').2.1 = (r.await idle s).2.1 ∨
        Lags (r.await idle s).2.1 (r'.await idle s').2.1) ∧
      Recorder.Abreast (r.await idle s).2.2 (r'.await idle s').2.2 := by
  -- along the wait of the first remote; the second is at the same sample or behind by one
  fun_induction await idle r s generalizing r' s' with
  | case1 r s turn ht =>
    rcases hr with rfl | hl
    · rw [await_of_turn ht]
      exact ⟨rfl, .inl rfl, hs⟩
    · obtain ⟨hp, hpoll⟩ := hl.poll
      rw [await_of_turn (hp.trans ht)]
      exact ⟨rfl, .inr hpoll, hs⟩
  | case2 r s ht hf =>
    rcases hr with rfl | hl
    · rw [await_of_finished ht hf]
      exact ⟨rfl, .inl rfl, hs⟩
    · rw [hl.going] at hf
      contradiction
  | case3 r s ht hf ih =>
    have hframe := Recorder.abreast_frame hi
    have hboth := ((hframe s).symm.trans hs).trans (hframe s')
    rcases hr with rfl | hl
    · rw [await_of_frame ht (by simpa using hf)]
      exact ih (.inl rfl) hboth
    · obtain ⟨hp, hpoll⟩ := hl.poll
      rw [await_of_frame (hp.trans ht) hl.going']
      rcases hpoll.nextFrame rfl with hnext | ⟨hn, hg, heq⟩
      · exact ih (.inr hnext) hboth
      -- a frame more for the second remote, and both are at the same sample
      · rw [await_of_frame hn hg, heq]
        exact ih (.inl rfl) (hboth.trans (hframe _))

theorem Comparison.lawful_held : Comparison.held.Lawful where
  drawn := by
    rintro p p' r s r' s' hp ⟨hr, hs⟩
    exact ⟨hr, hs.perform hp⟩
  waited := by
    rintro idle r s r' s' hi ⟨hr, hs⟩
    obtain ⟨ht, hj⟩ := Remote.held_await hi hr hs
    exact ⟨ht.symm, hj⟩
  frames := by
    rintro r s r' s' _
    trivial
  finished := by
    rintro r s r' s' ⟨rfl | hl, _⟩
    · rfl
    · rw [hl.going, hl.going']

namespace Presentation

/-- A sample that is held for a frame longer changes nothing but the time: each cycle gives the same
turn, what is drawn is the same but for the scrolling, and the position is the same but for the
frame from which the timer counts. -/
theorem run_held (deck : Deck) (options : Options) (before after : List Buttons)
    (sample : Buttons) :
    let pad := Pad.ofScript (before ++ sample :: after)
    let held := Pad.ofScript (before ++ sample :: sample :: after)
    answers deck options (opening deck options held Recorder.fresh) =
      answers deck options (opening deck options pad Recorder.fresh) ∧
    (run deck options held Recorder.fresh).surface.timeless =
      (run deck options pad Recorder.fresh).surface.timeless ∧
    (run deck options held Recorder.fresh).position.untimed =
      (run deck options pad Recorder.fresh).position.untimed := by
  intro pad held
  have hl : Remote.Lags (.ofPad pad) (.ofPad held) := by
    have hs := stretched_append before after sample
    cases before with
    | nil => exact ⟨hs, rfl, rfl, rfl, rfl⟩
    | cons first before => exact ⟨hs, rfl, rfl, rfl, rfl⟩
  have hj : Comparison.held.joined (.ofPad pad) .fresh (.ofPad held) .fresh :=
    ⟨.inr hl, rfl, rfl⟩
  obtain ⟨ha, h⟩ := agree_run Comparison.lawful_held options (Comparison.sameDeck_self _ deck)
    trivial hj
  exact ⟨ha.symm, h.joined.2.timeless, h.untimed.symm⟩

end Presentation

end TileDeck
