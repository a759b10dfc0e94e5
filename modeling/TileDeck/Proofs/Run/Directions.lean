import TileDeck.Proofs.Run.Lockstep

set_option autoImplicit false

namespace TileDeck

namespace Buttons

def withoutDirections (b : Buttons) : Buttons :=
  { b with up := false, down := false, left := false, right := false }

theorem ofByte_and (byte : UInt8) : ofByte (byte &&& 0xF0) = (ofByte byte).withoutDirections := by
  simp only [ofByte, withoutDirections, UInt8.toNat_and, Nat.testBit_and]
  simp [Nat.testBit, Nat.shiftRight_eq_div_pow]

theorem ofPressed?_withoutDirections (previous current : Buttons) :
    Turn.ofPressed? (pressed previous.withoutDirections current.withoutDirections) =
      Turn.ofPressed? (pressed previous current) := rfl

end Buttons

namespace Pad

def withoutDirections (pad : Pad) : Pad :=
  ⟨pad.current.withoutDirections, pad.upcoming.map Buttons.withoutDirections, pad.finished⟩

theorem next_withoutDirections (pad : Pad) :
    pad.withoutDirections.next = pad.next.withoutDirections := by
  obtain ⟨current, upcoming, finished⟩ := pad
  cases upcoming <;> rfl

theorem ofScript_withoutDirections (script : List Buttons) :
    ofScript (script.map Buttons.withoutDirections) = (ofScript script).withoutDirections := by
  cases script <;> rfl

end Pad

namespace Remote

def withoutDirections (remote : Remote) : Remote :=
  ⟨remote.pad.withoutDirections, remote.previous.withoutDirections, remote.heard⟩

theorem poll_withoutDirections (remote : Remote) :
    remote.withoutDirections.poll = (remote.poll.1, remote.poll.2.withoutDirections) := by
  unfold poll observe
  change (Turn.ofPressed? (Buttons.pressed remote.previous.withoutDirections
    remote.pad.current.withoutDirections), _) = _
  -- the lists of turns heard are the same for the same reason
  simp only [withoutDirections, Pad.withoutDirections, Buttons.ofPressed?_withoutDirections]

theorem nextFrame_withoutDirections (remote : Remote) :
    remote.withoutDirections.nextFrame = remote.nextFrame.withoutDirections := by
  unfold nextFrame
  change Remote.mk remote.pad.withoutDirections.next _ _ = _
  rw [Pad.next_withoutDirections]
  rfl

variable {σ : Type} [Surface σ]

theorem await_withoutDirections (idle : List Primitive) (remote : Remote) (surface : σ) :
    remote.withoutDirections.await idle surface =
      ((remote.await idle surface).1, (remote.await idle surface).2.1.withoutDirections,
        (remote.await idle surface).2.2) := by
  fun_induction await idle remote surface with
  | case1 remote surface turn ht => exact await_of_turn ht
  | case2 remote surface ht hf => exact await_of_finished ht hf
  | case3 remote surface ht hf ih =>
    have hg : remote.pad.finished = false := by simpa using hf
    have ht' : remote.withoutDirections.poll.1 = none := ht
    have hg' : remote.withoutDirections.pad.finished = false := hg
    rw [await_of_frame ht' hg', poll_withoutDirections, nextFrame_withoutDirections]
    exact ih

end Remote

variable {σ : Type} [Surface σ]

def Comparison.directions (σ : Type) : Comparison σ σ :=
  ⟨fun r s r' s' => r' = r.withoutDirections ∧ s' = s, Eq, id⟩

theorem Comparison.lawful_directions : (Comparison.directions σ).Lawful where
  drawn := by
    rintro p p' r s _ _ hp ⟨rfl, rfl⟩
    rw [hp.eq]
    exact ⟨rfl, rfl⟩
  waited := by
    rintro idle r s _ _ _ ⟨rfl, rfl⟩
    rw [Remote.await_withoutDirections]
    exact ⟨rfl, rfl, rfl⟩
  frames := by
    rintro r s _ _ ⟨_, rfl⟩
    rfl
  finished := by
    rintro r s _ _ ⟨rfl, _⟩
    rfl

namespace Presentation

/-- Whatever the direction buttons do, the presentation is the one of a pad on which nobody touches
them: each cycle gives the same turn, and the display, the position and the faults end the same. -/
theorem run_withoutDirections (deck : Deck) (options : Options) (script : List UInt8)
    (surface : σ) :
    let pad := Pad.ofScript (script.map Buttons.ofByte)
    let cleared := Pad.ofScript (script.map fun byte => Buttons.ofByte (byte &&& 0xF0))
    answers deck options (opening deck options cleared surface) =
      answers deck options (opening deck options pad surface) ∧
    (run deck options cleared surface).surface = (run deck options pad surface).surface ∧
    (run deck options cleared surface).faults = (run deck options pad surface).faults ∧
    (run deck options cleared surface).position = (run deck options pad surface).position := by
  intro pad cleared
  have hcleared : cleared = pad.withoutDirections := by
    rw [← Pad.ofScript_withoutDirections, List.map_map]
    exact congrArg Pad.ofScript (List.map_congr_left fun byte _ => Buttons.ofByte_and byte)
  have hj : (Comparison.directions σ).joined (.ofPad pad) surface (.ofPad cleared) surface := by
    rw [hcleared]
    exact ⟨rfl, rfl⟩
  obtain ⟨ha, h⟩ := agree_run Comparison.lawful_directions options
    (Comparison.sameDeck_self _ deck) rfl hj
  have hf : List.map id _ = List.map id _ := h.faults
  rw [List.map_id, List.map_id] at hf
  exact ⟨ha.symm, h.joined.2, hf.symm, (Position.eq_of_untimed h.untimed h.baseline).symm⟩

end Presentation

end TileDeck
