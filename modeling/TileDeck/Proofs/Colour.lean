import Mathlib.Data.List.TakeWhile
import TileDeck.Colour
import TileDeck.Proofs.Text.Notations

set_option autoImplicit false

namespace TileDeck

namespace Text

theorem numeral_pair {high low : Char} {n : Nat} :
    Numeral 16 [high, low] n ↔
      ∃ h l, IsDigit 16 high h ∧ IsDigit 16 low l ∧ 16 * h + l = n := by
  constructor
  · rintro ⟨-, digits, hs, rfl⟩
    obtain ⟨l, front, hl, hfront, rfl⟩ := List.forall₂_cons_left_iff.1 hs
    obtain ⟨h, none, hh, hnone, rfl⟩ := List.forall₂_cons_left_iff.1 hfront
    obtain rfl := List.forall₂_nil_left_iff.1 hnone
    exact ⟨h, l, hh, hl, by simp [Nat.ofDigits_cons, Nat.add_comm]⟩
  · rintro ⟨h, l, hh, hl, rfl⟩
    refine ⟨by simp, [l, h], .cons hl (.cons hh .nil), ?_⟩
    simp [Nat.ofDigits_cons, Nat.add_comm]

end Text

namespace Rgb

open Text (Numeral)

/-- Three digits, of which each is written for two that are alike, or the digits of three bytes. -/
def Written : List Char → Rgb → Prop
  | [r, g, b], colour =>
    Numeral 16 [r, r] colour.red.toNat ∧ Numeral 16 [g, g] colour.green.toNat ∧
      Numeral 16 [b, b] colour.blue.toNat
  | [r, r', g, g', b, b'], colour =>
    Numeral 16 [r, r'] colour.red.toNat ∧ Numeral 16 [g, g'] colour.green.toNat ∧
      Numeral 16 [b, b'] colour.blue.toNat
  | _, _ => False

def Marked (s : List Char) (colour : Rgb) : Prop :=
  ∃ marks digits, s = List.replicate marks '#' ++ digits ∧ Written digits colour

theorem channel?_eq_some {high low : Char} {byte : UInt8} :
    channel? high low = some byte ↔ Numeral 16 [high, low] byte.toNat := by
  rw [Text.numeral_pair]
  unfold channel?
  simp only [bind, pure, Option.bind_eq_some_iff, Text.digitOf?_eq_some (Nat.le_refl 16),
    Option.some.injEq]
  constructor
  · rintro ⟨h, hh, l, hl, rfl⟩
    have hlt : 16 * h + l < UInt8.size := by
      have := hh.1
      have := hl.1
      simp only [UInt8.size]
      omega
    exact ⟨h, l, hh, hl, (UInt8.toNat_ofNat_of_lt' hlt).symm⟩
  · rintro ⟨h, l, hh, hl, hn⟩
    exact ⟨h, hh, l, hl, by rw [hn, UInt8.ofNat_toNat]⟩

theorem ofDigits?_eq_some {s : List Char} {colour : Rgb} :
    ofDigits? s = some colour ↔ Written s colour := by
  have hbytes : ∀ {red green blue : Option UInt8},
      (do return (⟨← red, ← green, ← blue⟩ : Rgb)) = some colour ↔
        red = some colour.red ∧ green = some colour.green ∧ blue = some colour.blue := by
    intro red green blue
    obtain ⟨r, g, b⟩ := colour
    cases red <;> cases green <;> cases blue <;> simp
  unfold ofDigits? Written
  split
  · rw [hbytes, channel?_eq_some, channel?_eq_some, channel?_eq_some]
  · rw [hbytes, channel?_eq_some, channel?_eq_some, channel?_eq_some]
  · simp

theorem Written.notMem {s : List Char} {colour : Rgb} (h : Written s colour) {mark : Char}
    (hm : Text.digit? mark = none) : mark ∉ s := by
  unfold Written at h
  split at h
  · have hr := h.1.notMem (Nat.le_refl 16) hm
    have hg := h.2.1.notMem (Nat.le_refl 16) hm
    have hb := h.2.2.notMem (Nat.le_refl 16) hm
    simp_all
  · have hr := h.1.notMem (Nat.le_refl 16) hm
    have hg := h.2.1.notMem (Nat.le_refl 16) hm
    have hb := h.2.2.notMem (Nat.le_refl 16) hm
    simp_all
  · exact h.elim

theorem ofMarked?_eq_some {s : List Char} {colour : Rgb} :
    ofMarked? s = some colour ↔ Marked s colour := by
  rw [ofMarked?, ofDigits?_eq_some]
  constructor
  · intro h
    have hmarks : s.takeWhile (· = '#') = List.replicate (s.takeWhile (· = '#')).length '#' :=
      List.eq_replicate_of_mem fun c hc => by simpa using List.mem_takeWhile_imp hc
    refine ⟨(s.takeWhile (· = '#')).length, s.dropWhile (· = '#'), ?_, h⟩
    rw [← hmarks, List.takeWhile_append_dropWhile]
  · rintro ⟨marks, digits, rfl, h⟩
    have hdigits : digits.dropWhile (· = '#') = digits := by
      refine List.dropWhile_eq_self_iff.2 fun hl hc => ?_
      exact h.notMem (by decide) (of_decide_eq_true hc ▸ List.getElem_mem hl)
    rwa [List.dropWhile_append_of_pos (by simp), hdigits]

end Rgb

end TileDeck
