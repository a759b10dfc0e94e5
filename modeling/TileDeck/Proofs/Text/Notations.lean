import Mathlib.Data.List.Forall2
import Mathlib.Data.List.Induction
import Mathlib.Data.Nat.Digits.Defs
import Mathlib.Tactic.IntervalCases
import TileDeck.Proofs.Text.Numerals

set_option autoImplicit false

namespace TileDeck.Text

/-- `c` is the digit of value `d`, a letter being small or large. -/
def IsDigit (base : Nat) (c : Char) (d : Nat) : Prop :=
  d < base ∧ (c = Nat.digitChar d ∨ c = (Nat.digitChar d).toUpper)

/-- `s` is a row of digits, at least one, and `n` is its value. The last digit counts least. -/
def Numeral (base : Nat) (s : List Char) (n : Nat) : Prop :=
  s ≠ [] ∧ ∃ digits, List.Forall₂ (IsDigit base) s.reverse digits ∧ Nat.ofDigits base digits = n

def Unsigned (base : Nat) (s : List Char) (n : Nat) : Prop :=
  Numeral base s n ∨ ∃ digits, s = '+' :: digits ∧ Numeral base digits n

def Signed (s : List Char) (n : Int) : Prop :=
  (∃ digits k, s = '-' :: digits ∧ Numeral 10 digits k ∧ n = -(k : Int)) ∨
    ∃ k, Unsigned 10 s k ∧ n = (k : Int)

def hexMarks : List (List Char) := [[], ['0', 'x'], ['0', 'X']]

def Hexadecimal (s : List Char) (n : Nat) : Prop :=
  ∃ mark ∈ hexMarks, ∃ number, s = mark ++ number ∧ Unsigned 16 number n

theorem digit?_eq_some {c : Char} {d : Nat} : digit? c = some d ↔ IsDigit 16 c d := by
  constructor
  · intro h
    have hc : c = Char.ofNat c.toNat := c.ofNat_toNat.symm
    have hrange : (0x30 ≤ c.toNat ∧ c.toNat ≤ 0x39) ∧ d = c.toNat - 0x30 ∨
        (0x61 ≤ c.toNat ∧ c.toNat ≤ 0x66) ∧ d = c.toNat - 0x61 + 10 ∨
        (0x41 ≤ c.toNat ∧ c.toNat ≤ 0x46) ∧ d = c.toNat - 0x41 + 10 := by
      unfold digit? at h
      split at h
      · exact .inl ⟨‹_›, (Option.some.inj h).symm⟩
      · split at h
        · exact .inr (.inl ⟨‹_›, (Option.some.inj h).symm⟩)
        · split at h
          · exact .inr (.inr ⟨‹_›, (Option.some.inj h).symm⟩)
          · cases h
    generalize c.toNat = code at hc hrange
    subst hc
    rcases hrange with ⟨⟨hl, hh⟩, rfl⟩ | ⟨⟨hl, hh⟩, rfl⟩ | ⟨⟨hl, hh⟩, rfl⟩ <;>
      interval_cases code <;> exact ⟨by decide, by decide⟩
  · rintro ⟨hd, hc⟩
    have hall : ∀ d < 16, digit? (Nat.digitChar d) = some d ∧
        digit? (Nat.digitChar d).toUpper = some d := by
      decide
    rcases hc with rfl | rfl
    · exact (hall d hd).1
    · exact (hall d hd).2

theorem digitOf?_eq_some {base : Nat} (hb : base ≤ 16) {c : Char} {d : Nat} :
    digitOf? base c = some d ↔ IsDigit base c d := by
  rw [digitOf?, Option.filter_eq_some_iff, digit?_eq_some, decide_eq_true_iff]
  constructor
  · rintro ⟨h, hd⟩
    exact ⟨hd, h.2⟩
  · rintro ⟨hd, hc⟩
    exact ⟨⟨by omega, hc⟩, hd⟩

theorem ne_of_isDigit {base : Nat} (hb : base ≤ 16) {c : Char} {d : Nat} (h : IsDigit base c d)
    {mark : Char} (hm : digit? mark = none) : c ≠ mark := by
  rintro rfl
  rw [digit?_eq_some.2 ⟨by have := h.1; omega, h.2⟩] at hm
  cases hm

section
variable {base : Nat} (hb : base ≤ 16)
include hb

theorem digitsFrom?_eq_some {s : List Char} {n : Nat} :
    digitsFrom? base 0 s = some n ↔
      ∃ digits, List.Forall₂ (IsDigit base) s.reverse digits ∧ Nat.ofDigits base digits = n := by
  induction s using List.reverseRecOn generalizing n with
  | nil => simp [digitsFrom?]
  | append_singleton s c ih =>
    rw [digitsFrom?_concat, Option.bind_eq_some_iff, List.reverse_append, List.reverse_singleton,
      List.singleton_append]
    constructor
    · rintro ⟨m, hm, hn⟩
      obtain ⟨d, hd, rfl⟩ := Option.map_eq_some_iff.1 hn
      obtain ⟨digits, hs, rfl⟩ := ih.1 hm
      refine ⟨d :: digits, .cons ((digitOf?_eq_some hb).1 hd) hs, ?_⟩
      rw [Nat.ofDigits_cons, Nat.mul_comm, Nat.add_comm]
    · rintro ⟨all, hall, rfl⟩
      obtain ⟨d, digits, hd, hs, rfl⟩ := List.forall₂_cons_left_iff.1 hall
      refine ⟨_, ih.2 ⟨digits, hs, rfl⟩, ?_⟩
      rw [(digitOf?_eq_some hb).2 hd, Option.map_some, Nat.ofDigits_cons, Nat.mul_comm base,
        Nat.add_comm]

theorem digits?_eq_some {s : List Char} {n : Nat} : digits? base s = some n ↔ Numeral base s n := by
  cases s with
  | nil => simp [digits?, Numeral]
  | cons c s =>
    rw [digits?_eq_digitsFrom? (List.cons_ne_nil c s), digitsFrom?_eq_some hb, Numeral]
    exact (and_iff_right (List.cons_ne_nil c s)).symm

theorem Numeral.notMem {s : List Char} {n : Nat} (h : Numeral base s n) {mark : Char}
    (hm : digit? mark = none) : mark ∉ s := by
  obtain ⟨-, digits, hs, -⟩ := h
  intro hmem
  obtain ⟨i, hi, rfl⟩ := List.getElem_of_mem (List.mem_reverse.2 hmem)
  exact ne_of_isDigit hb (hs.get hi (by rw [← hs.length_eq]; exact hi)) hm rfl

theorem unsigned?_eq_some {s : List Char} {n : Nat} :
    unsigned? base s = some n ↔ Unsigned base s n := by
  unfold unsigned? Unsigned
  split
  · rename_i t
    rw [digits?_eq_some hb]
    constructor
    · exact fun h => .inr ⟨t, rfl, h⟩
    · rintro (h | ⟨digits, ht, h⟩)
      · exact absurd List.mem_cons_self (h.notMem hb (by decide))
      · obtain rfl := (List.cons.inj ht).2
        exact h
  · rename_i hplus
    rw [digits?_eq_some hb]
    constructor
    · exact .inl
    · rintro (h | ⟨digits, rfl, -⟩)
      · exact h
      · exact (hplus digits rfl).elim

theorem Unsigned.notMem {s : List Char} {n : Nat} (h : Unsigned base s n) {mark : Char}
    (hm : digit? mark = none) (hplus : mark ≠ '+') : mark ∉ s := by
  rcases h with h | ⟨digits, rfl, h⟩
  · exact h.notMem hb hm
  · rw [List.mem_cons, not_or]
    exact ⟨hplus, h.notMem hb hm⟩

theorem byte?_eq_some {s : List Char} {n : UInt8} :
    byte? base s = some n ↔ Unsigned base s n.toNat := by
  rw [byte?, Option.map_eq_some_iff]
  constructor
  · rintro ⟨k, hk, rfl⟩
    rw [Option.filter_eq_some_iff, decide_eq_true_iff] at hk
    rw [UInt8.toNat_ofNat_of_lt' hk.2]
    exact (unsigned?_eq_some hb).1 hk.1
  · intro h
    refine ⟨n.toNat, ?_, UInt8.ofNat_toNat⟩
    rw [(unsigned?_eq_some hb).2 h, Option.filter_some, if_pos (decide_eq_true n.toNat_lt)]

end

theorem word?_eq_some {s : List Char} {n : UInt32} : word? s = some n ↔ Unsigned 10 s n.toNat := by
  rw [word?, Option.map_eq_some_iff]
  constructor
  · rintro ⟨k, hk, rfl⟩
    rw [Option.filter_eq_some_iff, decide_eq_true_iff] at hk
    rw [UInt32.toNat_ofNat_of_lt' hk.2]
    exact (unsigned?_eq_some (by decide)).1 hk.1
  · intro h
    refine ⟨n.toNat, ?_, UInt32.ofNat_toNat⟩
    rw [(unsigned?_eq_some (by decide)).2 h, Option.filter_some,
      if_pos (decide_eq_true n.toNat_lt)]

theorem signed?_minus (s : List Char) :
    signed? ('-' :: s) = (digits? 10 s).map fun n : Nat => -(n : Int) := by
  rw [signed?]
  cases digits? 10 s <;> rfl

theorem signed?_unsigned {s : List Char} (h : ∀ t, s ≠ '-' :: t) :
    signed? s = (unsigned? 10 s).map fun n : Nat => (n : Int) := by
  unfold signed?
  split
  · exact absurd rfl (h _)
  · cases unsigned? 10 s <;> rfl

theorem signed?_eq_some {s : List Char} {n : Int} : signed? s = some n ↔ Signed s n := by
  by_cases hminus : ∃ t, s = '-' :: t
  · obtain ⟨t, rfl⟩ := hminus
    rw [signed?_minus, Option.map_eq_some_iff]
    constructor
    · rintro ⟨k, hk, rfl⟩
      exact .inl ⟨t, k, rfl, (digits?_eq_some (by decide)).1 hk, rfl⟩
    · rintro (⟨digits, k, ht, hk, rfl⟩ | ⟨k, hk, -⟩)
      · obtain rfl := (List.cons.inj ht).2
        exact ⟨k, (digits?_eq_some (by decide)).2 hk, rfl⟩
      · exact absurd List.mem_cons_self (hk.notMem (by decide) (by decide) (by decide))
  · rw [signed?_unsigned fun t ht => hminus ⟨t, ht⟩, Option.map_eq_some_iff]
    constructor
    · rintro ⟨k, hk, rfl⟩
      exact .inr ⟨k, (unsigned?_eq_some (by decide)).1 hk, rfl⟩
    · rintro (⟨digits, k, rfl, -, -⟩ | ⟨k, hk, rfl⟩)
      · exact absurd ⟨digits, rfl⟩ hminus
      · exact ⟨k, (unsigned?_eq_some (by decide)).2 hk, rfl⟩

theorem signedWord?_eq_some {s : List Char} {n : Int32} :
    signedWord? s = some n ↔ Signed s n.toInt := by
  rw [signedWord?, Option.map_eq_some_iff]
  constructor
  · rintro ⟨k, hk, rfl⟩
    rw [Option.filter_eq_some_iff, Bool.and_eq_true, decide_eq_true_iff, decide_eq_true_iff] at hk
    rw [Int32.toInt_ofInt_of_le hk.2.1 (by have := hk.2.2; omega)]
    exact signed?_eq_some.1 hk.1
  · intro h
    have hl : -0x80000000 ≤ n.toInt := n.le_toInt
    have hh : n.toInt ≤ 0x7FFFFFFF := Int.le_of_lt_add_one n.toInt_lt
    refine ⟨n.toInt, ?_, n.ofInt_toInt⟩
    rw [signed?_eq_some.2 h, Option.filter_some, decide_eq_true hl, decide_eq_true hh]
    rfl

theorem hexByte?_eq_some {s : List Char} {n : UInt8} :
    hexByte? s = some n ↔ Hexadecimal s n.toNat := by
  -- a text with a mark is no number as a whole, since the letter of the mark is no digit
  have hsmall : ∀ {t}, ¬ Unsigned 16 ('0' :: 'x' :: t) n.toNat := fun h =>
    h.notMem (by decide) (show digit? 'x' = none by decide) (by decide) (by simp)
  have hlarge : ∀ {t}, ¬ Unsigned 16 ('0' :: 'X' :: t) n.toNat := fun h =>
    h.notMem (by decide) (show digit? 'X' = none by decide) (by decide) (by simp)
  have hmarks : ∀ mark, mark ∈ hexMarks ↔ mark = [] ∨ mark = ['0', 'x'] ∨ mark = ['0', 'X'] := by
    simp [hexMarks]
  unfold hexByte? Hexadecimal
  split
  all_goals
    rw [byte?_eq_some (by decide)]
    simp only [hmarks]
  · rename_i t
    constructor
    · exact fun h => ⟨['0', 'x'], .inr (.inl rfl), t, rfl, h⟩
    · rintro ⟨mark, rfl | rfl | rfl, number, hs, h⟩
      · rw [← hs.trans (List.nil_append number)] at h
        exact absurd h hsmall
      · obtain rfl : t = number := by simpa using hs
        exact h
      · simp at hs
  · rename_i t
    constructor
    · exact fun h => ⟨['0', 'X'], .inr (.inr rfl), t, rfl, h⟩
    · rintro ⟨mark, rfl | rfl | rfl, number, hs, h⟩
      · rw [← hs.trans (List.nil_append number)] at h
        exact absurd h hlarge
      · simp at hs
      · obtain rfl : t = number := by simpa using hs
        exact h
  · rename_i hx hX
    constructor
    · exact fun h => ⟨[], .inl rfl, s, rfl, h⟩
    · rintro ⟨mark, rfl | rfl | rfl, number, hs, h⟩
      · exact hs ▸ h
      · exact absurd hs (hx number)
      · exact absurd hs (hX number)

end TileDeck.Text
