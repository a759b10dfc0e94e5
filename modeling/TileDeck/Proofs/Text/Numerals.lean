import TileDeck.Text.Blank
import TileDeck.Text.Numeral

set_option autoImplicit false

namespace TileDeck.Text

theorem digit?_digitChar {d : Nat} (h : d < 16) : digit? (Nat.digitChar d) = some d := by
  revert d
  decide

theorem digitOf?_digitChar {base d : Nat} (hb : base ≤ 16) (hd : d < base) :
    digitOf? base (Nat.digitChar d) = some d := by
  unfold digitOf?
  rw [digit?_digitChar (by omega), Option.filter_some, decide_eq_true hd, if_pos rfl]

theorem isBlank_of_digit {c : Char} (h : (digit? c).isSome) : isBlank c = false := by
  have hc : (0x30 ≤ c.toNat ∧ c.toNat ≤ 0x39) ∨ (0x61 ≤ c.toNat ∧ c.toNat ≤ 0x66) ∨
      (0x41 ≤ c.toNat ∧ c.toNat ≤ 0x46) := by
    unfold digit? at h
    split at h
    · exact .inl ‹_›
    · split at h
      · exact .inr (.inl ‹_›)
      · split at h
        · exact .inr (.inr ‹_›)
        · simp at h
  simp only [isBlank, Bool.or_eq_false_iff, Bool.and_eq_false_iff, decide_eq_false_iff_not,
    beq_eq_false_iff_ne]
  omega

theorem digitsFrom?_concat (base n : Nat) (s : List Char) (c : Char) :
    digitsFrom? base n (s ++ [c]) =
      (digitsFrom? base n s).bind fun m => (digitOf? base c).map fun d => m * base + d := by
  induction s generalizing n with
  | nil =>
    simp only [List.nil_append, digitsFrom?]
    cases digitOf? base c <;> rfl
  | cons first s ih =>
    rw [List.cons_append, digitsFrom?, digitsFrom?]
    cases digitOf? base first with
    | none => rfl
    | some d => exact ih (n * base + d)

theorem digit_of_digitsFrom? {base n m : Nat} {s : List Char} (h : digitsFrom? base n s = some m) :
    ∀ c ∈ s, (digit? c).isSome := by
  induction s generalizing n with
  | nil => simp
  | cons first s ih =>
    rw [digitsFrom?, Option.bind_eq_some_iff] at h
    obtain ⟨d, hd, hs⟩ := h
    rw [List.forall_mem_cons]
    exact ⟨Option.isSome_of_mem (Option.eq_some_of_filter_eq_some hd), ih hs⟩

theorem digits?_eq_digitsFrom? {base : Nat} {s : List Char} (h : s ≠ []) :
    digits? base s = digitsFrom? base 0 s := by
  cases s with
  | nil => exact absurd rfl h
  | cons c s => rfl

theorem unsigned?_of_notMem {base : Nat} {s : List Char} (h : '+' ∉ s) :
    unsigned? base s = digits? base s := by
  unfold unsigned?
  split
  · simp at h
  · rfl

theorem signed?_of_notMem {s : List Char} (h : '-' ∉ s) :
    signed? s = (unsigned? 10 s).map fun n => (n : Int) := by
  unfold signed?
  split
  · simp at h
  · rfl

theorem numeral_ne_nil (base n : Nat) : numeral base n ≠ [] := Nat.toDigits_ne_nil

section
variable {base : Nat} (hb : 1 < base) (hb' : base ≤ 16)

include hb hb'

theorem digitsFrom?_numeral (n : Nat) : digitsFrom? base 0 (numeral base n) = some n := by
  induction n using Nat.strongRecOn with
  | ind n ih =>
    rw [numeral, Nat.toDigits_eq_if hb]
    split
    · rename_i hn
      rw [digitsFrom?, digitOf?_digitChar hb' hn, Nat.zero_mul]
      exact congrArg some (Nat.zero_add n)
    · rename_i hn
      have hq : n / base < n := Nat.div_lt_self (by omega) hb
      have hr : n % base < base := Nat.mod_lt n (by omega)
      have hs : digitsFrom? base 0 (Nat.toDigits base (n / base)) = some (n / base) := ih _ hq
      rw [digitsFrom?_concat, hs, digitOf?_digitChar hb' hr]
      exact congrArg some (Nat.div_add_mod' n base)

theorem digit_of_numeral {n : Nat} : ∀ c ∈ numeral base n, (digit? c).isSome :=
  digit_of_digitsFrom? (digitsFrom?_numeral hb hb' n)

theorem notMem_numeral {n : Nat} {c : Char} (hc : digit? c = none) : c ∉ numeral base n := by
  intro h
  have hd := digit_of_numeral hb hb' c h
  rw [hc] at hd
  simp at hd

theorem unsigned?_numeral (n : Nat) : unsigned? base (numeral base n) = some n := by
  have hplus : '+' ∉ numeral base n := notMem_numeral hb hb' rfl
  rw [unsigned?_of_notMem hplus, digits?_eq_digitsFrom? (numeral_ne_nil base n),
    digitsFrom?_numeral hb hb']

theorem byte?_numeral (n : UInt8) : byte? base (numeral base n.toNat) = some n := by
  have hn : n.toNat < UInt8.size := n.toNat_lt
  rw [byte?, unsigned?_numeral hb hb', Option.filter_some, decide_eq_true hn, if_pos rfl]
  exact congrArg some UInt8.ofNat_toNat

end

theorem word?_numeral (n : UInt32) : word? (numeral 10 n.toNat) = some n := by
  have hn : n.toNat < UInt32.size := n.toNat_lt
  rw [word?, unsigned?_numeral (by decide) (by decide), Option.filter_some, decide_eq_true hn,
    if_pos rfl]
  exact congrArg some UInt32.ofNat_toNat

theorem hexByte?_numeral (n : UInt8) : hexByte? (numeral 16 n.toNat) = some n := by
  have hsmall : 'x' ∉ numeral 16 n.toNat := notMem_numeral (by decide) (by decide) rfl
  have hlarge : 'X' ∉ numeral 16 n.toNat := notMem_numeral (by decide) (by decide) rfl
  have hn : byte? 16 (numeral 16 n.toNat) = some n := byte?_numeral (by decide) (by decide) n
  generalize numeral 16 n.toNat = s at hsmall hlarge hn
  unfold hexByte?
  split
  · simp at hsmall
  · simp at hlarge
  · exact hn

theorem signed?_signedNumeral (n : Int) : signed? (signedNumeral n) = some n := by
  cases n with
  | ofNat n =>
    have hminus : '-' ∉ numeral 10 n := notMem_numeral (by decide) (by decide) rfl
    rw [signedNumeral, signed?_of_notMem hminus, unsigned?_numeral (by decide) (by decide)]
    rfl
  | negSucc n =>
    rw [signedNumeral, signed?, digits?_eq_digitsFrom? (numeral_ne_nil 10 _),
      digitsFrom?_numeral (by decide) (by decide)]
    rfl

theorem signedWord?_signedNumeral (n : Int32) : signedWord? (signedNumeral n.toInt) = some n := by
  have hl : -0x80000000 ≤ n.toInt := n.le_toInt
  have hh : n.toInt ≤ 0x7FFFFFFF := Int.le_of_lt_add_one n.toInt_lt
  rw [signedWord?, signed?_signedNumeral, Option.filter_some, decide_eq_true hl, decide_eq_true hh]
  exact congrArg some n.ofInt_toInt

theorem digit_of_signedNumeral {n : Int} :
    ∀ c ∈ signedNumeral n, c = '-' ∨ (digit? c).isSome := by
  cases n with
  | ofNat n => exact fun c hc => .inr (digit_of_numeral (by decide) (by decide) c hc)
  | negSucc n =>
    rw [signedNumeral, List.forall_mem_cons]
    exact ⟨.inl rfl, fun c hc => .inr (digit_of_numeral (by decide) (by decide) c hc)⟩

end TileDeck.Text
