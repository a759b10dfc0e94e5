import TileDeck.Markup.Line
import TileDeck.Markup.Printer
import TileDeck.Proofs.Text.Numerals
import TileDeck.Proofs.Text.Pieces

set_option autoImplicit false

namespace TileDeck

namespace Rgb

theorem channel?_channelDigits (byte : UInt8) :
    channel? (Nat.digitChar (byte.toNat / 16)) (Nat.digitChar (byte.toNat % 16)) = some byte := by
  have hb : byte.toNat < 256 := byte.toNat_lt
  have hn : 16 * (byte.toNat / 16) + byte.toNat % 16 = byte.toNat := Nat.div_add_mod _ 16
  unfold channel?
  rw [Text.digitOf?_digitChar (by decide) (by omega), Text.digitOf?_digitChar (by decide) (by omega)]
  change some (UInt8.ofNat (16 * (byte.toNat / 16) + byte.toNat % 16)) = some byte
  rw [hn, UInt8.ofNat_toNat]

theorem digit_of_digits {colour : Rgb} : ∀ c ∈ colour.digits, (Text.digit? c).isSome := by
  have hchannel : ∀ byte : UInt8, ∀ c ∈ channelDigits byte, (Text.digit? c).isSome := by
    intro byte
    have hb : byte.toNat < 256 := byte.toNat_lt
    have hhigh := Text.digit?_digitChar (d := byte.toNat / 16) (by omega)
    have hlow := Text.digit?_digitChar (d := byte.toNat % 16) (by omega)
    simp [channelDigits, hhigh, hlow]
  simp only [digits, List.forall_mem_append]
  exact ⟨⟨hchannel _, hchannel _⟩, hchannel _⟩

theorem ofMarked?_digits (colour : Rgb) : ofMarked? colour.digits = some colour := by
  have hmark : colour.digits.dropWhile (· = '#') = colour.digits := by
    refine List.dropWhile_eq_self_iff.2 fun hl hm => ?_
    have hd := digit_of_digits _ (List.getElem_mem hl)
    rw [of_decide_eq_true hm] at hd
    cases hd
  rw [ofMarked?, hmark]
  simp only [digits, channelDigits, List.cons_append, List.nil_append, ofDigits?,
    channel?_channelDigits]
  rfl

end Rgb

namespace Markup

theorem bind_eq_ok {ε α β : Type} {x : Except ε α} {f : α → Except ε β} {b : β} :
    x >>= f = .ok b ↔ ∃ a, x = .ok a ∧ f a = .ok b := by
  cases x <;> simp [bind, Except.bind]

namespace Field

/-- A text that stands as a field of its own: trimmed, and without the marks that end a field. -/
structure Whole (field : List Char) : Prop where
  trimmed : Text.trim field = field
  comma : ',' ∉ field
  colon : ':' ∉ field

def Within (low high : Int) (n : Int32) : Prop := low ≤ n.toInt ∧ n.toInt ≤ high

theorem within_ok {low high : Int} {field : List Char} {n : Int32}
    (h : within low high field = .ok n) : Within low high n := by
  obtain ⟨m, _, hm⟩ := bind_eq_ok.1 h
  split at hm
  · obtain rfl : m = n := Except.ok.inj hm
    assumption
  · cases hm

theorem coordinate_ok {field : List Char} {n : Int32} (h : coordinate field = .ok n) :
    Within (-32767) 32767 n :=
  within_ok h

theorem place_ok {α : Type} {x y : List Char} {f : Int32 → Int32 → Except Cause α} {a : α}
    (h : (do let m ← coordinate x; let n ← coordinate y; f m n) = .ok a) :
    ∃ m n, Within (-32767) 32767 m ∧ Within (-32767) 32767 n ∧ f m n = .ok a := by
  obtain ⟨m, hm, h⟩ := bind_eq_ok.1 h
  obtain ⟨n, hn, h⟩ := bind_eq_ok.1 h
  exact ⟨m, n, coordinate_ok hm, coordinate_ok hn, h⟩

theorem extent_ok {field : List Char} {n : Int32} (h : extent field = .ok n) : Within 0 32767 n :=
  within_ok h

theorem arrowLength_ok {field : List Char} {n : UInt32} (h : arrowLength field = .ok n) :
    1 ≤ n.toNat ∧ n.toNat ≤ 32767 := by
  obtain ⟨m, hm, hn⟩ := bind_eq_ok.1 h
  have hw : Within 0 32767 m := extent_ok hm
  split at hn
  · cases hn
  · rename_i hzero
    obtain rfl : UInt32.ofNat m.toNatClampNeg = n := Except.ok.inj hn
    have hne : m.toInt ≠ 0 := fun hi => hzero (Int32.toInt_inj.1 hi)
    have hle : m.toNatClampNeg ≤ 32767 := by
      have := hw.2
      unfold Int32.toNatClampNeg
      omega
    have hpos : 1 ≤ m.toNatClampNeg := by
      have := hw.1
      unfold Int32.toNatClampNeg
      omega
    rw [UInt32.toNat_ofNat_of_lt' (Nat.lt_of_le_of_lt hle (by decide))]
    exact ⟨hpos, hle⟩

theorem within_wordField {low high : Int} {n : Int32} (h : Within low high n) :
    within low high (Command.wordField n) = .ok n := by
  unfold within
  rw [Command.wordField, Text.signedWord?_signedNumeral]
  exact if_pos h

theorem coordinate_wordField {n : Int32} (h : Within (-32767) 32767 n) :
    coordinate (Command.wordField n) = .ok n :=
  within_wordField h

theorem extent_wordField {n : Int32} (h : Within 0 32767 n) :
    extent (Command.wordField n) = .ok n :=
  within_wordField h

theorem byte_byteField (n : UInt8) : byte (Command.byteField n) = .ok n := by
  rw [byte, Command.byteField, Text.byte?_numeral (by decide) (by decide)]
  rfl

theorem byteOrNone_byteField (n : UInt8) : byteOrNone (Command.byteField n) = .ok (some n) := by
  have hne : Command.byteField n ≠ [] := Text.numeral_ne_nil 10 n.toNat
  rw [byteOrNone, if_neg hne, byte_byteField]
  rfl

theorem hexByte_numeral (n : UInt8) : hexByte (Text.numeral 16 n.toNat) = .ok n := by
  rw [hexByte, Text.hexByte?_numeral]
  rfl

theorem word_numeral (n : UInt32) : word (Text.numeral 10 n.toNat) = .ok n := by
  rw [word, Text.word?_numeral]
  rfl

theorem colour_digits (colour : Rgb) : Field.colour colour.digits = .ok colour := by
  rw [Field.colour, Rgb.ofMarked?_digits]
  rfl

theorem direction_letter (d : Direction) : direction [directionLetter d] = .ok d := by
  cases d <;> rfl

theorem arrowLength_numeral {n : UInt32} (hl : 1 ≤ n.toNat) (hh : n.toNat ≤ 32767) :
    arrowLength (Text.numeral 10 n.toNat) = .ok n := by
  have hi : (Int32.ofNat n.toNat).toInt = n.toNat :=
    Int32.toInt_ofNat_of_lt (Nat.lt_of_le_of_lt hh (by decide))
  have hw : Within 0 32767 (Int32.ofNat n.toNat) := by
    unfold Within
    omega
  have he : extent (Text.numeral 10 n.toNat) = .ok (Int32.ofNat n.toNat) := by
    have hf : Command.wordField (Int32.ofNat n.toNat) = Text.numeral 10 n.toNat := by
      rw [Command.wordField, hi]
      rfl
    rw [← hf]
    exact extent_wordField hw
  have hne : Int32.ofNat n.toNat ≠ 0 := by
    intro hzero
    rw [hzero] at hi
    change (0 : Int) = n.toNat at hi
    omega
  have hn : (Int32.ofNat n.toNat).toNatClampNeg = n.toNat :=
    Int32.toNatClampNeg_ofNat_of_lt (Nat.lt_of_le_of_lt hh (by decide))
  unfold arrowLength
  rw [he]
  change (if Int32.ofNat n.toNat = 0 then _ else _) = _
  rw [if_neg hne, hn, UInt32.ofNat_toNat]
  rfl

theorem whole_of_digits {field : List Char}
    (h : ∀ c ∈ field, c = '-' ∨ (Text.digit? c).isSome) : Whole field := by
  have hblank : ∀ c ∈ field, Text.isBlank c = false := by
    intro c hc
    rcases h c hc with rfl | hd
    · rfl
    · exact Text.isBlank_of_digit hd
  refine ⟨Text.trim_of_no_blank hblank, fun hc => ?_, fun hc => ?_⟩
  · have := h _ hc
    revert this
    decide
  · have := h _ hc
    revert this
    decide

theorem whole_wordField (n : Int32) : Whole (Command.wordField n) :=
  whole_of_digits Text.digit_of_signedNumeral

theorem whole_numeral {base : Nat} (hb : 1 < base) (hb' : base ≤ 16) (n : Nat) :
    Whole (Text.numeral base n) :=
  whole_of_digits fun c hc => .inr (Text.digit_of_numeral hb hb' c hc)

theorem whole_byteField (n : UInt8) : Whole (Command.byteField n) :=
  whole_numeral (by decide) (by decide) n.toNat

theorem whole_digits (colour : Rgb) : Whole colour.digits :=
  whole_of_digits fun c hc => .inr (Rgb.digit_of_digits c hc)

theorem whole_letter (d : Direction) : Whole [directionLetter d] := by
  cases d <;> exact ⟨rfl, by decide, by decide⟩

end Field

end Markup

end TileDeck
