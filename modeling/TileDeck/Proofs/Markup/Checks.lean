import TileDeck.Proofs.Colour
import TileDeck.Proofs.Markup.Fields

set_option autoImplicit false

namespace TileDeck

open Text (Unsigned Signed Hexadecimal)

namespace Direction

def words : Direction → List String
  | right => ["r", "right"]
  | left => ["l", "left"]
  | up => ["u", "up"]
  | down => ["d", "down"]

def Named (field : List Char) (direction : Direction) : Prop :=
  String.ofList (field.map Char.toLower) ∈ direction.words

end Direction

namespace Markup

theorem Field.direction?_eq_some {field : List Char} {d : Direction} :
    Field.direction? field = some d ↔ Direction.Named field d := by
  unfold Field.direction? Direction.Named
  generalize String.ofList (field.map Char.toLower) = word
  dsimp only
  split_ifs with hr hl hu hd
  · rcases hr with rfl | rfl <;> cases d <;> decide
  · rcases hl with rfl | rfl <;> cases d <;> decide
  · rcases hu with rfl | rfl <;> cases d <;> decide
  · rcases hd with rfl | rfl <;> cases d <;> decide
  · cases d <;> simp [Direction.words, not_or.1 hr, not_or.1 hl, not_or.1 hu, not_or.1 hd]

/-- What a position asks of its field. -/
inductive Check
  | slot
  | slotOrNone
  | hexSlot
  | frames
  | coordinate
  | extent
  | arrowLength
  | colour
  | direction
  | anything
deriving DecidableEq, Repr

namespace Check

/-- The bounds of the words that have any. -/
def bounds? : Check → Option (Int × Int)
  | coordinate => some (-32767, 32767)
  | extent | arrowLength => some (0, 32767)
  | _ => none

def Reads : Check → List Char → Prop
  | slot, field => ∃ n : UInt8, Unsigned 10 field n.toNat
  | slotOrNone, field => field = [] ∨ ∃ n : UInt8, Unsigned 10 field n.toNat
  | hexSlot, field => ∃ n : UInt8, Hexadecimal field n.toNat
  | frames, field => ∃ n : UInt32, Unsigned 10 field n.toNat
  | coordinate, field | extent, field | arrowLength, field => ∃ n : Int32, Signed field n.toInt
  | colour, _ | direction, _ | anything, _ => True

def Passes : Check → List Char → Prop
  | coordinate, field => ∃ n : Int32, Signed field n.toInt ∧ Field.Within (-32767) 32767 n
  | extent, field => ∃ n : Int32, Signed field n.toInt ∧ Field.Within 0 32767 n
  | arrowLength, field => ∃ n : Int32, Signed field n.toInt ∧ Field.Within 1 32767 n
  | colour, field => ∃ colour, Rgb.Marked field colour
  | direction, field => ∃ direction, Direction.Named field direction
  | check, field => check.Reads field

inductive Fails : Check → List Char → Cause → Prop
  | number {check : Check} {field : List Char} (h : ¬ check.Reads field) :
    Fails check field (.invalidNumber (String.ofList field))
  | range {check : Check} {field : List Char} {low high : Int} {n : Int32}
    (hb : check.bounds? = some (low, high)) (hn : Signed field n.toInt)
    (h : ¬ Field.Within low high n) : Fails check field (.outOfRange (String.ofList field))
  | zero {field : List Char} (h : Signed field 0) : Fails arrowLength field .zeroLength
  | colour {field : List Char} (h : ¬ ∃ colour, Rgb.Marked field colour) :
    Fails colour field (.invalidColour (String.ofList field))
  | direction {field : List Char} (h : ¬ ∃ direction, Direction.Named field direction) :
    Fails direction field (.invalidDirection (String.ofList field))

end Check

def Cause.of? {α : Type} : Except Cause α → Option Cause
  | .ok _ => none
  | .error cause => some cause

def Check.fault? : Check → List Char → Option Cause
  | slot, field => Cause.of? (Field.byte field)
  | slotOrNone, field => Cause.of? (Field.byteOrNone field)
  | hexSlot, field => Cause.of? (Field.hexByte field)
  | frames, field => Cause.of? (Field.word field)
  | coordinate, field => Cause.of? (Field.coordinate field)
  | extent, field => Cause.of? (Field.extent field)
  | arrowLength, field => Cause.of? (Field.arrowLength field)
  | colour, field => Cause.of? (Field.colour field)
  | direction, field => Cause.of? (Field.direction field)
  | anything, _ => none

theorem Cause.of?_orFault {α : Type} {cause found : Cause} {o : Option α} :
    Cause.of? (Field.orFault found o) = some cause ↔ (¬ ∃ a, o = some a) ∧ cause = found := by
  cases o <;> simp [Field.orFault, Cause.of?, eq_comm]

theorem Cause.of?_eq_none {α : Type} {x : Except Cause α} :
    Cause.of? x = none ↔ ∃ a, x = .ok a := by
  cases x <;> simp [Cause.of?]

theorem Field.orFault_eq_ok {α : Type} {found : Cause} {o : Option α} {a : α} :
    orFault found o = .ok a ↔ o = some a := by
  cases o <;> simp [orFault]

theorem Cause.of?_map {α β : Type} (f : α → β) (x : Except Cause α) :
    Cause.of? (x.map f) = Cause.of? x := by
  cases x <;> rfl

theorem Field.of?_within {low high : Int} {field : List Char} {cause : Cause} :
    Cause.of? (within low high field) = some cause ↔
      (¬ ∃ n : Int32, Signed field n.toInt) ∧ cause = invalidNumber field ∨
      (∃ n : Int32, Signed field n.toInt ∧ ¬ Within low high n) ∧
        cause = .outOfRange (String.ofList field) := by
  simp only [← Text.signedWord?_eq_some]
  unfold within
  cases Text.signedWord? field with
  | none => simp [orFault, Cause.of?, bind, Except.bind, eq_comm]
  | some n =>
    by_cases hn : Within low high n
    · have hif : low ≤ n.toInt ∧ n.toInt ≤ high := hn
      simp [orFault, Cause.of?, bind, Except.bind, pure, Except.pure, hif, hn]
    · have hif : ¬ (low ≤ n.toInt ∧ n.toInt ≤ high) := hn
      simp only [orFault, bind, Except.bind, if_neg hif]
      simp [Cause.of?, throw, throwThe, MonadExceptOf.throw, hn, eq_comm]

theorem Field.within_eq_ok {low high : Int} {field : List Char} {n : Int32} :
    within low high field = .ok n ↔ Signed field n.toInt ∧ Within low high n := by
  rw [← Text.signedWord?_eq_some]
  unfold within
  cases Text.signedWord? field with
  | none => simp [orFault, bind, Except.bind]
  | some m =>
    by_cases hm : low ≤ m.toInt ∧ m.toInt ≤ high
    · simp only [orFault, bind, Except.bind, if_pos hm, pure, Except.pure, Except.ok.injEq,
        Option.some.injEq]
      constructor
      · rintro rfl
        exact ⟨rfl, hm⟩
      · exact fun h => h.1
    · simp only [orFault, bind, Except.bind, if_neg hm]
      constructor
      · intro h
        cases h
      · rintro ⟨h, hn⟩
        obtain rfl := Option.some.inj h
        exact absurd hn hm

theorem Field.of?_arrowLength {field : List Char} {cause : Cause} :
    Cause.of? (arrowLength field) = some cause ↔
      Cause.of? (extent field) = some cause ∨ Signed field 0 ∧ cause = .zeroLength := by
  have hzero : extent field = .ok 0 ↔ Signed field 0 := by
    rw [extent, within_eq_ok]
    exact and_iff_left ⟨by decide, by decide⟩
  unfold arrowLength
  rw [← hzero]
  cases extent field with
  | error found => simp [Cause.of?, bind, Except.bind]
  | ok n =>
    by_cases hn : n = 0
    · subst hn
      simp [Cause.of?, bind, Except.bind, throw, throwThe, MonadExceptOf.throw, eq_comm]
    · simp [Cause.of?, bind, Except.bind, pure, Except.pure, hn]

theorem Field.exists_arrowLength {field : List Char} :
    (∃ n, arrowLength field = .ok n) ↔
      ∃ n : Int32, Signed field n.toInt ∧ Within 1 32767 n := by
  have hpos : ∀ n : Int32, Within 1 32767 n ↔ Within 0 maxExtent n ∧ n ≠ 0 := by
    intro n
    have hzero : n.toInt = 0 ↔ n = 0 :=
      ⟨fun h => Int32.toInt_inj.1 h, fun h => congrArg Int32.toInt h⟩
    rw [ne_eq, ← hzero]
    unfold Within maxExtent
    omega
  unfold arrowLength
  simp only [bind_eq_ok, hpos, extent, within_eq_ok]
  constructor
  · rintro ⟨_, n, ⟨hs, hw⟩, h⟩
    by_cases hn : n = 0
    · rw [if_pos hn] at h
      cases h
    · exact ⟨n, hs, hw, hn⟩
  · rintro ⟨n, hs, hw, hn⟩
    exact ⟨_, n, ⟨hs, hw⟩, if_neg hn⟩

namespace Check

theorem fails_unbounded (check : Check) {field : List Char} {cause : Cause}
    (hb : check.bounds? = none) (hc : check ≠ .colour) (hd : check ≠ .direction) :
    check.Fails field cause ↔ ¬ check.Reads field ∧ cause = Field.invalidNumber field := by
  constructor
  · intro h
    cases h with
    | number h => exact ⟨h, rfl⟩
    | range hs => simp [hb] at hs
    | zero => simp [bounds?] at hb
    | colour => exact absurd rfl hc
    | direction => exact absurd rfl hd
  · rintro ⟨h, rfl⟩
    exact .number h

theorem fails_bounded {check : Check} {field : List Char} {cause : Cause} {low high : Int}
    (hb : check.bounds? = some (low, high)) :
    check.Fails field cause ↔
      ¬ check.Reads field ∧ cause = Field.invalidNumber field ∨
      (∃ n : Int32, Signed field n.toInt ∧ ¬ Field.Within low high n) ∧
        cause = .outOfRange (String.ofList field) ∨
      check = .arrowLength ∧ Signed field 0 ∧ cause = .zeroLength := by
  constructor
  · intro h
    cases h with
    | number h => exact .inl ⟨h, rfl⟩
    | range hs hn h =>
      obtain ⟨rfl, rfl⟩ := Prod.mk.inj (Option.some.inj (hb.symm.trans hs))
      exact .inr (.inl ⟨⟨_, hn, h⟩, rfl⟩)
    | zero h => exact .inr (.inr ⟨rfl, h, rfl⟩)
    | colour => simp [bounds?] at hb
    | direction => simp [bounds?] at hb
  · rintro (⟨h, rfl⟩ | ⟨⟨n, hn, h⟩, rfl⟩ | ⟨rfl, h, rfl⟩)
    · exact .number h
    · exact .range hb hn h
    · exact .zero h

theorem fault?_eq_some {check : Check} {field : List Char} {cause : Cause} :
    check.fault? field = some cause ↔ check.Fails field cause := by
  cases check with
  | slot =>
    rw [fails_unbounded .slot rfl (by decide) (by decide), fault?, Field.byte, Cause.of?_orFault]
    simp only [Text.byte?_eq_some (show 10 ≤ 16 by decide), Reads]
  | slotOrNone =>
    rw [fails_unbounded .slotOrNone rfl (by decide) (by decide), fault?, Field.byteOrNone]
    split
    · rename_i hnone
      simp [Cause.of?, Reads, hnone]
    · rename_i hsome
      rw [Cause.of?_map, Field.byte, Cause.of?_orFault]
      simp only [Text.byte?_eq_some (show 10 ≤ 16 by decide), Reads, hsome, false_or]
  | hexSlot =>
    rw [fails_unbounded .hexSlot rfl (by decide) (by decide), fault?, Field.hexByte, Cause.of?_orFault]
    simp only [Text.hexByte?_eq_some, Reads]
  | frames =>
    rw [fails_unbounded .frames rfl (by decide) (by decide), fault?, Field.word, Cause.of?_orFault]
    simp only [Text.word?_eq_some, Reads]
  | coordinate =>
    rw [fails_bounded rfl, fault?, Field.coordinate, Field.of?_within]
    simp [Reads, maxExtent]
  | extent =>
    rw [fails_bounded rfl, fault?, Field.extent, Field.of?_within]
    simp [Reads, maxExtent]
  | arrowLength =>
    rw [fails_bounded rfl, fault?, Field.of?_arrowLength, Field.extent, Field.of?_within]
    simp [Reads, maxExtent, or_assoc]
  | colour =>
    rw [fault?, Field.colour, Cause.of?_orFault]
    simp only [Rgb.ofMarked?_eq_some]
    constructor
    · rintro ⟨h, rfl⟩
      exact .colour h
    · intro h
      cases h with
      | number h => exact absurd trivial h
      | range hb => simp [bounds?] at hb
      | colour h => exact ⟨h, rfl⟩
  | direction =>
    rw [fault?, Field.direction, Cause.of?_orFault]
    simp only [Field.direction?_eq_some]
    constructor
    · rintro ⟨h, rfl⟩
      exact .direction h
    · intro h
      cases h with
      | number h => exact absurd trivial h
      | range hb => simp [bounds?] at hb
      | direction h => exact ⟨h, rfl⟩
  | anything =>
    rw [fails_unbounded .anything rfl (by decide) (by decide), fault?]
    simp [Reads]

theorem fault?_eq_none {check : Check} {field : List Char} :
    check.fault? field = none ↔ check.Passes field := by
  cases check with
  | slot =>
    rw [fault?, Field.byte, Cause.of?_eq_none]
    simp only [Field.orFault_eq_ok, Text.byte?_eq_some (show 10 ≤ 16 by decide), Passes, Reads]
  | slotOrNone =>
    change _ ↔ field = [] ∨ ∃ n : UInt8, Unsigned 10 field n.toNat
    rw [fault?, Field.byteOrNone]
    split
    · rename_i hnone
      exact iff_of_true rfl (.inl hnone)
    · rename_i hsome
      rw [Cause.of?_map, Field.byte, Cause.of?_eq_none]
      simp only [Field.orFault_eq_ok, Text.byte?_eq_some (show 10 ≤ 16 by decide), hsome,
        false_or]
  | hexSlot =>
    rw [fault?, Field.hexByte, Cause.of?_eq_none]
    simp only [Field.orFault_eq_ok, Text.hexByte?_eq_some, Passes, Reads]
  | frames =>
    rw [fault?, Field.word, Cause.of?_eq_none]
    simp only [Field.orFault_eq_ok, Text.word?_eq_some, Passes, Reads]
  | coordinate =>
    rw [fault?, Field.coordinate, Cause.of?_eq_none]
    simp only [Field.within_eq_ok, Passes, maxExtent]
  | extent =>
    rw [fault?, Field.extent, Cause.of?_eq_none]
    simp only [Field.within_eq_ok, Passes, maxExtent]
  | arrowLength =>
    rw [fault?, Cause.of?_eq_none, Passes, Field.exists_arrowLength]
  | colour =>
    rw [fault?, Field.colour, Cause.of?_eq_none]
    simp only [Field.orFault_eq_ok, Rgb.ofMarked?_eq_some, Passes]
  | direction =>
    rw [fault?, Field.direction, Cause.of?_eq_none]
    simp only [Field.orFault_eq_ok, Field.direction?_eq_some, Passes]
  | anything => exact iff_of_true rfl trivial

end Check

namespace Keyword

/-- What a command asks of its fields, position by position. -/
def checks : Keyword → List Check
  | text => [.coordinate, .coordinate, .slotOrNone]
  | textPalette => [.slot]
  | setColour => [.slot, .colour]
  | image => [.coordinate, .coordinate, .anything]
  | code => [.coordinate, .coordinate]
  | box => [.coordinate, .coordinate, .extent, .extent, .slotOrNone]
  | branchArrow | arrow => [.coordinate, .coordinate, .direction, .arrowLength]
  | backdrop => [.hexSlot]
  | sleep => [.frames]
  | _ => []

/-- The order in which the positions are read: a colour before its slot, the length of an arrow before
all else. -/
def order : Keyword → List Nat
  | setColour => [1, 0]
  | branchArrow | arrow => [3, 0, 1, 2]
  | keyword => List.range keyword.checks.length

/-- The number of fields is one that the keyword takes. -/
def Counts (keyword : Keyword) (n : Nat) : Prop :=
  ∀ arity ∈ keyword.arity?, arity.admits n = true

end Keyword

namespace Header

def faultAt? (header : Header) (i : Nat) : Option Cause :=
  (header.keyword.checks[i]?).bind fun check => (header.fields[i]?).bind check.fault?

def firstFault? (header : Header) : Option Cause := header.keyword.order.findSome? header.faultAt?

theorem of?_bind {α β : Type} {x : Except Cause α} {f : α → Except Cause β} {rest : Option Cause}
    (h : ∀ a, Cause.of? (f a) = rest) : Cause.of? (x >>= f) = (Cause.of? x).or rest := by
  cases x with
  | error cause => rfl
  | ok a => exact h a

theorem findSome?_eq_foldr {α β : Type} (f : α → Option β) (l : List α) :
    l.findSome? f = l.foldr (fun a rest => (f a).or rest) none := by
  induction l with
  | nil => rfl
  | cons a l ih =>
    rw [List.findSome?_cons, List.foldr_cons, ← ih]
    cases f a <;> rfl

theorem build?_eq_none {payload : String} {keyword : Keyword} {fields : List (List Char)} :
    build? payload keyword fields = none ↔ ¬ keyword.Counts fields.length := by
  unfold Keyword.Counts
  cases keyword with
  | text | textPalette | setColour | image | code | box | branchArrow | arrow | backdrop | sleep =>
    simp only [Keyword.arity?, Option.mem_some_iff, forall_eq', Arity.admits]
    rcases fields with _ | ⟨a, _ | ⟨b, _ | ⟨c, _ | ⟨d, _ | ⟨e, _ | ⟨f, rest⟩⟩⟩⟩⟩⟩ <;> simp [build?]
  | _ => simp [build?, Keyword.arity?]

/-- Building stops at the first fault of a field, if there is one. -/
theorem of?_build? {payload : String} {keyword : Keyword} {fields : List (List Char)}
    {result : Except Cause Command} (h : build? payload keyword fields = some result)
    (rest : List Char) : Cause.of? result = firstFault? ⟨keyword, fields, rest⟩ := by
  rw [firstFault?, findSome?_eq_foldr]
  have harrow : ∀ branches x y direction length,
      Cause.of? (arrow branches x y direction length) =
        (Cause.of? (Field.arrowLength length)).or ((Cause.of? (Field.coordinate x)).or
          ((Cause.of? (Field.coordinate y)).or ((Cause.of? (Field.direction direction)).or none))) :=
    fun _ _ _ _ _ => of?_bind fun _ => of?_bind fun _ => of?_bind fun _ => of?_bind fun _ => rfl
  unfold build? at h
  -- one case for each keyword and each number of fields that it takes, then the wrong numbers
  split at h
  case h_24 => cases h
  all_goals obtain rfl := Option.some.inj h
  case h_1 | h_4 | h_5 | h_6 => exact of?_bind fun _ => of?_bind fun _ => rfl
  case h_2 => exact of?_bind fun _ => of?_bind fun _ => of?_bind fun _ => rfl
  case h_3 | h_11 | h_12 => exact of?_bind fun _ => rfl
  case h_7 =>
    exact of?_bind fun _ => of?_bind fun _ => of?_bind fun _ => of?_bind fun _ => rfl
  case h_8 =>
    exact of?_bind fun _ => of?_bind fun _ => of?_bind fun _ => of?_bind fun _ =>
      of?_bind fun _ => rfl
  case h_9 | h_10 => exact harrow _ _ _ _ _
  all_goals rfl

theorem of?_command {header : Header} (h : header.keyword.Counts header.fields.length) :
    Cause.of? header.command = header.firstFault? := by
  unfold command
  split
  · rename_i result hr
    exact of?_build? hr header.payload
  · rename_i hr
    exact absurd h (build?_eq_none.1 hr)

end Header

end Markup

end TileDeck
