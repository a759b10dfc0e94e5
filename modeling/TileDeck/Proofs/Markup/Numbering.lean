import TileDeck.Markup.Line

set_option autoImplicit false

namespace TileDeck.Markup.Line

theorem ofChars_number (m n : Nat) (line : List Char) :
    ofChars n line = (ofChars m line).mapError fun fault => { fault with line := n } := by
  unfold ofChars
  split
  · rfl
  · split
    · rfl
    · split
      · rfl
      · split <;> rfl

theorem parse_number (m n : Nat) (raw : String) :
    parse n raw = (parse m raw).mapError fun fault => { fault with line := n } :=
  ofChars_number m n _

theorem parse_ok_number {m : Nat} (n : Nat) {raw : String} {line : Line}
    (h : parse m raw = .ok line) : parse n raw = .ok line := by
  rw [parse_number m n, h]
  rfl

theorem fault_line {n : Nat} {raw : String} {fault : Fault} (h : parse n raw = .error fault) :
    fault.line = n := by
  rw [parse_number n n] at h
  cases hp : parse n raw with
  | ok line =>
    rw [hp] at h
    cases h
  | error other =>
    rw [hp] at h
    obtain rfl := Except.error.inj h
    rfl

def fault? (number : Nat) (raw : String) : Option Fault :=
  match parse number raw with
  | .error fault => some fault
  | .ok _ => none

theorem fault?_eq_some {number : Nat} {raw : String} {fault : Fault} :
    fault? number raw = some fault ↔ parse number raw = .error fault := by
  unfold fault?
  split <;> simp_all

/-- The command of a line, if it is a command without a fault. -/
def command? (raw : String) : Option Command :=
  match parse 0 raw with
  | .ok (.command c) => some c
  | _ => none

theorem command?_eq_some {n : Nat} {raw : String} {c : Command} :
    command? raw = some c ↔ parse n raw = .ok (.command c) := by
  constructor
  · intro h
    unfold command? at h
    split at h
    · rename_i other ho
      rw [parse_ok_number n ho, Option.some.inj h]
    · simp at h
  · intro h
    unfold command?
    rw [parse_ok_number 0 h]

def continuation? (raw : String) : Option String :=
  match parse 0 raw with
  | .ok (.continuation text) => some text
  | _ => none

theorem continuation?_eq_some {n : Nat} {raw text : String} :
    continuation? raw = some text ↔ parse n raw = .ok (.continuation text) := by
  constructor
  · intro h
    unfold continuation? at h
    split at h
    · rename_i other ho
      rw [parse_ok_number n ho, Option.some.inj h]
    · simp at h
  · intro h
    unfold continuation?
    rw [parse_ok_number 0 h]

theorem text_of_continuation {n : Nat} {raw text : String}
    (h : parse n raw = .ok (.continuation text)) :
    text.toList = Text.dropReturn raw.toList := by
  unfold parse ofChars at h
  split at h
  · simp at h
  · split at h
    · simp only [Except.ok.injEq, Line.continuation.injEq] at h
      rw [← h, String.toList_ofList]
    · split at h
      · simp at h
      · split at h <;> simp at h

end TileDeck.Markup.Line
