import TileDeck.Proofs.Page.Lines

set_option autoImplicit false

namespace TileDeck.Page

open Markup

variable {σ : Type}

def opened (stage : Stage σ) : Stage σ := { stage with cursor := .home, faults := [] }

variable [Surface σ]

/-- The number of lines that are carried out, the one that ends the page among them. -/
def reach (options : Options) (number : Nat) (stage : Stage σ) : List String → Nat
  | [] => 0
  | line :: rest =>
    match showLine options number line stage with
    | (.onward, stage) => reach options (number + 1) stage rest + 1
    | (.ended _, _) => 1

theorem reach_onward {options : Options} {number : Nat} {line : String} {stage next : Stage σ}
    (h : showLine options number line stage = (.onward, next)) (rest : List String) :
    reach options number stage (line :: rest) = reach options (number + 1) next rest + 1 := by
  rw [reach, h]

theorem reach_ended {options : Options} {number : Nat} {line : String} {stage next : Stage σ}
    {turn : Option Turn} (h : showLine options number line stage = (.ended turn, next))
    (rest : List String) : reach options number stage (line :: rest) = 1 := by
  rw [reach, h]

theorem reach_of_onward {options : Options} {number : Nat} {stage : Stage σ} {lines : List String}
    (h : (showLines options number stage lines).1 = .onward) :
    reach options number stage lines = lines.length := by
  induction lines generalizing number stage with
  | nil => rfl
  | cons line rest ih =>
    rcases showLine_cases options number line stage with ⟨next, hn⟩ | ⟨turn, next, hn⟩
    · rw [showLines_onward hn] at h
      rw [reach_onward hn]
      exact congrArg (· + 1) (ih h)
    · rw [showLines_ended hn] at h
      simp at h

theorem faults_execute (options : Options) (stage : Stage σ) (command : Command) :
    (execute options stage command).2.faults = stage.faults := by
  cases command with
  | pause =>
    change (pause stage).2.faults = stage.faults
    rw [pause_await]
    rfl
  | _ => rfl

theorem faults_proceed (options : Options) (text : String) (stage : Stage σ) :
    (proceed options text stage).faults = stage.faults := by
  unfold proceed
  split <;> rfl

theorem faults_showLine (options : Options) (number : Nat) (line : String) (stage : Stage σ) :
    (showLine options number line stage).2.faults =
      stage.faults ++ (Line.fault? number line).toList := by
  unfold showLine Line.fault?
  cases Line.parse number line with
  | error fault => rfl
  | ok read =>
    rw [Option.toList_none, List.append_nil]
    cases read with
    | comment => rfl
    | continuation text => exact faults_proceed options text stage
    | command command => exact faults_execute options _ command

def faultsOf (number : Nat) : List String → List Fault
  | [] => []
  | line :: rest => (Line.fault? number line).toList ++ faultsOf (number + 1) rest

theorem faults_showLines (options : Options) (number : Nat) (stage : Stage σ)
    (lines : List String) :
    (showLines options number stage lines).2.faults =
      stage.faults ++ faultsOf number (lines.take (reach options number stage lines)) := by
  induction lines generalizing number stage with
  | nil => exact (List.append_nil _).symm
  | cons line rest ih =>
    have hl := faults_showLine options number line stage
    rcases showLine_cases options number line stage with ⟨next, hn⟩ | ⟨turn, next, hn⟩
    · rw [hn] at hl
      rw [showLines_onward hn, reach_onward hn, ih, hl, List.take_succ_cons, faultsOf,
        List.append_assoc]
    · rw [hn] at hl
      rw [showLines_ended hn, reach_ended hn, hl, List.take_succ_cons, List.take_zero, faultsOf,
        faultsOf, List.append_nil]

theorem mem_faultsOf {number : Nat} {lines : List String} {fault : Fault} :
    fault ∈ faultsOf number lines ↔
      ∃ k line, lines[k]? = some line ∧ Line.parse (number + k) line = .error fault := by
  induction lines generalizing number with
  | nil => simp [faultsOf]
  | cons line rest ih =>
    rw [faultsOf, List.mem_append, Option.mem_toList, Line.fault?_eq_some, ih]
    constructor
    · rintro (hp | ⟨k, other, hk, hp⟩)
      · exact ⟨0, line, rfl, hp⟩
      · exact ⟨k + 1, other, hk, by rw [← Nat.add_assoc, Nat.add_right_comm]; exact hp⟩
    · rintro ⟨k, other, hk, hp⟩
      cases k with
      | zero =>
        obtain rfl : line = other := by simpa using hk
        exact .inl hp
      | succ k =>
        rw [← Nat.add_assoc, Nat.add_right_comm] at hp
        exact .inr ⟨k, other, hk, hp⟩

/-- A fault of a page bears the number of its line, counted from one. -/
theorem mem_faults_showPage {options : Options} {text : String} {stage : Stage σ} {fault : Fault} :
    fault ∈ (showPage options text stage).2.faults ↔
      0 < fault.line ∧ fault.line ≤ reach options 1 (opened stage) (scriptLines text) ∧
        ∃ line, (scriptLines text)[fault.line - 1]? = some line ∧
          Line.parse fault.line line = .error fault := by
  change fault ∈ (showLines options 1 (opened stage) (scriptLines text)).2.faults ↔ _
  rw [faults_showLines]
  change fault ∈ [] ++ faultsOf 1 _ ↔ _
  rw [List.nil_append, mem_faultsOf]
  constructor
  · rintro ⟨k, line, hk, hp⟩
    have hn := Line.fault_line hp
    rw [List.getElem?_take, Option.ite_none_right_eq_some] at hk
    rw [hn, Nat.add_sub_cancel_left]
    exact ⟨by omega, by omega, line, hk.2, hp⟩
  · rintro ⟨hpos, hr, line, hl, hp⟩
    refine ⟨fault.line - 1, line, ?_, ?_⟩
    · rw [List.getElem?_take_of_lt (by omega), hl]
    · rw [Nat.add_sub_cancel' hpos]
      exact hp

end TileDeck.Page
