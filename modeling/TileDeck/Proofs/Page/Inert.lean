import TileDeck.Proofs.Page.Reach
import TileDeck.Proofs.Text.Lines
import TileDeck.Recorder

set_option autoImplicit false

namespace TileDeck

open Markup

variable {σ : Type}

def Stage.withFaults (stage : Stage σ) (faults : List Fault) : Stage σ :=
  { stage with faults := faults }

def Stage.SameBarFaults (s t : Stage σ) : Prop := t = s.withFaults t.faults

theorem Stage.sameBarFaults_withFaults (stage : Stage σ) (faults : List Fault) :
    Stage.SameBarFaults stage (stage.withFaults faults) := rfl

theorem Stage.SameBarFaults.fields {s t : Stage σ} (h : SameBarFaults s t) :
    t.surface = s.surface ∧ t.remote = s.remote ∧ t.position = s.position ∧ t.cursor = s.cursor ∧
      t.ink = s.ink := by
  rw [h]
  exact ⟨rfl, rfl, rfl, rfl, rfl⟩

def Text.without {α : Type} (dropped : Nat → Bool) (number : Nat) (lines : List α) : List α :=
  ((lines.zipIdx number).filter fun line => !dropped line.2).map Prod.fst

theorem Text.without_cons {α : Type} (dropped : Nat → Bool) (number : Nat) (line : α)
    (lines : List α) :
    without dropped number (line :: lines) =
      if dropped number then without dropped (number + 1) lines
      else line :: without dropped (number + 1) lines := by
  unfold without
  rw [List.zipIdx_cons, List.filter_cons]
  cases dropped number <;> rfl

theorem Text.without_map {α β : Type} (f : α → β) (dropped : Nat → Bool) (number : Nat)
    (lines : List α) : without dropped number (lines.map f) = (without dropped number lines).map f := by
  induction lines generalizing number with
  | nil => rfl
  | cons line lines ih =>
    rw [List.map_cons, without_cons, without_cons, ih]
    split <;> rfl

theorem Text.without_subset {α : Type} (dropped : Nat → Bool) (number : Nat) (lines : List α) :
    without dropped number lines ⊆ lines := by
  intro line hl
  obtain ⟨numbered, hm, rfl⟩ := List.mem_map.1 hl
  exact List.fst_mem_of_mem_zipIdx (List.mem_of_mem_filter hm)

namespace Page

/-- A page text without some of its lines, counted from one. -/
def withoutLines (dropped : Nat → Bool) (text : String) : String :=
  String.ofList (['\n'].intercalate (Text.without dropped 1 (Text.lines text.toList)))

theorem scriptLines_withoutLines (dropped : Nat → Bool) (text : String) :
    scriptLines (withoutLines dropped text) =
      if Text.without dropped 1 (scriptLines text) = [] then [""]
      else Text.without dropped 1 (scriptLines text) := by
  unfold scriptLines withoutLines
  rw [String.toList_ofList, Text.without_map]
  generalize hkept : Text.without dropped 1 (Text.lines text.toList) = kept
  have hl : ∀ line ∈ kept, '\n' ∉ line := by
    intro line hline
    rw [← hkept] at hline
    exact Text.newline_notMem (Text.without_subset dropped 1 _ hline)
  cases kept with
  | nil => rfl
  | cons line rest =>
    rw [if_neg (by simp), Text.lines, List.splitOn_intercalate '\n' hl (by simp)]

/-- A comment, a faulty line, or a line that goes on with nothing. -/
def Inert (cursor : Cursor) (line : String) : Prop :=
  match Line.parse 0 line with
  | .ok .comment | .error _ => True
  | .ok (.continuation _) => cursor.mode = .none
  | .ok (.command _) => False

instance (cursor : Cursor) (line : String) : Decidable (Inert cursor line) := by
  unfold Inert
  split <;> infer_instance

variable [Surface σ]

theorem pause_withFaults (stage : Stage σ) (faults : List Fault) :
    pause (stage.withFaults faults) =
      ((pause stage).1, (pause stage).2.withFaults faults) := by
  have hwait : (stage.withFaults faults).await [] =
      ((stage.await []).1, (stage.await []).2.withFaults faults) := rfl
  apply Prod.ext
  · rw [pause_flow, pause_flow, hwait]
  · rw [pause_await, pause_await, hwait]

theorem execute_withFaults (options : Options) (stage : Stage σ) (faults : List Fault)
    (command : Command) :
    execute options (stage.withFaults faults) command =
      ((execute options stage command).1, (execute options stage command).2.withFaults faults) := by
  cases command with
  | pause => exact pause_withFaults stage faults
  | _ => rfl

theorem proceed_withFaults (options : Options) (text : String) (stage : Stage σ)
    (faults : List Fault) :
    proceed options text (stage.withFaults faults) =
      (proceed options text stage).withFaults faults := by
  obtain ⟨surface, remote, position, ⟨mode, x, y⟩, ink, known⟩ := stage
  cases mode <;> rfl

theorem showLine_withFaults (options : Options) (m n : Nat) (line : String) (stage : Stage σ)
    (faults : List Fault) :
    ∃ after, showLine options n line (stage.withFaults faults) =
      ((showLine options m line stage).1, (showLine options m line stage).2.withFaults after) := by
  unfold showLine
  rw [Line.parse_number m n]
  cases Line.parse m line with
  | error fault => exact ⟨_, rfl⟩
  | ok read =>
    refine ⟨faults, ?_⟩
    cases read with
    | comment => rfl
    | continuation text =>
      exact congrArg (Prod.mk Flow.onward) (proceed_withFaults options text stage faults)
    | command command =>
      exact execute_withFaults options { stage with cursor := stage.cursor.leave } faults command

theorem showLine_inert (options : Options) (number : Nat) {line : String} {stage : Stage σ}
    (h : Inert stage.cursor line) :
    ∃ faults, showLine options number line stage = (.onward, stage.withFaults faults) := by
  unfold Inert at h
  unfold showLine
  rw [Line.parse_number 0 number]
  cases hp : Line.parse 0 line with
  | error fault => exact ⟨_, rfl⟩
  | ok read =>
    rw [hp] at h
    refine ⟨stage.faults, ?_⟩
    cases read with
    | comment => rfl
    | continuation text =>
      have hm : stage.cursor.mode = .none := h
      simp only [Except.mapError, proceed, hm]
      rfl
    | command command => exact h.elim

theorem showLines_without (options : Options) (dropped : Nat → Bool) {m n : Nat}
    {lines : List String} {s t : Stage σ} (hs : Stage.SameBarFaults s t)
    (h : ∀ done line rest, lines = done ++ line :: rest → dropped (m + done.length) →
      ∀ shown, showLines options m s done = (.onward, shown) → Inert shown.cursor line) :
    (showLines options n t (Text.without dropped m lines)).1 =
        (showLines options m s lines).1 ∧
      Stage.SameBarFaults (showLines options m s lines).2
        (showLines options n t (Text.without dropped m lines)).2 := by
  induction lines generalizing m n s t with
  | nil => exact ⟨rfl, hs⟩
  | cons line rest ih =>
    have hnext : ∀ next, showLine options m line s = (.onward, next) →
        ∀ done later after, rest = done ++ later :: after → dropped (m + 1 + done.length) →
          ∀ shown, showLines options (m + 1) next done = (.onward, shown) →
            Inert shown.cursor later := by
      intro next hn done later after hl hd shown hshown
      refine h (line :: done) later after (by rw [hl]; rfl) ?_ shown ?_
      · rwa [List.length_cons, Nat.add_comm done.length, ← Nat.add_assoc]
      · rwa [showLines_onward hn]
    rw [Text.without_cons]
    cases hd : dropped m with
    | true =>
      -- the line that is left out had no effect, so the two pages are where they were
      have hinert : Inert s.cursor line := h [] line rest rfl hd s rfl
      obtain ⟨faults, hf⟩ := showLine_inert options m hinert
      rw [if_pos rfl, showLines_onward hf]
      refine ih ?_ (hnext _ hf)
      rw [hs]
      exact Stage.sameBarFaults_withFaults _ _
    | false =>
      obtain ⟨faults, hn⟩ := showLine_withFaults options m n line s t.faults
      rw [← hs] at hn
      rw [if_neg Bool.false_ne_true]
      rcases showLine_cases options m line s with ⟨next, hm⟩ | ⟨turn, next, hm⟩ <;> rw [hm] at hn
      · rw [showLines_onward hm, showLines_onward hn]
        exact ih (Stage.sameBarFaults_withFaults next faults) (hnext next hm)
      · rw [showLines_ended hm, showLines_ended hn]
        exact ⟨rfl, Stage.sameBarFaults_withFaults next faults⟩

/-- Lines that are inert wherever the page comes to them can be left out of it. The page then does
the same to its display, waits for the same turns, and leaves the same behind, bar its faults. -/
theorem showPage_withoutLines (options : Options) (text : String) (dropped : Nat → Bool)
    (stage : Stage σ)
    (h : ∀ done line rest, scriptLines text = done ++ line :: rest → dropped (1 + done.length) →
      ∀ shown, showLines options 1 (opened stage) done = (.onward, shown) →
        Inert shown.cursor line) :
    let full := showPage options text stage
    let thinned := showPage options (withoutLines dropped text) stage
    thinned.1 = full.1 ∧ thinned.2.surface = full.2.surface ∧ thinned.2.remote = full.2.remote ∧
      thinned.2.position = full.2.position ∧ thinned.2.cursor = full.2.cursor ∧
      thinned.2.ink = full.2.ink := by
  intro full thinned
  have hfull : full = showLines options 1 (opened stage) (scriptLines text) := rfl
  have hempty : showLines options 1 (opened stage) [""] = showLines options 1 (opened stage) [] := rfl
  have hthinned : thinned = showLines options 1 (opened stage)
      (Text.without dropped 1 (scriptLines text)) := by
    change showLines options 1 (opened stage) (scriptLines (withoutLines dropped text)) = _
    rw [scriptLines_withoutLines]
    split
    · rename_i hnil
      rw [hnil, hempty]
    · rfl
  have hsame : Stage.SameBarFaults (opened stage) (opened stage) := rfl
  obtain ⟨hflow, hafter⟩ := showLines_without options dropped (n := 1) hsame h
  rw [← hthinned, ← hfull] at hflow hafter
  exact ⟨hflow, hafter.fields⟩

def cluttered : String := "a\n# b\ntxt,2,3: c\nrect,1:\nd\npause:\ne\ntitle: f"

theorem cluttered_thinned :
    let dropped := fun number => [1, 2, 4, 7].contains number
    let start := { Buttons.released with start := true }
    let stage := Stage.ready .standard 1 (.ofScript [.released, start]) Recorder.fresh
    withoutLines dropped cluttered = "txt,2,3: c\nd\npause:\ntitle: f" ∧
    (∀ done line rest, scriptLines cluttered = done ++ line :: rest → dropped (1 + done.length) →
      ∀ shown, showLines .standard 1 (opened stage) done = (.onward, shown) →
        Inert shown.cursor line) ∧
    (showPage .standard cluttered stage).2.surface =
      (showPage .standard "txt,2,3: c\nd\npause:\ntitle: f" stage).2.surface := by
  intro dropped start stage
  have hw : withoutLines dropped cluttered = "txt,2,3: c\nd\npause:\ntitle: f" := by decide
  have hinert : ∀ k < 8, dropped (1 + k) → ∀ line ∈ (scriptLines cluttered)[k]?,
      Inert (showLines .standard 1 (opened stage) ((scriptLines cluttered).take k)).2.cursor line := by
    decide +kernel
  have h : ∀ done line rest, scriptLines cluttered = done ++ line :: rest →
      dropped (1 + done.length) → ∀ shown,
        showLines .standard 1 (opened stage) done = (.onward, shown) → Inert shown.cursor line := by
    intro done line rest hsplit hd shown hshown
    obtain rfl : (showLines .standard 1 (opened stage) done).2 = shown := congrArg Prod.snd hshown
    have hk : done.length < 8 := by
      have hlength : (scriptLines cluttered).length = 8 := rfl
      rw [hsplit, List.length_append, List.length_cons] at hlength
      omega
    have hi := hinert done.length hk hd line
    rw [hsplit, List.take_left, List.getElem?_append_right (Nat.le_refl _), Nat.sub_self] at hi
    exact hi rfl
  have hs := (showPage_withoutLines .standard cluttered dropped stage h).2.1
  rw [hw] at hs
  exact ⟨hw, h, hs.symm⟩

end Page

end TileDeck
