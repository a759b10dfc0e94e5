import TileDeck.Proofs.Page.Reach

set_option autoImplicit false

namespace TileDeck.Page

open Markup

variable {σ : Type} [Surface σ]

def carryOut (options : Options) (number : Nat) (line : String) (stage : Stage σ) : Stage σ :=
  match Line.parse number line with
  | .ok .comment => stage
  | .ok (.continuation text) => proceed options text stage
  | .ok (.command command) =>
    (execute options { stage with cursor := stage.cursor.leave } command).2
  | .error fault => { stage with faults := stage.faults ++ [fault] }

def carryOutAll (options : Options) (number : Nat) (stage : Stage σ) : List String → Stage σ
  | [] => stage
  | line :: rest =>
    carryOutAll options (number + 1) (carryOut options number line stage) rest

def answer? (stage : Stage σ) : Command → Option (Option Turn)
  | .pause => some (stage.await []).1
  | .titleScreen => some ((stage.draw [.titleScreen]).await []).1
  | .demoGame => some ((stage.draw [.demoGame]).await []).1
  | .scroll => some (stage.await [.scrollBackground 1]).1
  | _ => none

/-- A command with an answer ends the page, but for a pause that is answered by a turn forward. -/
def Ends (stage : Stage σ) (line : String) (turn : Option Turn) : Prop :=
  ∃ command, Line.command? line = some command ∧ answer? stage command = some turn ∧
    (command = .pause → turn ≠ some .forward)

theorem showLine_snd (options : Options) (number : Nat) (line : String) (stage : Stage σ) :
    (showLine options number line stage).2 = carryOut options number line stage := by
  unfold showLine carryOut
  cases Line.parse number line with
  | error fault => rfl
  | ok read => cases read <;> rfl

theorem execute_ended {options : Options} {stage : Stage σ} {command : Command}
    {turn : Option Turn} :
    (execute options stage command).1 = .ended turn ↔
      answer? stage command = some turn ∧ (command = .pause → turn ≠ some .forward) := by
  cases command with
  | pause =>
    have hflow : (execute options stage .pause).1 = _ := pause_flow stage
    rw [hflow]
    constructor
    · intro h
      split at h
      · cases h
      · rename_i hn
        obtain rfl := Flow.ended.inj h
        exact ⟨rfl, fun _ => hn⟩
    · rintro ⟨ha, hn⟩
      obtain rfl := Option.some.inj ha
      exact if_neg (hn rfl)
  | titleScreen | demoGame | scroll => simp [execute, endOnTurn, answer?]
  | _ => simp [execute, answer?]

theorem answer?_leave (stage : Stage σ) (command : Command) :
    answer? { stage with cursor := stage.cursor.leave } command = answer? stage command := by
  cases command <;> rfl

theorem showLine_ended {options : Options} {number : Nat} {line : String} {stage : Stage σ}
    {turn : Option Turn} :
    (showLine options number line stage).1 = .ended turn ↔ Ends stage line turn := by
  unfold Ends
  simp only [Line.command?_eq_some (n := number)]
  unfold showLine
  cases Line.parse number line with
  | error fault => simp
  | ok read =>
    cases read with
    | comment => simp
    | continuation text => simp
    | command command =>
      simp only [execute_ended, answer?_leave, Except.ok.injEq, Line.command.injEq]
      constructor
      · exact fun h => ⟨command, rfl, h⟩
      · rintro ⟨_, rfl, h⟩
        exact h

/-- The page ends without a turn only on a pad that asks to stop. -/
theorem finished_of_ends {options : Options} {number : Nat} {line : String} {stage : Stage σ}
    (h : Ends stage line none) : (carryOut options number line stage).remote.pad.finished = true := by
  obtain ⟨command, hc, ha, -⟩ := h
  unfold carryOut
  rw [Line.command?_eq_some.1 hc]
  dsimp only
  cases command with
  | pause =>
    change (pause _).2.remote.pad.finished = true
    rw [pause_await]
    exact Remote.finished_of_await_none (Option.some.inj ha)
  | titleScreen | demoGame | scroll => exact Remote.finished_of_await_none (Option.some.inj ha)
  | _ => cases ha

theorem faults_carryOut (options : Options) (number : Nat) (line : String) (stage : Stage σ) :
    (carryOut options number line stage).faults =
      stage.faults ++ (Line.fault? number line).toList := by
  rw [← showLine_snd]
  exact faults_showLine options number line stage

theorem carryOutAll_append (options : Options) (number : Nat) (stage : Stage σ)
    (done rest : List String) :
    carryOutAll options number stage (done ++ rest) =
      carryOutAll options (number + done.length) (carryOutAll options number stage done) rest := by
  induction done generalizing number stage with
  | nil => rfl
  | cons line done ih =>
    rw [List.cons_append, carryOutAll, carryOutAll, ih, List.length_cons, Nat.add_assoc,
      Nat.add_comm 1]

theorem faults_carryOutAll (options : Options) (number : Nat) (stage : Stage σ)
    (lines : List String) :
    (carryOutAll options number stage lines).faults =
      stage.faults ++ (lines.zipIdx number).filterMap fun p => Line.fault? p.2 p.1 := by
  induction lines generalizing number stage with
  | nil => exact (List.append_nil _).symm
  | cons line rest ih =>
    rw [carryOutAll, ih, faults_carryOut, List.zipIdx_cons, List.filterMap_cons, List.append_assoc]
    cases Line.fault? number line <;> rfl

theorem showLines_eq_onward {options : Options} {number : Nat} {stage shown : Stage σ}
    {done : List String} (h : showLines options number stage done = (.onward, shown)) :
    shown = carryOutAll options number stage done ∧
      ∀ i line, done[i]? = some line →
        ∀ turn, ¬ Ends (carryOutAll options number stage (done.take i)) line turn := by
  induction done generalizing number stage with
  | nil =>
    obtain rfl : stage = shown := congrArg Prod.snd h
    exact ⟨rfl, fun i line hi => by simp at hi⟩
  | cons first rest ih =>
    rcases showLine_cases options number first stage with ⟨next, hn⟩ | ⟨turn, next, hn⟩
    · obtain rfl : carryOut options number first stage = next := by rw [← showLine_snd, hn]
      rw [showLines_onward hn] at h
      obtain ⟨hshown, hrest⟩ := ih h
      refine ⟨hshown, fun i line hi turn hends => ?_⟩
      cases i with
      | zero =>
        obtain rfl : first = line := Option.some.inj hi
        rw [List.take_zero, carryOutAll, ← showLine_ended, hn] at hends
        cases hends
      | succ i => exact hrest i line hi turn hends
    · rw [showLines_ended hn] at h
      cases h

/-- A page that is ended splits at the line that ends it. -/
theorem showLines_eq_ended {options : Options} {number : Nat} {stage : Stage σ} (lines : List String)
    (h : (showLines options number stage lines).1 ≠ .onward) :
    ∃ done line rest shown, lines = done ++ line :: rest ∧
      showLines options number stage done = (.onward, shown) ∧
      ∃ turn, Ends shown line turn := by
  induction lines generalizing number stage with
  | nil => exact absurd rfl h
  | cons first rest ih =>
    rcases showLine_cases options number first stage with ⟨next, hn⟩ | ⟨turn, next, hn⟩
    · rw [showLines_onward hn] at h
      obtain ⟨done, line, rest, shown, rfl, hdone, hends⟩ := ih h
      exact ⟨first :: done, line, rest, shown, rfl, by rw [showLines_onward hn, hdone], hends⟩
    · have hends : Ends stage first turn := showLine_ended.1 (congrArg Prod.fst hn)
      exact ⟨[], first, rest, stage, rfl, rfl, turn, hends⟩

theorem showLines_ends {options : Options} {number : Nat} {stage shown : Stage σ}
    {done : List String} (h : showLines options number stage done = (.onward, shown))
    {line : String} {turn : Option Turn} (hends : Ends shown line turn) (rest : List String) :
    showLines options number stage (done ++ line :: rest) =
      (.ended turn, carryOut options (number + done.length) line shown) := by
  have hline : showLine options (number + done.length) line shown =
      (.ended turn, carryOut options (number + done.length) line shown) :=
    Prod.ext (showLine_ended.2 hends) (showLine_snd _ _ _ _)
  rw [showLines_append h, showLines_ended hline]

omit [Surface σ] in
theorem pairwise_faults (number : Nat) (lines : List String) :
    ((lines.zipIdx number).filterMap fun p => Line.fault? p.2 p.1).Pairwise
      fun earlier later => earlier.line < later.line := by
  have hnumbers : (lines.zipIdx number).Pairwise fun p q => p.2 < q.2 := by
    rw [← List.pairwise_map (f := Prod.snd) (R := (· < ·)), List.zipIdx_map_snd]
    exact List.pairwise_lt_range'
  rw [List.pairwise_filterMap]
  refine hnumbers.imp fun hlt earlier he later hl => ?_
  rw [Line.fault_line (Line.fault?_eq_some.1 he), Line.fault_line (Line.fault?_eq_some.1 hl)]
  exact hlt

omit [Surface σ] in
theorem mem_faults_numbered {lines : List String} {fault : Fault}
    (h : fault ∈ (lines.zipIdx 1).filterMap fun p => Line.fault? p.2 p.1) :
    0 < fault.line ∧ fault.line ≤ lines.length ∧
      ∃ line, lines[fault.line - 1]? = some line ∧ Line.parse fault.line line = .error fault := by
  obtain ⟨⟨line, number⟩, hmem, hf⟩ := List.mem_filterMap.1 h
  obtain ⟨hlow, hhigh, hline⟩ := List.mem_zipIdx hmem
  have hparse := Line.fault?_eq_some.1 hf
  obtain rfl : fault.line = number := Line.fault_line hparse
  refine ⟨hlow, by omega, line, ?_, hparse⟩
  rw [List.getElem?_eq_getElem (by omega), hline]

section
variable (options : Options) (stage : Stage σ) (lines : List String)

/-- The line after the first `i` ends the page. -/
def EndsAt (i : Nat) (turn : Option Turn) : Prop :=
  ∃ line, lines[i]? = some line ∧ Ends (carryOutAll options 1 stage (lines.take i)) line turn

/-- The lines run out, or the last of the first `m` ends the page: with a turn, or without one on a pad
that asks to stop. -/
inductive Stops (shown : Stage σ) : Nat → Flow → Prop
  | through (h : ∀ i turn, ¬ EndsAt options stage lines i turn) : Stops shown lines.length .onward
  | early {i : Nat} {turn : Option Turn} (h : EndsAt options stage lines i turn)
    (hstop : turn = none → shown.remote.pad.finished = true) : Stops shown (i + 1) (.ended turn)

/-- The first `m` lines are carried out, each once and in order, and none after them. -/
structure Carried (m : Nat) (flow : Flow) (shown : Stage σ) : Prop where
  le_length : m ≤ lines.length
  shown_eq : shown = carryOutAll options 1 stage (lines.take m)
  stops : Stops options stage lines shown m flow
  /-- No line before the last of them ends the page. -/
  onward : ∀ i turn, i + 1 < m → ¬ EndsAt options stage lines i turn
  /-- A pause that is answered by a turn forward does not end the page, wherever it stands. -/
  paused : ∀ i line, i < m → lines[i]? = some line → Line.command? line = some .pause →
    answer? (carryOutAll options 1 stage (lines.take i)) .pause = some (some .forward) →
      i + 1 < m ∨ flow = .onward
  faults_eq : shown.faults = ((lines.take m).zipIdx 1).filterMap fun p => Line.fault? p.2 p.1
  increasing : shown.faults.Pairwise fun earlier later => earlier.line < later.line
  placed : ∀ fault ∈ shown.faults, 0 < fault.line ∧ fault.line ≤ m ∧
    ∃ line, lines[fault.line - 1]? = some line ∧ Line.parse fault.line line = .error fault

end

theorem not_endsAt_of_forward {options : Options} {stage : Stage σ} {lines : List String} {i : Nat}
    {line : String} (hl : lines[i]? = some line) (hc : Line.command? line = some .pause)
    (ha : answer? (carryOutAll options 1 stage (lines.take i)) .pause = some (some .forward))
    (turn : Option Turn) : ¬ EndsAt options stage lines i turn := by
  rintro ⟨other, ho, command, hc', ha', hn⟩
  obtain rfl : line = other := Option.some.inj (hl.symm.trans ho)
  obtain rfl : .pause = command := Option.some.inj (hc.symm.trans hc')
  exact hn rfl (Option.some.inj (ha'.symm.trans ha))

theorem carried_of_stops {options : Options} {stage shown : Stage σ} {lines : List String} {m : Nat}
    {flow : Flow} (hf : stage.faults = []) (hle : m ≤ lines.length)
    (hshown : shown = carryOutAll options 1 stage (lines.take m))
    (hstops : Stops options stage lines shown m flow)
    (honward : ∀ i turn, i + 1 < m → ¬ EndsAt options stage lines i turn) :
    Carried options stage lines m flow shown := by
  have hfaults : shown.faults =
      ((lines.take m).zipIdx 1).filterMap fun p => Line.fault? p.2 p.1 := by
    rw [hshown, faults_carryOutAll, hf, List.nil_append]
  refine ⟨hle, hshown, hstops, honward, fun i line hi hl hc ha => ?_, hfaults, ?_, ?_⟩
  · cases hstops with
    | through => exact .inr rfl
    | @early k turn hends =>
      have hik : i ≠ k := by
        rintro rfl
        exact not_endsAt_of_forward hl hc ha turn hends
      exact .inl (by omega)
  · rw [hfaults]
    exact pairwise_faults 1 _
  · intro fault hmem
    rw [hfaults] at hmem
    obtain ⟨hpos, hm, line, hl, hp⟩ := mem_faults_numbered hmem
    rw [List.length_take] at hm
    rw [List.getElem?_take_of_lt (by omega)] at hl
    exact ⟨hpos, by omega, line, hl, hp⟩

theorem showLines_carried {options : Options} {stage : Stage σ} (hf : stage.faults = [])
    (lines : List String) :
    ∃ m, Carried options stage lines m (showLines options 1 stage lines).1
        (showLines options 1 stage lines).2 ∧
      ∀ other : List String, other.take m = lines.take m →
        other.length = m ∨ (showLines options 1 stage lines).1 ≠ .onward →
        showLines options 1 stage other = showLines options 1 stage lines := by
  by_cases hflow : (showLines options 1 stage lines).1 = .onward
  · obtain ⟨hshown, hnone⟩ := showLines_eq_onward (Prod.ext hflow rfl)
    have hends : ∀ i turn, ¬ EndsAt options stage lines i turn :=
      fun i turn ⟨line, hl, h⟩ => hnone i line hl turn h
    have hall : (showLines options 1 stage lines).2 =
        carryOutAll options 1 stage (lines.take lines.length) := by
      rw [List.take_length, ← hshown]
    rw [hflow]
    refine ⟨lines.length, carried_of_stops hf (Nat.le_refl _) hall (.through hends)
      (fun i turn _ => hends i turn), fun other hsame hlast => ?_⟩
    -- there are no lines after the first `m` that could differ
    have hlength : other.length = lines.length := hlast.resolve_right fun h => h rfl
    rw [List.take_length, ← hlength, List.take_length] at hsame
    rw [hsame]
  · obtain ⟨done, line, rest, shown, rfl, hdone, turn, hends⟩ := showLines_eq_ended lines hflow
    obtain ⟨rfl, hnone⟩ := showLines_eq_onward hdone
    have htake : (done ++ line :: rest).take (done.length + 1) = done ++ [line] := by
      rw [List.take_length_add_append, List.take_succ_cons, List.take_zero]
    have hcarried : carryOutAll options 1 stage (done ++ [line]) =
        carryOut options (1 + done.length) line (carryOutAll options 1 stage done) := by
      rw [carryOutAll_append]
      rfl
    have hlast : EndsAt options stage (done ++ line :: rest) done.length turn :=
      ⟨line, by simp, by rwa [List.take_left]⟩
    rw [showLines_ends hdone hends]
    refine ⟨done.length + 1, carried_of_stops hf ?_ ?_ (.early hlast ?_) ?_, ?_⟩
    · rw [List.length_append, List.length_cons]
      omega
    · rw [htake, hcarried]
    · rintro rfl
      exact finished_of_ends hends
    · rintro i turn hi ⟨other, ho, h⟩
      have hlt : i < done.length := by omega
      rw [List.getElem?_append_left hlt] at ho
      rw [List.take_append_of_le_length (Nat.le_of_lt hlt)] at h
      exact hnone i other ho turn h
    · -- the other page splits at the same line
      intro other hsame _
      rw [htake] at hsame
      rw [← List.take_append_drop (done.length + 1) other, hsame, List.append_assoc,
        List.singleton_append, showLines_ends hdone hends]

/-- A page has a number of leading lines that are carried out, and the rest of it does not matter: a
page that begins with the same lines is shown the same, if they end it or are all that it has. -/
theorem showPage_carried (options : Options) (text : String) (stage : Stage σ) :
    ∃ m, Carried options (opened stage) (scriptLines text) m (showPage options text stage).1
        (showPage options text stage).2 ∧
      ∀ other : String, (scriptLines other).take m = (scriptLines text).take m →
        (scriptLines other).length = m ∨ (showPage options text stage).1 ≠ .onward →
        showPage options other stage = showPage options text stage := by
  have hf : (opened stage).faults = [] := rfl
  obtain ⟨m, hcarried, hsame⟩ := @showLines_carried σ _ options (opened stage) hf (scriptLines text)
  exact ⟨m, hcarried, fun other => hsame (scriptLines other)⟩

end TileDeck.Page
