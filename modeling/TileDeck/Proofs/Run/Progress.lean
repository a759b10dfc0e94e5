import TileDeck.Proofs.Run.Turning

set_option autoImplicit false

namespace TileDeck

open Markup

namespace Recorder

/-- All progress written down since `old` is right for the page with some index. -/
def CountsSince (pages index : Nat) (old : List Call) (r : Recorder) : Prop :=
  ∃ new, r.calls.toList = old ++ new ∧
    ∀ done total, .plain (.progress done total) ∈ new → Position.Counts pages index done total

theorem progress_of_call {ink : PaletteId} {p : Primitive} {done total : Nat}
    (h : .plain (.progress done total) ∈ Call.of? ink p) : p = .progress done total := by
  cases p <;> simp_all [Call.of?]

theorem kept_counts (pages index : Nat) (old : List Call) :
    Stage.Kept (fun p => ∀ done total, p = .progress done total →
        Position.Counts pages index done total)
      fun (_ : Remote) (r : Recorder) => r.CountsSince pages index old := by
  refine .of_frames ?_ (fun _ _ h => h) (fun _ _ _ h => h)
  intro p _ r hp ⟨new, hc, hn⟩
  refine ⟨new ++ (Call.of? r.ink p).toList, ?_, ?_⟩
  · rw [calls_perform, hc, List.append_assoc]
  · intro done total h
    rcases List.mem_append.1 h with h | h
    · exact hn done total h
    · exact hp done total (progress_of_call (Option.mem_toList.1 h))

end Recorder

namespace Page

variable {σ : Type} [Surface σ]

theorem progress_of_mem_drawing {options : Options} {stage : Stage σ} {command : Command}
    {done total : Nat} (h : .progress done total ∈ drawing options stage command) :
    stage.position.markStart.progress? = some (done, total) := by
  have hpaints : (Primitive.progress done total).paints = false := rfl
  cases command with
  | title => simp [paints_titleLine h] at hpaints
  | text => simp [paints_textLine h] at hpaints
  | box => simp [Box.paints_draw _ _ h] at hpaints
  | arrow => simp [Arrow.paints_draw _ h] at hpaints
  | code =>
    rcases paints_codeLine h with h | ⟨_, h⟩
    · simp [h] at hpaints
    · contradiction
  | initProgress =>
    obtain ⟨⟨done', total'⟩, hp, heq⟩ := List.mem_map.1 h
    rw [Option.mem_toList] at hp
    obtain ⟨rfl, rfl⟩ : done' = done ∧ total' = total := by simpa using heq
    exact hp
  | _ => simp [drawing] at h

theorem progress_of_mem_lineDrawing {options : Options} {stage : Stage σ} {line : String}
    {done total : Nat} (h : .progress done total ∈ lineDrawing options stage line) :
    stage.position.markStart.progress? = some (done, total) := by
  unfold lineDrawing at h
  split at h
  · rcases mem_extension h with h | ⟨⟨_, h⟩, _⟩
    · contradiction
    · contradiction
  · exact progress_of_mem_drawing h
  · simp at h

variable {pages index : Nat} {old : List Call} {stage : Stage Recorder}

theorem counts_showLine (options : Options) (number : Nat) (line : String)
    (hd : stage.position.OnDisplay pages index) (h : stage.surface.CountsSince pages index old) :
    (showLine options number line stage).2.surface.CountsSince pages index old := by
  refine kept_showLine (Recorder.kept_counts pages index old) (by simp) options number line stage
    ?_ h
  rintro p hp done total rfl
  have hm : stage.position.markStart.OnDisplay pages index := ⟨hd.pages_eq, hd.index_eq, hd.lt⟩
  exact hm.counts (progress_of_mem_lineDrawing hp)

theorem counts_showLines (options : Options) (number : Nat) (lines : List String)
    (hd : stage.position.OnDisplay pages index) (h : stage.surface.CountsSince pages index old) :
    (showLines options number stage lines).2.surface.CountsSince pages index old := by
  induction lines generalizing number stage with
  | nil => exact h
  | cons line rest ih =>
    have hl := counts_showLine options number line hd h
    have hp := onDisplay_showLine options number line hd
    rcases showLine_cases options number line stage with ⟨next, hn⟩ | ⟨turn, next, hn⟩
    · rw [hn] at hl hp
      rw [showLines_onward hn]
      exact ih (number + 1) hp hl
    · rw [hn] at hl
      rw [showLines_ended hn]
      exact hl

end Page

namespace Presentation

def callsOf (deck : Deck) (options : Options) (stage : Stage Recorder) : List Call :=
  (cycle deck options stage).2.surface.calls.toList.drop stage.surface.calls.toList.length

theorem calls_cycle (deck : Deck) (options : Options) (stage : Stage Recorder) :
    (cycle deck options stage).2.surface.calls.toList =
      stage.surface.calls.toList ++ callsOf deck options stage := by
  obtain ⟨drawn, hcalls, -⟩ := kept_cycle
    (Recorder.kept_drawn (stage.surface.calls.toList ++ [.plain .clear])) deck options stage
    ⟨[], by rw [Recorder.calls_perform, List.append_nil]; rfl, List.not_mem_nil⟩
  rw [callsOf, hcalls, List.append_assoc, List.drop_left]

section
variable {index : Nat} {old : List Call} {stage : Stage Recorder}

theorem counts_refreshProgress {pages : Nat} (hd : stage.position.OnDisplay pages index)
    (h : stage.surface.CountsSince pages index old) :
    (refreshProgress stage).surface.CountsSince pages index old := by
  have K := Recorder.kept_counts pages index old
  unfold refreshProgress
  split
  · rename_i done total hp
    refine Page.kept_draw K (fun p hm done' total' heq => ?_) stage h
    obtain rfl := List.mem_singleton.1 hm
    obtain ⟨rfl, rfl⟩ : done = done' ∧ total = total' := by simpa using heq
    exact hd.counts hp
  · exact Page.kept_draw K (by simp) stage h
  · exact h

theorem counts_showCurrent (deck : Deck) (options : Options)
    (hd : stage.position.OnDisplay deck.size index)
    (h : stage.surface.CountsSince deck.size index old) :
    (showCurrent deck options stage).2.surface.CountsSince deck.size index old := by
  obtain ⟨page, _, hc⟩ := exists_currentPage hd
  unfold showCurrent
  rw [hc]
  exact counts_refreshProgress (Page.onDisplay_showLines options 1 _ hd)
    (Page.counts_showLines options 1 _ hd h)

theorem counts_cycle (deck : Deck) (options : Options)
    (hd : stage.position.OnDisplay deck.size index) :
    (cycle deck options stage).2.surface.CountsSince deck.size index
      stage.surface.calls.toList := by
  have hclear : (stage.draw [.clear]).surface.CountsSince deck.size index
      stage.surface.calls.toList :=
    ⟨[.plain .clear], Recorder.calls_perform .clear stage.surface, by simp⟩
  have hdrawn : (stage.draw [.clear]).position.OnDisplay deck.size index := hd
  have hshown := counts_showCurrent deck options hdrawn hclear
  rw [cycle_eq]
  exact kept_takeTurn (Recorder.kept_counts deck.size index stage.surface.calls.toList) _ _ hshown

end

theorem visited_keeps {σ : Type} [Surface σ] {deck : Deck} {options : Options}
    (P : Stage σ → Prop) (hstep : ∀ stage, P stage → P (cycle deck options stage).2)
    {first : Stage σ} (h : P first) : ∀ stage ∈ visited deck options first, P stage := by
  fun_induction visited deck options first with
  | case1 first hf => simp
  | case2 first hf ht ih => exact List.forall_mem_cons.2 ⟨h, ih (hstep first h)⟩
  | case3 first hf hn => simpa using h

theorem calls_proceed (deck : Deck) (options : Options) (stage : Stage Recorder) :
    (proceed deck options stage).surface.calls.toList =
      stage.surface.calls.toList ++ (visited deck options stage).flatMap (callsOf deck options) := by
  fun_induction proceed deck options stage with
  | case1 stage hf =>
    rw [visited_of_finished hf, List.flatMap_nil, List.append_nil]
  | case2 stage hf ht ih =>
    rw [visited_of_turned (by simpa using hf) ht, ih, calls_cycle, List.flatMap_cons,
      List.append_assoc]
  | case3 stage hf hn =>
    rw [visited_of_ended (by simpa using hf) (by simpa using hn), calls_cycle,
      List.flatMap_singleton]

/-- What a run writes down is what its cycles do, and all progress that a cycle tells counts pages
of the deck up to the one on display, leaving those after it. -/
theorem progress_counts (deck : Deck) (options : Options) (pad : Pad) :
    let first := opening deck options pad Recorder.fresh
    (run deck options pad Recorder.fresh).surface.calls.toList =
      (visited deck options first).flatMap (callsOf deck options) ∧
    ∀ stage ∈ visited deck options first, ∀ done total,
      .plain (.progress done total) ∈ callsOf deck options stage →
      ∃ index page, stage.position.index = some index ∧ deck.page? index = some page ∧
        1 ≤ done ∧ done ≤ total ∧ total ≤ deck.size ∧
        total - done = (deck.pages.drop (index + 1)).length := by
  intro first
  refine ⟨calls_proceed deck options first, fun stage hs done total hm => ?_⟩
  -- a deck without pages has none on display, and its cycles write down the clear screen alone
  by_cases hd : deck.size = 0
  · have h : stage.position = .before 0 :=
      visited_keeps (·.position = .before 0) (fun _ => position_cycle_empty deck options)
        (position_opening_empty hd options pad Recorder.fresh) stage hs
    have hc := calls_cycle deck options stage
    rw [calls_cycle_empty deck options h] at hc
    rw [← List.append_cancel_left hc] at hm
    simp at hm
  · obtain ⟨index, h⟩ : ∃ index, stage.position.OnDisplay deck.size index :=
      visited_keeps (fun stage => ∃ index, stage.position.OnDisplay deck.size index)
        (fun _ ⟨_, h⟩ => ⟨_, onDisplay_cycle deck options h⟩)
        ⟨0, onDisplay_opening hd options pad Recorder.fresh⟩ stage hs
    obtain ⟨new, hnew, hcounts⟩ := counts_cycle deck options h
    rw [calls_cycle] at hnew
    rw [List.append_cancel_left hnew] at hm
    obtain ⟨page, hp, _⟩ := exists_currentPage h
    obtain ⟨h1, h2, h3, h4⟩ := hcounts done total hm
    refine ⟨index, page, h.index_eq, hp, h1, h2, h3, ?_⟩
    rw [h4, List.length_drop]
    rfl

def marked : Deck := .parse "title: a\n---\ninitprogress:\n---\ntitle: b"

theorem marked_progress :
    let first := opening marked .standard leafing Recorder.fresh
    let second := (cycle marked .standard first).2
    let third := (cycle marked .standard second).2
    third ∈ visited marked .standard first ∧
      .plain (.progress 2 2) ∈ callsOf marked .standard third ∧
      ∃ index page, third.position.index = some index ∧ marked.page? index = some page ∧
        1 ≤ 2 ∧ 2 ≤ 2 ∧ 2 ≤ marked.size ∧ 2 - 2 = (marked.pages.drop (index + 1)).length := by
  intro first second third
  have hvisited : third ∈ visited marked .standard first := by
    have hfirst : visited marked .standard first = first :: visited marked .standard second :=
      visited_of_turned (by decide) (by decide +kernel)
    have hsecond : visited marked .standard second = second :: visited marked .standard third :=
      visited_of_turned (by decide +kernel) (by decide +kernel)
    have hthird : third ∈ visited marked .standard third := by
      rw [visited_of_turned (by decide +kernel) (by decide +kernel)]
      exact List.mem_cons_self
    rw [hfirst, hsecond]
    exact List.mem_cons_of_mem _ (List.mem_cons_of_mem _ hthird)
  have hcall : .plain (.progress 2 2) ∈ callsOf marked .standard third := by decide +kernel
  exact ⟨hvisited, hcall,
    (progress_counts marked .standard leafing).2 third hvisited 2 2 hcall⟩

end Presentation

end TileDeck
