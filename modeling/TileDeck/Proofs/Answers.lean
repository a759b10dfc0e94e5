set_option autoImplicit false

/-!
# Answers under a condition

A computation that can fail, told in full: what it answers where a condition holds, and that it fails
everywhere else.
-/
namespace TileDeck

structure Answers {α : Type} (answer? : Option α) (holds : Prop) (answer : α) : Prop where
  of_holds : holds → answer? = some answer
  of_not : ¬ holds → answer? = none

namespace Answers

variable {α β σ : Type} {a : α} {b : β} {answer? : Option α} {holds next : Prop}

theorem of_eq (h : answer? = some a) : Answers answer? True a :=
  ⟨fun _ => h, fun hn => absurd trivial hn⟩

theorem always (a : α) : Answers (some a) True a := of_eq rfl

theorem ite (holds : Prop) [Decidable holds] (a : α) :
    Answers (if holds then some a else none) holds a :=
  ⟨fun h => if_pos h, fun h => if_neg h⟩

theorem congr (h : Answers answer? holds a) (hn : holds ↔ next) : Answers answer? next a :=
  ⟨fun hp => h.of_holds (hn.2 hp), fun hp => h.of_not (mt hn.1 hp)⟩

theorem bind {f : α → Option β} (h : Answers answer? holds a)
    (hf : holds → Answers (f a) next b) : Answers (answer?.bind f) (holds ∧ next) b := by
  constructor
  · rintro ⟨hp, hn⟩
    rw [h.of_holds hp, Option.bind_some, (hf hp).of_holds hn]
  · intro hno
    by_cases hp : holds
    · rw [h.of_holds hp, Option.bind_some, (hf hp).of_not fun hn => hno ⟨hp, hn⟩]
    · rw [h.of_not hp, Option.bind_none]

theorem map (h : Answers answer? holds a) (f : α → β) : Answers (answer?.map f) holds (f a) := by
  constructor
  · intro hp
    rw [h.of_holds hp, Option.map_some]
  · intro hp
    rw [h.of_not hp, Option.map_none]

theorem exists_iff (h : Answers answer? holds a) {q : α → Prop} :
    (∃ given, answer? = some given ∧ q given) ↔ holds ∧ q a := by
  by_cases hp : holds
  · simp [h.of_holds hp, hp]
  · simp [h.of_not hp, hp]

theorem mapM {f : α → Option β} {g : α → β} {fits : α → Prop} {items : List α}
    (h : ∀ a ∈ items, Answers (f a) (fits a) (g a)) :
    Answers (items.mapM f) (∀ a ∈ items, fits a) (items.map g) := by
  induction items with
  | nil => exact (always []).congr ⟨fun _ => List.forall_mem_nil _, fun _ => trivial⟩
  | cons a items ih =>
    rw [List.forall_mem_cons] at h
    rw [List.mapM_cons, List.forall_mem_cons]
    have hrest := (ih h.2).map (g a :: ·)
    rw [Option.map_eq_bind] at hrest
    exact h.1.bind fun _ => hrest

theorem foldlM_of_mem {f : σ → α → Option σ} {g : σ → α → σ} {fits : α → Prop} {items : List α}
    (h : ∀ a ∈ items, ∀ s, Answers (f s a) (fits a) (g s a)) (s : σ) :
    Answers (items.foldlM f s) (∀ a ∈ items, fits a) (items.foldl g s) := by
  induction items generalizing s with
  | nil => exact (always s).congr ⟨fun _ => List.forall_mem_nil _, fun _ => trivial⟩
  | cons a items ih =>
    rw [List.forall_mem_cons] at h
    rw [List.foldlM_cons, List.forall_mem_cons]
    exact (h.1 s).bind fun _ => ih h.2 (g s a)

/-- A run fails where one of its steps does not fit the state that it is reached in. -/
theorem foldlM {f : σ → α → Option σ} {g : σ → α → σ} {fits : σ → α → Prop}
    (h : ∀ s a, Answers (f s a) (fits s a) (g s a)) (items : List α) (s : σ) :
    Answers (items.foldlM f s)
      (∀ before a after, items = before ++ a :: after → fits (before.foldl g s) a)
      (items.foldl g s) := by
  induction items generalizing s with
  | nil =>
    refine (always s).congr ⟨fun _ before a after hitems => ?_, fun _ => trivial⟩
    cases before <;> cases hitems
  | cons a items ih =>
    rw [List.foldlM_cons]
    refine ((h s a).bind fun _ => ih (g s a)).congr ⟨?_, ?_⟩
    · rintro ⟨hfirst, hrest⟩ before other after hitems
      cases before with
      | nil =>
        obtain ⟨rfl, -⟩ := List.cons_eq_cons.1 hitems
        exact hfirst
      | cons first before =>
        rw [List.cons_append] at hitems
        obtain ⟨rfl, hitems'⟩ := List.cons_eq_cons.1 hitems
        exact hrest before other after hitems'
    · intro hall
      exact ⟨hall [] a items rfl, fun before other after hitems =>
        hall (a :: before) other after (congrArg (a :: ·) hitems)⟩

end Answers

theorem mapM_of_forall {α β : Type} {f : α → Option β} {g : α → β} {items : List α}
    (h : ∀ a ∈ items, f a = some (g a)) : items.mapM f = some (items.map g) :=
  (Answers.mapM fun a ha => .of_eq (h a ha)).of_holds fun _ _ => trivial

end TileDeck
