set_option autoImplicit false

namespace TileDeck

/-- Where a computation that can stop gives an answer, it gives this one. -/
def Agrees {α : Type} (answer? : Option α) (answer : α) : Prop :=
  ∀ given, answer? = some given → given = answer

namespace Agrees

variable {α β σ : Type} {a : α} {b : β} {answer? : Option α}

theorem always (a : α) : Agrees (some a) a := fun _ h => (Option.some.inj h).symm

theorem never (a : α) : Agrees none a := fun _ h => nomatch h

theorem ite (holds : Prop) [Decidable holds] (a : α) : Agrees (if holds then some a else none) a := by
  split
  · exact always a
  · exact never a

theorem bind {f : α → Option β} (h : Agrees answer? a) (hf : Agrees (f a) b) :
    Agrees (answer?.bind f) b := by
  intro given hg
  cases answer? with
  | none => cases hg
  | some first =>
    obtain rfl := h first rfl
    exact hf given hg

theorem map (h : Agrees answer? a) (f : α → β) : Agrees (answer?.map f) (f a) := by
  rw [Option.map_eq_bind]
  exact h.bind (always (f a))

theorem mapM {f : α → Option β} {g : α → β} (h : ∀ a, Agrees (f a) (g a)) (items : List α) :
    Agrees (items.mapM f) (items.map g) := by
  induction items with
  | nil => exact always []
  | cons a items ih =>
    rw [List.mapM_cons]
    exact (h a).bind (ih.bind (always (g a :: items.map g)))

theorem foldlM {f : σ → α → Option σ} {g : σ → α → σ} (h : ∀ s a, Agrees (f s a) (g s a))
    (items : List α) (s : σ) : Agrees (items.foldlM f s) (items.foldl g s) := by
  induction items generalizing s with
  | nil => exact always s
  | cons a items ih =>
    rw [List.foldlM_cons]
    exact (h s a).bind (ih (g s a))

end Agrees

end TileDeck
