import Mathlib.Data.List.Basic

set_option autoImplicit false

namespace TileDeck

theorem lookup_eq_some_iff_mem {α β : Type} [BEq α] [LawfulBEq α] {entries : List (α × β)}
    (h : (entries.map Prod.fst).Nodup) {key : α} {value : β} :
    entries.lookup key = some value ↔ (key, value) ∈ entries := by
  induction entries with
  | nil => simp
  | cons entry entries ih =>
    obtain ⟨first, held⟩ := entry
    rw [List.map_cons, List.nodup_cons] at h
    rw [List.lookup_cons, List.mem_cons]
    split
    · rename_i hkey
      obtain rfl := eq_of_beq hkey
      have hnot : (key, value) ∉ entries := fun hm => h.1 (List.mem_map.2 ⟨_, hm, rfl⟩)
      simp [hnot, eq_comm]
    · rename_i hkey
      rw [ih h.2, or_iff_right]
      rintro ⟨rfl, rfl⟩
      simp at hkey

def faultOf? {ε α : Type} : Except ε α → Option ε
  | .error fault => some fault
  | .ok _ => none

theorem faultOf?_eq_some {ε α : Type} {x : Except ε α} {fault : ε} :
    faultOf? x = some fault ↔ x = .error fault := by
  cases x <;> simp [faultOf?]

theorem faultOf?_eq_none {ε α : Type} {x : Except ε α} : faultOf? x = none ↔ ∃ a, x = .ok a := by
  cases x <;> simp [faultOf?]

theorem faultOf?_mapM {ε α β : Type} (f : α → Except ε β) (items : List α) :
    faultOf? (items.mapM f) = items.findSome? fun a => faultOf? (f a) := by
  induction items with
  | nil => rfl
  | cons item items ih =>
    rw [List.mapM_cons, List.findSome?_cons, ← ih]
    cases f item with
    | error fault => rfl
    | ok b => cases items.mapM f <;> rfl

theorem mapM_eq_error {ε α β : Type} {f : α → Except ε β} {items : List α} {fault : ε} :
    items.mapM f = .error fault ↔ ∃ before a after, items = before ++ a :: after ∧
      f a = .error fault ∧ ∀ b ∈ before, ∃ c, f b = .ok c := by
  rw [← faultOf?_eq_some, faultOf?_mapM, List.findSome?_eq_some_iff]
  simp only [faultOf?_eq_some, faultOf?_eq_none]

end TileDeck
