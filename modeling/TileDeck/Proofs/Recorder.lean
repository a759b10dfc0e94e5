import Mathlib.Algebra.GroupWithZero.Nat
import TileDeck.Proofs.Page.Lines
import TileDeck.Recorder

set_option autoImplicit false

namespace TileDeck

namespace Call

def of? (ink : PaletteId) : Primitive → Option Call
  | .textPalette _ => none
  | .text x y text => some (.inked (.text x y text) ink)
  | .quote x y side => some (.inked (.quote x y side) ink)
  | p => some (.plain p)

def tellsProgress : Call → Bool
  | .plain (.progress ..) | .plain .hideProgress => true
  | _ => false

def frames : Call → Nat
  | .plain (.sleep n) => n.toNat
  | _ => 0

end Call

namespace Recorder

def clears (r : Recorder) : Nat := r.calls.toList.count (.plain .clear)

def slept (r : Recorder) : Nat := (r.calls.toList.map Call.frames).sum

theorem calls_perform (p : Primitive) (r : Recorder) :
    (Surface.perform p r).calls.toList = r.calls.toList ++ (Call.of? r.ink p).toList := by
  cases p with
  | textPalette => exact (List.append_nil _).symm
  | _ => exact Array.toList_push

theorem frames_perform (p : Primitive) (r : Recorder) :
    (Surface.perform p r).frames = r.frames + ((Call.of? r.ink p).toList.map Call.frames).sum := by
  cases p <;> rfl

theorem slept_perform (p : Primitive) (r : Recorder) :
    (Surface.perform p r).slept = r.slept + ((Call.of? r.ink p).toList.map Call.frames).sum := by
  rw [slept, calls_perform, List.map_append, List.sum_append]
  rfl

theorem clears_perform (p : Primitive) (r : Recorder) :
    (Surface.perform p r).clears = r.clears + (Call.of? r.ink p).toList.count (.plain .clear) := by
  rw [clears, calls_perform, List.count_append]
  rfl

theorem ink_perform {p : Primitive} (h : ∀ id, p ≠ .textPalette id) (r : Recorder) :
    (Surface.perform p r).ink = r.ink := by
  cases p with
  | textPalette id => exact absurd rfl (h id)
  | _ => rfl

theorem ink_performAll {ps : List Primitive} (h : ∀ p ∈ ps, ∀ id, p ≠ .textPalette id)
    (r : Recorder) : (Surface.performAll ps r).ink = r.ink :=
  Surface.performAll_keeps (A := fun p => ∀ id, p ≠ .textPalette id)
    (I := fun s : Recorder => s.ink = r.ink) (fun _ s hp hs => (ink_perform hp s).trans hs) h rfl

theorem calls_performAll {ps : List Primitive} (h : ∀ p ∈ ps, ∀ id, p ≠ .textPalette id)
    (r : Recorder) :
    (Surface.performAll ps r).calls.toList = r.calls.toList ++ ps.filterMap (Call.of? r.ink) := by
  induction ps generalizing r with
  | nil => exact (List.append_nil _).symm
  | cons p ps ih =>
    rw [List.forall_mem_cons] at h
    have hi := ih h.2 (Surface.perform p r)
    rw [ink_perform h.1, calls_perform] at hi
    change (Surface.performAll ps (Surface.perform p r)).calls.toList = _
    rw [hi, List.filterMap_cons, List.append_assoc]
    cases Call.of? r.ink p <;> rfl

theorem kept_clears (count : Nat) :
    Stage.Kept (· ≠ .clear) fun (_ : Remote) (r : Recorder) => r.clears = count := by
  refine .of_frames ?_ (fun _ _ h => h) (fun _ _ _ h => h)
  intro p _ r hp h
  rw [clears_perform, h]
  cases p with
  | clear => exact absurd rfl hp
  | _ => simp [Call.of?]

/-- What is drawn after some calls follows them, and does not clear them. -/
theorem kept_drawn (old : List Call) :
    Stage.Kept (· ≠ .clear) fun (_ : Remote) (r : Recorder) =>
      ∃ drawn, r.calls.toList = old ++ drawn ∧ .plain .clear ∉ drawn := by
  refine .of_frames ?_ (fun _ _ h => h) (fun _ _ _ h => h)
  rintro p _ r hp ⟨drawn, hcalls, hdrawn⟩
  refine ⟨drawn ++ (Call.of? r.ink p).toList, ?_, ?_⟩
  · rw [calls_perform, hcalls, List.append_assoc]
  · rw [List.mem_append, not_or]
    refine ⟨hdrawn, ?_⟩
    cases p with
    | clear => exact absurd rfl hp
    | _ => simp [Call.of?]

theorem kept_frames (total : Nat) :
    Stage.Kept (· ≠ .clear) fun (remote : Remote) (r : Recorder) =>
      remote.pad.remaining + r.frames = total + r.slept := by
  refine .of_frames ?_ (fun _ _ h => h) ?_
  · intro p remote r _ h
    rw [frames_perform, slept_perform]
    omega
  · intro remote r hf h
    have hr := Pad.remaining_next hf
    change remote.pad.next.remaining + (r.frames + 1) = total + r.slept
    omega

end Recorder

end TileDeck
