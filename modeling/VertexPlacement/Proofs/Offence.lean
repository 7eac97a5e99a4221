import Mathlib.Data.List.FinRange
import Mathlib.Data.List.Forall2
import VertexPlacement.Flat

namespace VertexPlacement

section Search

variable {β γ δ : Type}

/-- In an ordered list a search finds the least item that answers. -/
theorem findSome?_eq_some_iff_of_pairwise {r : β → β → Prop} (hr : ∀ a b, r a b → ¬ r b a)
    {items : List β} (hitems : items.Pairwise r) {f : β → Option γ} {c : γ} :
    items.findSome? f = some c ↔
      ∃ a ∈ items, f a = some c ∧ ∀ b ∈ items, r b a → f b = none := by
  constructor
  · intro h
    obtain ⟨before, a, after, rfl, ha, hnone⟩ := List.findSome?_eq_some_iff.mp h
    obtain ⟨-, hafter, -⟩ := List.pairwise_append.mp hitems
    refine ⟨a, by simp, ha, fun b hb hba => ?_⟩
    rcases List.mem_append.mp hb with hb | hb
    · exact hnone b hb
    · rcases List.mem_cons.mp hb with rfl | hb
      · exact absurd hba (hr b b hba)
      · exact absurd hba (hr a b (List.rel_of_pairwise_cons hafter hb))
  · rintro ⟨a, ha, hc, hnone⟩
    obtain ⟨before, after, rfl⟩ := List.append_of_mem ha
    obtain ⟨-, -, hbefore⟩ := List.pairwise_append.mp hitems
    refine List.findSome?_eq_some_iff.mpr ⟨before, a, after, rfl, hc, fun b hb => ?_⟩
    exact hnone b (by simp [hb]) (hbefore b hb a (by simp))

theorem findSome?_finRange_eq_some_iff {n : Nat} {f : Fin n → Option γ} {c : γ} :
    (List.finRange n).findSome? f = some c ↔ ∃ k, f k = some c ∧ ∀ l < k, f l = none := by
  rw [findSome?_eq_some_iff_of_pairwise (fun _ _ => lt_asymm) (List.pairwise_lt_finRange n)]
  simp

theorem pairwise_zipIdx (items : List β) : items.zipIdx.Pairwise fun a b => a.2 < b.2 := by
  rw [← List.pairwise_map, List.zipIdx_map_snd]
  exact List.pairwise_lt_range'

theorem findSome?_zipIdx_eq_some_iff {items : List β} {f : β × Nat → Option γ} {c : γ} :
    items.zipIdx.findSome? f = some c ↔ ∃ i x, items[i]? = some x ∧ f (x, i) = some c ∧
      ∀ j < i, ∀ y, items[j]? = some y → f (y, j) = none := by
  rw [findSome?_eq_some_iff_of_pairwise (fun _ _ => lt_asymm) (pairwise_zipIdx items)]
  simp only [Prod.exists, Prod.forall, List.mk_mem_zipIdx_iff_getElem?]
  constructor
  · rintro ⟨x, i, hx, hc, hnone⟩
    exact ⟨i, x, hx, hc, fun j hj y hy => hnone y j hy hj⟩
  · rintro ⟨i, x, hx, hc, hnone⟩
    exact ⟨x, i, hx, hc, fun y j hy hj => hnone j hj y hy⟩

end Search

namespace FlatSpace

variable {α : Type} [Scalar α] (m : FlatSpace α)

/-- Along a periodic axis a point lies below the box by more than the tolerance, or not below the
upper end of the box. -/
def Offends (p : Vector α m.frame.spacedim) (k : Fin m.frame.spacedim) : Prop :=
  0 < m.periods.get k ∧ (p.get k < -Periodic.boxTolerance ∨ m.periods.get k ≤ p.get k)

instance (p : Vector α m.frame.spacedim) (k : Fin m.frame.spacedim) : Decidable (m.Offends p k) :=
  inferInstanceAs (Decidable (_ ∧ (_ ∨ _)))

/-- The first sample that is out of the box, and the first axis along which it is. -/
structure FirstOffence (samples : List (Sample α m.frame.spacedim)) (i : Nat)
    (s : Sample α m.frame.spacedim) (k : Fin m.frame.spacedim) : Prop where
  sample : samples[i]? = some s
  offends : m.Offends s.point k
  earlier_samples : ∀ j < i, ∀ t, samples[j]? = some t → ∀ l, ¬ m.Offends t.point l
  earlier_axes : ∀ l < k, ¬ m.Offends s.point l

def sampleFault? (i : Nat) (p : Vector α m.frame.spacedim) : Option (Fault α) :=
  (List.finRange m.frame.spacedim).findSome? fun k =>
    if m.Offends p k then some (.outsideBox i (p.get k) (m.periods.get k)) else none

variable {m} {samples : List (Sample α m.frame.spacedim)} {e : Fault α}

theorem boxFault?_eq_findSome? (samples : List (Sample α m.frame.spacedim)) :
    m.boxFault? samples = samples.zipIdx.findSome? fun (s, i) => m.sampleFault? i s.point := by
  have hiff (p : Vector α m.frame.spacedim) (k : Fin m.frame.spacedim) :
      (m.wraps k && Periodic.outside (m.periods.get k) (p.get k)) = true ↔ m.Offends p k := by
    simp [Offends, wraps, Periodic.outside]
  simp only [boxFault?, sampleFault?, hiff]

theorem sampleFault?_eq_none_iff {i : Nat} {p : Vector α m.frame.spacedim} :
    m.sampleFault? i p = none ↔ ∀ k, ¬ m.Offends p k := by
  simp [sampleFault?]

theorem sampleFault?_eq_some_iff {i : Nat} {p : Vector α m.frame.spacedim} :
    m.sampleFault? i p = some e ↔ ∃ k, m.Offends p k ∧ (∀ l < k, ¬ m.Offends p l) ∧
      e = .outsideBox i (p.get k) (m.periods.get k) := by
  rw [sampleFault?, findSome?_finRange_eq_some_iff]
  refine exists_congr fun k => ?_
  by_cases hk : m.Offends p k
  · simp only [hk, if_true, true_and, Option.some.injEq, eq_comm (a := e)]
    simp [and_comm]
  · simp [hk]

theorem boxFault?_eq_none_iff_offends :
    m.boxFault? samples = none ↔ ∀ s ∈ samples, ∀ k, ¬ m.Offends s.point k := by
  rw [boxFault?_eq_findSome?, List.findSome?_eq_none_iff]
  simp only [Prod.forall, sampleFault?_eq_none_iff]
  constructor
  · intro h s hs
    obtain ⟨i, hi⟩ := List.getElem?_of_mem hs
    exact h s i (List.mk_mem_zipIdx_iff_getElem?.mpr hi)
  · intro h s i hs
    exact h s (List.fst_mem_of_mem_zipIdx hs)

theorem boxFault?_eq_some_iff : m.boxFault? samples = some e ↔
    ∃ i s k, m.FirstOffence samples i s k ∧
      e = .outsideBox i (s.point.get k) (m.periods.get k) := by
  rw [boxFault?_eq_findSome?, findSome?_zipIdx_eq_some_iff]
  simp only [sampleFault?_eq_none_iff, sampleFault?_eq_some_iff]
  constructor
  · rintro ⟨i, s, hs, ⟨k, hk, hfirst, he⟩, hearlier⟩
    exact ⟨i, s, k, ⟨hs, hk, hearlier, hfirst⟩, he⟩
  · rintro ⟨i, s, k, h, he⟩
    exact ⟨i, s, h.sample, ⟨k, h.offends, h.earlier_axes, he⟩, h.earlier_samples⟩

end FlatSpace

end VertexPlacement
