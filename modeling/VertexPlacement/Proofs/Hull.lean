import VertexPlacement.Proofs.Listing

namespace VertexPlacement

open Weighted

namespace Weighted

variable {a b : ℚ}

/-- The weight of the first sample makes up for weights that miss one, and for such that exceed it
by no more than this weight. -/
theorem anchored_nonneg {w : ℚ} {ws : List ℚ} (hw : ∀ v ∈ w :: ws, 0 ≤ v)
    (h : (w :: ws).sum ≤ 1 ∨ (w :: ws).sum - 1 ≤ w) : ∀ v ∈ anchored (w :: ws), 0 ≤ v := by
  obtain ⟨hw0, hrest⟩ := List.forall_mem_cons.mp hw
  refine List.forall_mem_cons.mpr ⟨?_, hrest⟩
  rcases h with h | h <;> linarith

theorem combination_anchored_mem_Icc_of_nonneg {ws xs : List ℚ} (hne : ws ≠ [])
    (hl : ws.length = xs.length) (hw : ∀ w ∈ anchored ws, 0 ≤ w) (hx : ∀ x ∈ xs, x ∈ Set.Icc a b) :
    combination (anchored ws) xs ∈ Set.Icc a b := by
  have h := combination_mem_Icc ((length_anchored ws).trans hl) hw hx
  rwa [sum_anchored hne, mul_one, mul_one] at h

end Weighted

namespace Quadrature

/-- Along every axis the average of a validated quadrature leaves the range of the samples by at
most the error of the weights times the length of the range, wherever the samples lie. It stays
within the range if the weights do not exceed one by more than the first of them. -/
theorem average_hull (q : Quadrature ℚ) (hv : q.validate weightSumTolerance = .ok ()) :
    averageItems q.points (.ofList q.weights) = .ok (.ofVector (average q.samples)) ∧
    ∀ (k : Fin q.spacedim) (lo hi : ℚ), IsLeast {x | x ∈ coordinates q.samples k} lo →
      IsGreatest {x | x ∈ coordinates q.samples k} hi →
      (average q.samples).get k ∈ Set.Icc (lo - |q.weights.sum - 1| * (hi - lo))
        (hi + |q.weights.sum - 1| * (hi - lo)) ∧
      (q.weights.sum ≤ 1 ∨ q.weights.sum - 1 ≤ (q.samples.head q.nonempty).weight →
        (average q.samples).get k ∈ Set.Icc lo hi) ∧
      (average q.samples).get k - combination q.weights (coordinates q.samples k) =
        (1 - q.weights.sum) * (q.samples.head q.nonempty).point.get k ∧
      (average q.samples).get k ∈ Set.Icc (lo - 1 / 10 ^ 10 * (hi - lo))
        (hi + 1 / 10 ^ 10 * (hi - lo)) := by
  refine ⟨averageItems_points q, fun k lo hi hlo hhi => ?_⟩
  obtain ⟨hw, hs⟩ := q.validate_eq_ok_iff.mp hv
  obtain ⟨d, samples, hne⟩ := q
  cases samples with
  | nil => exact absurd rfl hne
  | cons s rest =>
    have hx : ∀ x ∈ coordinates (s :: rest) k, x ∈ Set.Icc lo hi := fun x hx => ⟨hlo.2 hx, hhi.2 hx⟩
    have hlen : ((s :: rest).map Sample.weight).length = (coordinates (s :: rest) k).length := by
      simp [coordinates]
    have hrange : 0 ≤ hi - lo := sub_nonneg.mpr (hlo.2 hhi.1)
    have hnear := combination_anchored_mem_Icc (coordinates_ne_nil hne k) hlen hw hx
    rw [← get_average_eq_combination hs.le] at hnear
    refine ⟨hnear, fun hone => ?_, ?_, ?_⟩
    · rw [get_average_eq_combination hs.le]
      exact combination_anchored_mem_Icc_of_nonneg (List.cons_ne_nil _ _) hlen
        (anchored_nonneg hw hone) hx
    · have hsum : combination ((s :: rest).map Sample.weight) (coordinates (s :: rest) k) =
          ((s :: rest).map fun s => s.weight * s.point.get k).sum := combination_map _ _ _
      rw [get_average_of_balanced hs.le, ← hsum]
      exact add_sub_cancel_left _ _
    · have hmul : |((s :: rest).map Sample.weight).sum - 1| * (hi - lo) ≤
          1 / 10 ^ 10 * (hi - lo) := mul_le_mul_of_nonneg_right hs.le hrange
      exact ⟨by linarith [hnear.1], by linarith [hnear.2]⟩

def overweight : Quadrature ℚ where
  spacedim := 1
  samples := [⟨#v[10 ^ 20], 0⟩, ⟨#v[10 ^ 20 + 1], 1 + 1 / (2 * 10 ^ 10)⟩]
  nonempty := List.cons_ne_nil _ _

/-- The bound is attained, also far from the origin. -/
theorem average_hull_overweight :
    overweight.validate weightSumTolerance = .ok () ∧
    (average overweight.samples).get (0 : Fin 1) ≤ 10 ^ 20 + 1 + 1 / (2 * 10 ^ 10) ∧
    (average overweight.samples).get (0 : Fin 1) = 10 ^ 20 + 1 + 1 / (2 * 10 ^ 10) := by
  have hws : overweight.weights = [0, 1 + 1 / (2 * 10 ^ 10)] := rfl
  have hxs : coordinates overweight.samples (0 : Fin 1) = [10 ^ 20, 10 ^ 20 + 1] := rfl
  have hv : overweight.validate weightSumTolerance = .ok () := by
    rw [validate_eq_ok_iff, hws]
    norm_num [abs_of_pos]
  have hlo : IsLeast {x | x ∈ coordinates overweight.samples (0 : Fin 1)} (10 ^ 20) := by
    simp [hxs, IsLeast, lowerBounds]
  have hhi : IsGreatest {x | x ∈ coordinates overweight.samples (0 : Fin 1)} (10 ^ 20 + 1) := by
    simp [hxs, IsGreatest, upperBounds]
  obtain ⟨⟨-, hle⟩, -, hdiff, -⟩ := (average_hull overweight hv).2 (0 : Fin 1) _ _ hlo hhi
  have hsum : overweight.weights.sum = 1 + 1 / (2 * 10 ^ 10) := by
    rw [hws]
    norm_num
  have hplain : combination overweight.weights (coordinates overweight.samples (0 : Fin 1)) =
      (1 + 1 / (2 * 10 ^ 10)) * (10 ^ 20 + 1) := by
    rw [hws, hxs]
    norm_num [combination]
  have hfirst : (overweight.samples.head overweight.nonempty).point.get (0 : Fin 1) = 10 ^ 20 := rfl
  rw [hsum] at hle
  rw [hplain, hsum, hfirst] at hdiff
  refine ⟨hv, hle.trans (le_of_eq ?_), ?_⟩
  · norm_num [abs_of_pos]
  · linarith

end Quadrature

end VertexPlacement
