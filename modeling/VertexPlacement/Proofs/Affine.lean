import VertexPlacement.Proofs.Arrays

namespace VertexPlacement

open Weighted

section Blend

variable {d : Nat}

def blend (ws : List ℚ) (points : List (Vector ℚ d)) : Vector ℚ d :=
  Vector.ofFn fun k => combination ws (points.map (·.get k))

theorem get_blend (ws : List ℚ) (points : List (Vector ℚ d)) (k : Fin d) :
    (blend ws points).get k = combination ws (points.map (·.get k)) :=
  Vector.get_ofFn _ k

theorem average_eq_blend {samples : List (Sample ℚ d)}
    (h : |(samples.map Sample.weight).sum - 1| ≤ 1 / 10 ^ 10) :
    average samples =
      blend (anchored (samples.map Sample.weight)) (samples.map Sample.point) := by
  refine ext_get fun k => ?_
  rw [get_average_eq_combination h, get_blend, List.map_map]
  rfl

theorem Entity.mean_eq_blend (points : List (Vector ℚ d)) :
    mean points = blend (List.replicate points.length (points.length : ℚ)⁻¹) points := by
  refine ext_get fun k => ?_
  have hc := combination_replicate (points.length : ℚ)⁻¹ (points.map (·.get k))
  rw [List.length_map] at hc
  rw [get_mean, get_blend, hc, div_eq_inv_mul]

end Blend

structure Affine (d e : Nat) where
  matrix : Matrix (Fin e) (Fin d) ℚ
  offset : Fin e → ℚ

namespace Affine

variable {d e : Nat} (f : Affine d e)

def apply (p : Vector ℚ d) : Vector ℚ e := Vector.ofFn (f.matrix.mulVec p.get + f.offset)

theorem get_apply (p : Vector ℚ d) (i : Fin e) :
    (f.apply p).get i = ∑ k, f.matrix i k * p.get k + f.offset i :=
  Vector.get_ofFn _ i

def rows : Vector (Vector ℚ d) e := .ofFn fun i => .ofFn fun k => f.matrix i k

theorem get_rows (i : Fin e) (k : Fin d) : (f.rows.get i).get k = f.matrix i k := by
  rw [rows, Vector.get_ofFn, Vector.get_ofFn]

theorem combination_apply {ws : List ℚ} {points : List (Vector ℚ d)}
    (hl : ws.length = points.length) (i : Fin e) :
    combination ws ((points.map f.apply).map (·.get i)) =
      ∑ k, f.matrix i k * combination ws (points.map (·.get k)) + f.offset i * ws.sum := by
  induction ws generalizing points with
  | nil => simp [combination]
  | cons w ws ih =>
    cases points with
    | nil => simp at hl
    | cons p points =>
      have hrest := ih (show ws.length = points.length by simpa using hl)
      simp only [List.map_cons, combination_cons, List.sum_cons, hrest, get_apply, mul_add,
        Finset.sum_add_distrib, Finset.mul_sum, mul_left_comm w]
      ring

theorem apply_blend {ws : List ℚ} {points : List (Vector ℚ d)} (hl : ws.length = points.length)
    (hs : ws.sum = 1) : f.apply (blend ws points) = blend ws (points.map f.apply) := by
  refine ext_get fun i => ?_
  rw [get_apply, get_blend, combination_apply f hl, hs, mul_one]
  simp only [get_blend]

theorem apply_average {samples : List (Sample ℚ d)} (hne : samples ≠ [])
    (hs : |(samples.map Sample.weight).sum - 1| ≤ 1 / 10 ^ 10) :
    f.apply (average samples) = average (samples.map (Sample.map f.apply)) := by
  rw [average_eq_blend hs, average_eq_blend (by rwa [map_weight_map]), map_weight_map,
    map_point_map]
  exact f.apply_blend (by simp [length_anchored]) (sum_anchored (by simpa using hne))

theorem apply_mean {points : List (Vector ℚ d)} (hne : points ≠ []) :
    f.apply (Entity.mean points) = Entity.mean (points.map f.apply) := by
  have hn : (points.length : ℚ) ≠ 0 := by
    exact_mod_cast mt List.length_eq_zero_iff.mp hne
  rw [Entity.mean_eq_blend, Entity.mean_eq_blend, List.length_map]
  exact f.apply_blend (by simp) (by simp [hn])

end Affine

end VertexPlacement
