import Mathlib
import VertexPlacement.Quadrature
import VertexPlacement.Scalar.Rational

namespace VertexPlacement

namespace Scalar

theorem half_eq (x : ℚ) : half x = x / 2 := rfl

theorem ratio_eq (m n : Nat) : (ratio m n : ℚ) = m / n := rfl

theorem magnitude_eq (x : ℚ) : magnitude x = |x| := by
  change (if x < 0 then -x else x) = |x|
  split
  · next h => rw [abs_of_neg h]
  · next h => rw [abs_of_nonneg (not_lt.mp h)]

theorem isFinite_eq (x : ℚ) : isFinite x = true := by
  change decide (x - x ≤ 0) = true
  simp

theorem least_eq (x y : ℚ) : least x y = min x y := by
  change (if x ≤ y then x else if y < x then y else x + y) = min x y
  split
  · next h => rw [min_eq_left h]
  · next h => rw [if_pos (not_le.mp h), min_eq_right (le_of_not_ge h)]

theorem foldl_add_eq (a : ℚ) (xs : List ℚ) : xs.foldl (· + ·) a = a + xs.sum := by
  induction xs generalizing a with
  | nil => simp
  | cons x rest ih => simp [ih, add_assoc]

theorem laneSum_eq (a b c d e f g h : ℚ) (xs : List ℚ) :
    laneSum a b c d e f g h xs = a + b + c + d + e + f + g + h + xs.sum := by
  fun_induction laneSum a b c d e f g h xs with
  | case1 a b c d e f g h p q r s t u v w rest ih =>
    rw [ih]
    simp only [List.sum_cons]
    change (a + p) + (b + q) + (c + r) + (d + s) + (e + t) + (f + u) + (g + v) + (h + w) +
      rest.sum = _
    ring
  | case2 a b c d e f g h xs _ =>
    refine (foldl_add_eq _ xs).trans ?_
    change ((a + b) + (c + d)) + ((e + f) + (g + h)) + xs.sum = _
    ring

theorem blockSum_eq (xs : List ℚ) : blockSum xs = xs.sum := by
  unfold blockSum
  split
  · simp only [laneSum_eq, List.sum_cons]
    ring
  · exact (foldl_add_eq 0 xs).trans (zero_add _)

/-- Lanes and halves only matter to rounding. -/
theorem sum_eq (xs : List ℚ) : sum xs = xs.sum := by
  fun_induction sum xs with
  | case1 xs h => exact blockSum_eq xs
  | case2 xs h n ih1 ih2 =>
    rw [ih1, ih2]
    rw [← List.sum_append, List.take_append_drop]

end Scalar

namespace Quadrature

theorem weightSumTolerance_eq : (weightSumTolerance : ℚ) = 1 / 10 ^ 10 := by
  rw [weightSumTolerance, Scalar.ratio_eq]
  norm_num

theorem weightError_eq (ws : List ℚ) : weightError ws = |ws.sum - 1| := by
  rw [weightError, Scalar.magnitude_eq, Scalar.sum_eq]

theorem checkSigns_eq_ok_iff (ws : List ℚ) : checkSigns ws = .ok () ↔ ∀ w ∈ ws, 0 ≤ w := by
  have hfin : ¬ (ws.any fun w => !Scalar.isFinite w) = true := by simp [Scalar.isFinite_eq]
  rw [checkSigns, if_neg hfin]
  split
  · next h =>
    obtain ⟨w, hw, hlt⟩ := List.any_eq_true.mp h
    refine ⟨nofun, fun hall => ?_⟩
    exact absurd (of_decide_eq_true hlt) (not_lt.mpr (hall w hw))
  · next h =>
    refine ⟨fun _ w hw => not_lt.mp fun hlt => h ?_, fun _ => rfl⟩
    exact List.any_eq_true.mpr ⟨w, hw, decide_eq_true hlt⟩

theorem checkWeights_eq_ok_iff (ws : List ℚ) (tolerance : ℚ) :
    checkWeights ws tolerance = .ok () ↔ (∀ w ∈ ws, 0 ≤ w) ∧ |ws.sum - 1| < tolerance := by
  rw [← checkSigns_eq_ok_iff, ← weightError_eq]
  cases h : checkSigns ws with
  | error e => simp [checkWeights, h, bind, Except.bind]
  | ok _ =>
    by_cases hlt : weightError ws < tolerance
    · simp [checkWeights, h, hlt, bind, Except.bind, pure, Except.pure]
    · simp [checkWeights, h, hlt, bind, Except.bind]

theorem validate_eq_ok_iff (q : Quadrature ℚ) : q.validate weightSumTolerance = .ok () ↔
    (∀ w ∈ q.weights, 0 ≤ w) ∧ |q.weights.sum - 1| < 1 / 10 ^ 10 := by
  rw [← weightSumTolerance_eq]
  exact checkWeights_eq_ok_iff _ _

end Quadrature

end VertexPlacement
