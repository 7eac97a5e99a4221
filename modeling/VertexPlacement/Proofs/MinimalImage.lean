import VertexPlacement.Proofs.Segment

namespace VertexPlacement

namespace Periodic

variable {L t d : ℚ}

def wrapDown (L t : ℚ) : ℚ := if Scalar.half L < t then t - L else t

/-- The second comparison of `shortest`, which reads what the first one has made. -/
def wrapUp (L t : ℚ) : ℚ := if t < -Scalar.half L then t + L else t

theorem shortest_eq_wrapUp (L t : ℚ) : shortest L t = wrapUp L (wrapDown L t) := rfl

theorem wrapUp_wrapDown_of_gt (h : L / 2 < t) : wrapUp L (wrapDown L t) = wrapDown L t := by
  have hdown : wrapDown L t = t - L := if_pos h
  rw [← shortest_eq_wrapUp, shortest_of_gt h, hdown]

/-- No number of whole periods brings a difference of at most half a period closer to zero. -/
theorem abs_le_abs_add_period (hL : 0 < L) (h : |d| ≤ L / 2) (z : ℤ) : |d| ≤ |d + z * L| := by
  rcases eq_or_ne z 0 with rfl | hz
  · simp
  · have hone : (1 : ℚ) ≤ |(z : ℚ)| := by exact_mod_cast Int.one_le_abs hz
    have hshift : L ≤ |(z : ℚ) * L| := by
      rw [abs_mul, abs_of_pos hL]
      exact le_mul_of_one_le_left hL.le hone
    have htriangle : |(z : ℚ) * L| ≤ |d + z * L| + |d| := by
      simpa using abs_sub (d + z * L) d
    linarith

theorem shortest_minimal (hL : 0 < L) (h : |t| ≤ L) :
    (∃ z : ℤ, shortest L t = t + z * L) ∧ |shortest L t| ≤ L / 2 ∧
      ∀ z : ℤ, |shortest L t| ≤ |t + z * L| := by
  obtain ⟨y, hy⟩ := exists_shortest_eq hL t
  rw [zsmul_eq_mul] at hy
  have hhalf := abs_shortest_le hL h
  refine ⟨⟨-y, ?_⟩, hhalf, fun z => ?_⟩
  · push_cast
    linarith
  · have hway : t + z * L = shortest L t + ((y + z : ℤ) : ℚ) * L := by
      push_cast
      linarith
    rw [hway]
    exact abs_le_abs_add_period hL hhalf _

end Periodic

namespace FlatSpace

open Periodic

variable {m : FlatSpace ℚ} {p q : Vector ℚ m.frame.spacedim} {k : Fin m.frame.spacedim}

theorem tangent_swap (p q : Vector ℚ m.frame.spacedim) :
    m.tangent q p = (m.tangent p q).map (-·) := by
  refine m.ext_axes (fun k hL => ?_) fun k hL => ?_
  · rw [get_tangent_of_periodic hL, ← neg_sub, shortest_neg hL, ← get_tangent_of_periodic hL]
    simp
  · rw [get_tangent_of_not_periodic hL, ← neg_sub, ← get_tangent_of_not_periodic hL]
    simp

/-- The tangents of two ways are opposite. Along a periodic axis a tangent is the least difference
modulo the period between two coordinates of the box. Where the first comparison has moved it, the
second one leaves it. -/
theorem tangent_minimalImage (m : FlatSpace ℚ) {x1 x2 : Tensor ℚ}
    {p q : Vector ℚ m.frame.spacedim} (h1 : m.frame.point x1 = .ok p)
    (h2 : m.frame.point x2 = .ok q) :
    ∃ t : Vector ℚ m.frame.spacedim, m.manifold.tangent x1 x2 = .ok (.ofVector t) ∧
      m.manifold.tangent x2 x1 = .ok (.ofVector (t.map (-·))) ∧
      ∀ k : Fin m.frame.spacedim,
        (m.periods.get k = 0 → t.get k = q.get k - p.get k) ∧
        (0 < m.periods.get k →
          t.get k = wrapUp (m.periods.get k) (wrapDown (m.periods.get k) (q.get k - p.get k)) ∧
          (wrapDown (m.periods.get k) (q.get k - p.get k) ≠ q.get k - p.get k →
            t.get k = wrapDown (m.periods.get k) (q.get k - p.get k))) ∧
        (0 < m.periods.get k → p.get k ∈ Set.Ico 0 (m.periods.get k) →
          q.get k ∈ Set.Ico 0 (m.periods.get k) →
          (∃ z : ℤ, t.get k = q.get k - p.get k + z * m.periods.get k) ∧
          |t.get k| ≤ m.periods.get k / 2 ∧
          ∀ z : ℤ, |t.get k| ≤ |q.get k - p.get k + z * m.periods.get k|) := by
  refine ⟨m.tangent p q, tangent_of_point h1 h2, ?_, fun k => ⟨fun hk => ?_, fun hL => ?_, ?_⟩⟩
  · rw [tangent_of_point h2 h1, tangent_swap]
  · exact get_tangent_of_not_periodic (by rw [hk]; exact lt_irrefl _)
  · rw [get_tangent_of_periodic hL, shortest_eq_wrapUp]
    refine ⟨rfl, fun hmoved => wrapUp_wrapDown_of_gt ?_⟩
    by_contra hle
    exact hmoved (if_neg hle)
  · rintro hL ⟨hp0, hp1⟩ ⟨hq0, hq1⟩
    rw [get_tangent_of_periodic hL]
    exact shortest_minimal hL (abs_le.mpr ⟨by linarith, by linarith⟩)

theorem tangent_minimalImage_strip :
    ∃ t : Vector ℚ 2,
      strip.manifold.tangent (.ofVector #v[9 / 10, 1]) (.ofVector #v[1 / 10, 3]) =
        .ok (.ofVector t) ∧
      strip.manifold.tangent (.ofVector #v[1 / 10, 3]) (.ofVector #v[9 / 10, 1]) =
        .ok (.ofVector (t.map (-·))) ∧
      t.get 0 = 1 / 5 ∧ t.get 1 = 2 ∧ ∀ z : ℤ, |t.get 0| ≤ |1 / 10 - 9 / 10 + (z : ℚ) * 1| := by
  obtain ⟨t, ht, hback, haxes⟩ := tangent_minimalImage strip
    (point_ofVector #v[9 / 10, 1]) (point_ofVector #v[1 / 10, 3])
  obtain ⟨-, hsteps, hleast⟩ := haxes (0 : Fin 2)
  have hway : wrapUp 1 (wrapDown 1 (1 / 10 - 9 / 10)) = (1 : ℚ) / 5 := by
    norm_num [wrapUp, wrapDown, Scalar.half_eq]
  have hstraight : (3 : ℚ) - 1 = 2 := by norm_num
  have hp : (9 / 10 : ℚ) ∈ Set.Ico 0 1 := by norm_num
  have hq : (1 / 10 : ℚ) ∈ Set.Ico 0 1 := by norm_num
  exact ⟨t, ht, hback, (hsteps one_pos).1.trans hway,
    ((haxes (1 : Fin 2)).1 rfl).trans hstraight, (hleast one_pos hp hq).2.2⟩

end FlatSpace

end VertexPlacement
