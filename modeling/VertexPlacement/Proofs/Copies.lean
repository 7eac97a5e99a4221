import VertexPlacement.Proofs.Arrays
import VertexPlacement.Proofs.Chart
import VertexPlacement.Proofs.Masked
import VertexPlacement.Proofs.Rounded

namespace VertexPlacement

variable {K : Type} [Field K] [LinearOrder K] {R : Rounding K}

namespace Weighted

variable {x : Rounded R} {column : List (Weighted (Rounded R))}

theorem total_of_zero (h : ∀ s ∈ column, s.value = 0) : total column = 0 := by
  induction column with
  | nil => rfl
  | cons s rest ih =>
    obtain ⟨hs, hrest⟩ := List.forall_mem_cons.mp h
    have hstep : 0 + s.weight * s.value = 0 := by
      rw [hs, Rounded.mul_zero, Rounded.add_zero Rounded.representable_zero]
    rw [total, List.foldl_cons, hstep]
    exact ih hrest

theorem average_of_same (hx : x.Representable) (hne : column ≠ [])
    (h : ∀ s ∈ column, s.value = x) (hb : ¬ unbalanced (column.map weight) = true) :
    average column = x := by
  cases column with
  | nil => exact absurd rfl hne
  | cons s rest =>
    have hs : s.value = x := h s List.mem_cons_self
    have hzero : ∀ t ∈ relativeTo s.value (s :: rest), t.value = 0 := by
      intro t ht
      obtain ⟨u, hu, rfl⟩ := List.mem_map.mp ht
      rw [h u hu, hs, Rounded.sub_self]
    rw [average_of_balanced hb, total_of_zero hzero, hs, Rounded.add_zero hx]

end Weighted

namespace Periodic

variable {L x : Rounded R} {column : List (Weighted (Rounded R))}

theorem foldl_least_of_same {xs : List (Rounded R)} (h : ∀ y ∈ xs, y = x) :
    xs.foldl Scalar.least x = x := by
  induction xs with
  | nil => rfl
  | cons y rest ih =>
    obtain ⟨rfl, hrest⟩ := List.forall_mem_cons.mp h
    rw [List.foldl_cons, Scalar.least, if_pos (Rounded.le_refl y)]
    exact ih hrest

theorem lowestOf_of_same (hne : column ≠ []) (h : ∀ s ∈ column, s.value = x) :
    lowestOf column = x := by
  cases column with
  | nil => exact absurd rfl hne
  | cons s rest =>
    obtain ⟨rfl, hrest⟩ := List.forall_mem_cons.mp h
    exact foldl_least_of_same (List.forall_mem_map.mpr hrest)

theorem fold_of_mem (h0 : 0 ≤ x) (h1 : x < L) : fold L x = x := by
  have hn : ¬ x < 0 := Rounded.not_lt.mpr h0
  have hL : ¬ L ≤ x := Rounded.not_le.mpr h1
  simp only [fold, if_neg hn, if_neg hL]

variable [IsStrictOrderedRing K]

theorem unwrap_of_same (hL : 0 < L) (hne : column ≠ []) (h : ∀ s ∈ column, s.value = x) :
    unwrap L column = column := by
  have hw : ¬ wraps L x x = true := by
    rw [wraps, Rounded.sub_self, decide_eq_true_iff]
    exact Rounded.not_lt.mpr (Rounded.half_nonneg (Rounded.le_of_lt hL))
  refine (List.map_congr_left fun s hs => ?_).trans (List.map_id column)
  rw [lowestOf_of_same hne h, h s hs, if_neg hw]
  rfl

theorem average_of_same (hL : 0 < L) (hx : x.Representable) (h0 : 0 ≤ x) (h1 : x < L)
    (hne : column ≠ []) (h : ∀ s ∈ column, s.value = x)
    (hb : ¬ Weighted.unbalanced (column.map Weighted.weight) = true) : average L column = x := by
  rw [average, unwrap_of_same hL hne h, Weighted.average_of_same hx hne h hb, fold_of_mem h0 h1]

end Periodic

/-- Samples at one point, with weights that validation accepts. -/
structure Copies {α : Type} [Scalar α] {d : Nat} (p : Vector α d) (samples : List (Sample α d)) :
    Prop where
  ne_nil : samples ≠ []
  same : ∀ s ∈ samples, s.point = p
  validated : Quadrature.validate ⟨d, samples, ne_nil⟩ Quadrature.weightSumTolerance = .ok ()

namespace Copies

section

variable {α : Type} [Scalar α] {d : Nat} {p : Vector α d} {samples : List (Sample α d)}
  (h : Copies p samples)

abbrev quadrature : Quadrature α := ⟨d, samples, h.ne_nil⟩

include h

theorem image {e : Nat} (u : Vector α e) : Copies u (samples.map (Sample.map fun _ => u)) where
  ne_nil := mt List.map_eq_nil_iff.mp h.ne_nil
  same := List.forall_mem_map.mpr fun _ _ => rfl
  validated := by
    rw [Quadrature.validate, Quadrature.weights, map_weight_map]
    exact h.validated

theorem column_same (k : Fin d) : ∀ s ∈ column samples k, s.value = p.get k := by
  intro s hs
  obtain ⟨t, ht, rfl⟩ := List.mem_map.mp hs
  rw [h.same t ht]

end

variable {d : Nat} {p : Vector (Rounded R) d} {samples : List (Sample (Rounded R) d)}

theorem column_balanced (h : Copies p samples) (k : Fin d) :
    ¬ Weighted.unbalanced ((column samples k).map Weighted.weight) = true := by
  rw [map_weight_column]
  exact Rounded.balanced_of_partition h.validated

theorem average_eq (h : Copies p samples) (hp : ∀ k, (p.get k).Representable) :
    average samples = p := by
  refine ext_get fun k => ?_
  rw [average, Vector.get_ofFn]
  exact Weighted.average_of_same (hp k) (column_ne_nil h.ne_nil k) (h.column_same k)
    (h.column_balanced k)

end Copies

namespace FlatSpace

section

variable {α : Type} [Scalar α] {m : FlatSpace α}

variable (m) in
/-- Points in the half-open box of the periodic axes. -/
def Within (p : Vector α m.frame.spacedim) : Prop :=
  ∀ k, 0 < m.periods.get k → 0 ≤ p.get k ∧ p.get k < m.periods.get k

theorem within_of_straight (hm : m.isPeriodic = false) (p : Vector α m.frame.spacedim) :
    m.Within p := fun k hk => absurd hk (not_periodic_of_straight hm k)

end

variable {m : FlatSpace (Rounded R)} {p : Vector (Rounded R) m.frame.spacedim}
  {samples : List (Sample (Rounded R) m.frame.spacedim)}

variable [IsStrictOrderedRing K]

theorem Within.not_offends (h : m.Within p) (k : Fin m.frame.spacedim) : ¬ m.Offends p k := by
  rintro ⟨hL, hbelow | habove⟩
  · exact Rounded.not_lt.mpr (Rounded.neg_boxTolerance_le (h k hL).1) hbelow
  · exact Rounded.not_le.mpr (h k hL).2 habove

theorem newPoint_of_within (hne : samples ≠ []) (h : ∀ s ∈ samples, m.Within s.point) :
    m.newPoint ⟨m.frame.spacedim, samples, hne⟩ = .ok (m.place samples) :=
  (m.newPoint_eq_ok_iff hne).mpr
    ⟨boxFault?_eq_none_iff_offends.mpr fun s hs => (h s hs).not_offends, rfl⟩

theorem newPoint_copies (h : Copies p samples) (hp : ∀ k, (p.get k).Representable)
    (hin : m.Within p) : m.newPoint h.quadrature = .ok p := by
  have hall : ∀ s ∈ samples, m.Within s.point := by
    intro s hs
    rwa [h.same s hs]
  refine (newPoint_of_within h.ne_nil hall).trans (congrArg Except.ok (ext_get fun k => ?_))
  rw [get_place, averageAlong]
  split
  · next hk =>
    have hL := (m.wraps_iff k).mp hk
    exact Periodic.average_of_same hL (hp k) (hin k hL).1 (hin k hL).2 (column_ne_nil h.ne_nil k)
      (h.column_same k) (h.column_balanced k)
  · exact Weighted.average_of_same (hp k) (column_ne_nil h.ne_nil k) (h.column_same k)
      (h.column_balanced k)

theorem newPointMasked_copies (h : Copies p samples) (hp : ∀ k, (p.get k).Representable)
    (hin : m.Within p) : m.newPointMasked h.quadrature = .ok p := by
  rw [← newPoint_copies h hp hin]
  refine newPointMasked_eq_newPoint h.ne_nil fun s hs k => ?_
  rw [h.same s hs, Rounded.sub_zero (hp k)]

end FlatSpace

namespace Chart

theorem pulled_copies {α : Type} [Scalar α] {c : Chart α} {p : Vector α c.frame.spacedim}
    {samples : List (Sample α c.frame.spacedim)} (h : Copies p samples) {u : Vector α c.chartdim}
    (hpull : c.toChart (.ofVector p) = .ok u) :
    c.Pulled samples (samples.map (Sample.map fun _ => u)) := by
  rw [Pulled, Quadrature.Mapped, List.forall₂_map_right_iff, List.forall₂_same]
  intro s hs
  rw [h.same s hs]
  exact ⟨hpull, rfl⟩

variable [IsStrictOrderedRing K] {c : Chart (Rounded R)} {p : Vector (Rounded R) c.frame.spacedim}
  {samples : List (Sample (Rounded R) c.frame.spacedim)} {u : Vector (Rounded R) c.chartdim}

theorem newPoint_copies (h : Copies p samples) (hpull : c.toChart (.ofVector p) = .ok u)
    (hu : ∀ k, (u.get k).Representable) (hin : c.sub.Within u) :
    c.newPoint h.quadrature = c.toSpace u := by
  have hsub : c.sub.newPoint (h.image u).quadrature = .ok u := FlatSpace.newPoint_copies _ hu hin
  rw [newPoint_of_pulled (pulled_copies h hpull) h.ne_nil (h.image u).ne_nil]
  exact congrArg (· >>= c.toSpace) hsub

end Chart

/-- Samples at one point, as many as there may be, give this very point, however the operations
round, and although the weights need not sum to one exactly. A projection, and the push forward of a
chart, are then applied to the very point, or to what it is pulled back to. -/
theorem newPoint_of_copies [IsStrictOrderedRing K] (R : Rounding K) :
    (∀ {d : Nat} (p : Vector (Rounded R) d) (samples : List (Sample (Rounded R) d))
      (h : Copies p samples),
        (∀ k, (p.get k).Representable) →
        averageItems h.quadrature.points (.ofList h.quadrature.weights) = .ok (.ofVector p)) ∧
    (∀ (m : Projected (Rounded R)) (p : Vector (Rounded R) m.frame.spacedim)
      (samples : List (Sample (Rounded R) m.frame.spacedim)) (h : Copies p samples),
        (∀ k, (p.get k).Representable) →
        (Manifold.projected m).newPoint h.quadrature = m.project (.ofVector p)) ∧
    (∀ (m : FlatSpace (Rounded R)) (p : Vector (Rounded R) m.frame.spacedim)
      (samples : List (Sample (Rounded R) m.frame.spacedim)) (h : Copies p samples),
        (∀ k, (p.get k).Representable) →
        m.isPeriodic = false ∨ m.Within p →
        m.manifold.newPoint h.quadrature = .ok (.ofVector p) ∧
        m.newPointMasked h.quadrature = .ok p) ∧
    ∀ (c : Chart (Rounded R)) (p : Vector (Rounded R) c.frame.spacedim)
      (samples : List (Sample (Rounded R) c.frame.spacedim)) (h : Copies p samples)
      (u : Vector (Rounded R) c.chartdim), c.toChart (.ofVector p) = .ok u →
        (∀ k, (u.get k).Representable) →
        c.sub.isPeriodic = false ∨ c.sub.Within u →
        (Manifold.chart c).newPoint h.quadrature = (c.toSpace u).map .ofVector := by
  refine ⟨fun p samples h hp => ?_, fun m p samples h hp => ?_, fun m p samples h hp hm => ?_,
    fun c p samples h u hpull hu hm => ?_⟩
  · rw [averageItems_points, h.average_eq hp]
  · rw [Projected.newPoint_eq, h.average_eq hp]
  · have hin : m.Within p := hm.elim (fun hm => FlatSpace.within_of_straight hm p) id
    exact ⟨m.manifold_newPoint_of_ok (FlatSpace.newPoint_copies h hp hin),
      FlatSpace.newPointMasked_copies h hp hin⟩
  · have hin : c.sub.Within u := hm.elim (fun hm => FlatSpace.within_of_straight hm u) id
    rw [Manifold.newPoint, Chart.newPoint_copies h hpull hu hin]
    cases c.toSpace u <;> rfl

/-- Numbers of twelve decimals. All further ones are cut off. -/
def decimals : Rounding ℚ where
  round x := ⌊x * 10 ^ 12⌋ / 10 ^ 12
  round_zero := by simp
  quotient x y := x / y
  quotient_nonneg := div_nonneg

def decimalStrip : FlatSpace (Rounded decimals) :=
  ⟨FlatSpace.strip.frame, #v[⟨1⟩, ⟨0⟩], by decide⟩

def decimalChart : Chart (Rounded decimals) :=
  ⟨decimalStrip.frame, decimalStrip, ⟨.ok, .ok, .given .ok, false⟩⟩

def decimalProjected : Projected (Rounded decimals) :=
  ⟨decimalStrip.frame, some fun t => .ok (t.map Scalar.half), "half", .nothing⟩

def third : Rounded decimals := ⟨333333333333 / 10 ^ 12⟩

def thirdPoint : Vector (Rounded decimals) decimalStrip.frame.spacedim := #v[⟨9 / 10⟩, third]

/-- The weights miss one, and so the point is not their weighted sum. -/
def thirds : List (Sample (Rounded decimals) decimalStrip.frame.spacedim) :=
  List.replicate 3 ⟨thirdPoint, third⟩

theorem newPoint_of_copies_thirds : ∃ h : Copies thirdPoint thirds,
    averageItems h.quadrature.points (.ofList h.quadrature.weights) =
      .ok (.ofVector thirdPoint) ∧
    (Manifold.projected decimalProjected).newPoint h.quadrature =
      .ok ((Tensor.ofVector thirdPoint).map Scalar.half) ∧
    decimalStrip.manifold.newPoint h.quadrature = .ok (.ofVector thirdPoint) ∧
    (Manifold.chart decimalChart).newPoint h.quadrature = .ok (.ofVector thirdPoint) := by
  obtain ⟨haverage, hprojected, hflat, hchart⟩ := newPoint_of_copies decimals
  have h : Copies thirdPoint thirds := by
    refine ⟨List.cons_ne_nil _ _, fun s hs => ?_, eq_ok_of_isOk (by decide +kernel)⟩
    rw [List.eq_of_mem_replicate hs]
  have hp : ∀ k, (thirdPoint.get k).Representable :=
    Fin.forall_fin_two.mpr ⟨by decide +kernel, by decide +kernel⟩
  have hin : decimalStrip.Within thirdPoint :=
    Fin.forall_fin_two.mpr ⟨fun _ => by decide +kernel, fun hk => absurd hk (lt_irrefl (0 : ℚ))⟩
  refine ⟨h, haverage thirdPoint thirds h hp, hprojected decimalProjected thirdPoint thirds h hp,
    (hflat decimalStrip thirdPoint thirds h hp (.inr hin)).1, ?_⟩
  have hpull : decimalChart.toChart (.ofVector thirdPoint) = .ok thirdPoint :=
    Chart.toChart_of_pullBack rfl
  have hpush : decimalChart.toSpace thirdPoint = .ok thirdPoint :=
    Chart.toSpace_of_pushForward rfl
  exact (hchart decimalChart thirdPoint thirds h thirdPoint hpull hp (.inr hin)).trans
    (congrArg (Except.map _) hpush)

end VertexPlacement
