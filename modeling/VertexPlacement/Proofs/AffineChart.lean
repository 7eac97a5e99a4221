import VertexPlacement.Proofs.AffineImage
import VertexPlacement.Proofs.Chart
import VertexPlacement.Proofs.Segment

namespace VertexPlacement

open Weighted

theorem combination_toList {n : Nat} (u v : Vector ℚ n) :
    combination u.toList v.toList = ∑ k, u.get k * v.get k := by
  rw [combination, ← Vector.toList_zipWith, ← List.sum_ofFn]
  congr 1
  refine List.ext_getElem (by simp) fun i _ _ => ?_
  simp [Vector.get_eq_getElem]

theorem get_average_pair {d : Nat} (a b : Vector ℚ d) (w : ℚ) (k : Fin d) :
    (average [⟨a, 1 - w⟩, ⟨b, w⟩]).get k = (1 - w) * a.get k + w * b.get k := by
  rw [average, Vector.get_ofFn, average_of_sum_eq_one (by simp [column])]
  simp [column, combination]

def straightWay {d : Nat} (a b : Vector ℚ d) : Vector ℚ d := Vector.zipWith (· - ·) b a

section Straight

variable {d : Nat} {a b : Vector ℚ d} {x1 x2 : Tensor ℚ}

theorem Manifold.Straight.intermediatePoint_eq {m : Manifold ℚ} (hm : m.Straight)
    (hd : m.spacedim = d) (h1 : x1.entries = a.toList) (h2 : x2.entries = b.toList) {w : ℚ}
    (hw : w ∈ Set.Icc 0 1) : m.intermediatePoint x1 x2 w =
      .ok (.ofVector (average [⟨a, 1 - w⟩, ⟨b, w⟩])) := by
  subst hd
  exact m.intermediatePoint_eq_ok_iff.mpr ⟨hw, a, b, asPoint_eq_ok_iff.mpr h1,
    asPoint_eq_ok_iff.mpr h2, hm.newPoint_eq rfl _⟩

theorem FlatSpace.tangent_eq_straightWay {m : FlatSpace ℚ} (hm : m.isPeriodic = false)
    (a b : Vector ℚ m.frame.spacedim) : m.tangent a b = straightWay a b := ext_get fun k => by
  rw [get_tangent_of_not_periodic (not_periodic_of_straight hm k), straightWay, get_zipWith]

theorem FlatSpace.tangent_of_straight {m : FlatSpace ℚ} (hm : m.isPeriodic = false)
    (hd : m.frame.spacedim = d) (h1 : x1.entries = a.toList) (h2 : x2.entries = b.toList) :
    m.manifold.tangent x1 x2 = .ok (.ofVector (straightWay a b)) := by
  subst hd
  rw [tangent_of_point (asPoint_eq_ok_iff.mpr h1) (asPoint_eq_ok_iff.mpr h2),
    tangent_eq_straightWay hm]

end Straight

namespace Chart

theorem get_applyMatrix_ofRows {n d : Nat} (rows : Vector (Vector ℚ d) n) (v : Vector ℚ d)
    (i : Fin n) : (applyMatrix n (Tensor.ofRows rows).entries v).get i =
      ∑ k, (rows.get i).get k * v.get k := by
  have hentries : (Tensor.ofRows rows).entries = rows.toList.flatMap Vector.toList :=
    List.flatMap_map _ _ _
  have hrow := Tensor.take_drop_flatMap_toList rows.toList (i := i) (by simp)
  rw [applyMatrix, Vector.get_ofFn, hentries, hrow]
  refine (Scalar.foldl_add_eq 0 _).trans ((zero_add _).trans (combination_toList _ v))

theorem applyMatrix_rows {d e : Nat} (f : Affine d e) (u v : Vector ℚ d) :
    applyMatrix e (Tensor.ofRows f.rows).entries (straightWay u v) =
      straightWay (f.apply u) (f.apply v) := by
  refine ext_get fun i => ?_
  rw [get_applyMatrix_ofRows, straightWay, straightWay, get_zipWith, f.get_apply, f.get_apply,
    add_sub_add_right_eq_sub, ← Finset.sum_sub_distrib]
  refine Finset.sum_congr rfl fun k _ => ?_
  rw [f.get_rows, get_zipWith, mul_sub]

/-- A chart without periodic axes, the push forward of which is an affine map. -/
structure IsAffine (c : Chart ℚ) (f : Affine c.chartdim c.frame.spacedim) : Prop where
  straight : c.sub.isPeriodic = false
  push : ∀ u, c.toSpace u = .ok (f.apply u)
  pull : ∀ u, c.toChart (.ofVector (f.apply u)) = .ok u
  gradient : ∀ u : Vector ℚ c.chartdim, c.gradientAt (.ofVector u) = .ok (.ofRows f.rows)

namespace IsAffine

variable {c : Chart ℚ} {f : Affine c.chartdim c.frame.spacedim} (h : c.IsAffine f)

include h

theorem newPoint_eq {samples : List (Sample ℚ c.frame.spacedim)} (hne : samples ≠ [])
    (hin : ∀ s ∈ samples, s.point ∈ Set.range f.apply)
    (hs : |(samples.map Sample.weight).sum - 1| ≤ 1 / 10 ^ 10) :
    (Manifold.chart c).newPoint ⟨c.frame.spacedim, samples, hne⟩ =
      .ok (.ofVector (average samples)) := by
  have hinverse : ∀ s ∈ samples, f.apply (Function.invFun f.apply s.point) = s.point :=
    fun s hs => Function.invFun_eq (hin s hs)
  -- Chart points whose images are the samples. The chart pulls the samples back to just these.
  let us := samples.map (Sample.map (Function.invFun f.apply))
  have hus : us ≠ [] := by simpa [us] using hne
  have himage : us.map (Sample.map f.apply) = samples := by
    rw [List.map_map]
    refine (List.map_congr_left fun s hs => ?_).trans (List.map_id samples)
    exact congrArg (Sample.mk · s.weight) (hinverse s hs)
  have hpulled : c.Pulled samples us := by
    refine List.forall₂_map_right_iff.mpr (List.forall₂_same.mpr fun s hs => ⟨?_, rfl⟩)
    have hpull := h.pull (Function.invFun f.apply s.point)
    rwa [hinverse s hs] at hpull
  have hsum : |(us.map Sample.weight).sum - 1| ≤ 1 / 10 ^ 10 := by rwa [map_weight_map]
  have hnew : c.newPoint ⟨c.frame.spacedim, samples, hne⟩ = .ok (average samples) := by
    rw [newPoint_of_pulled hpulled hne hus, ← himage, ← f.apply_average hus hsum]
    exact bind_eq_ok_iff.mpr ⟨_, FlatSpace.newPoint_of_straight h.straight hus, h.push _⟩
  exact congrArg (· >>= _) hnew

section

variable {x1 x2 : Tensor ℚ} {u1 u2 : Vector ℚ c.chartdim}
  (h1 : x1.entries = (f.apply u1).toList) (h2 : x2.entries = (f.apply u2).toList)

include h1 h2

theorem intermediatePoint_eq {w : ℚ} (hw : w ∈ Set.Icc 0 1) :
    (Manifold.chart c).intermediatePoint x1 x2 w =
      .ok (.ofVector (average [⟨f.apply u1, 1 - w⟩, ⟨f.apply u2, w⟩])) := by
  refine (Manifold.intermediatePoint_eq_ok_iff _).mpr ⟨hw, f.apply u1, f.apply u2,
    asPoint_eq_ok_iff.mpr h1, asPoint_eq_ok_iff.mpr h2, h.newPoint_eq _ ?_ ?_⟩
  · exact List.forall_mem_cons.mpr ⟨⟨u1, rfl⟩, List.forall_mem_singleton.mpr ⟨u2, rfl⟩⟩
  · have hsum : ([1 - w, w] : List ℚ).sum = 1 := by simp
    change |([1 - w, w] : List ℚ).sum - 1| ≤ _
    rw [hsum]
    norm_num

theorem tangent_eq : c.tangent x1 x2 = .ok (straightWay (f.apply u1) (f.apply u2)) := by
  have hpoint1 : c.frame.point x1 = .ok (f.apply u1) := asPoint_eq_ok_iff.mpr h1
  have hpoint2 : c.frame.point x2 = .ok (f.apply u2) := asPoint_eq_ok_iff.mpr h2
  have hway : c.sub.tangent u1 u2 = straightWay u1 u2 :=
    FlatSpace.tangent_eq_straightWay h.straight u1 u2
  rw [tangent, start, hpoint1, ok_bind, h.pull, ok_bind, tangentFrom, hpoint2, ok_bind, h.pull,
    ok_bind, h.gradient, ok_bind, hway]
  exact (if_pos rfl).trans (congrArg Except.ok (applyMatrix_rows f u1 u2))

theorem differenceTangent_eq : (Manifold.chart c).differenceTangent x1 x2 =
    .ok (.ofVector (straightWay (f.apply u1) (f.apply u2))) := by
  have hstep : (Manifold.tangentStep : ℚ) = 1 / 10 ^ 8 := by
    rw [Manifold.tangentStep, Scalar.ratio_eq]
    norm_num
  have hstart : (Tensor.ofVector (f.apply u1)).entries = (f.apply u1).toList := rfl
  have hnear := h.intermediatePoint_eq hstart h2 (w := Manifold.tangentStep) (by
    rw [hstep]
    norm_num)
  have hway : (Vector.zipWith (· - ·) (average [⟨f.apply u1, 1 - Manifold.tangentStep⟩,
      ⟨f.apply u2, Manifold.tangentStep⟩]) (f.apply u1)).map (· / Manifold.tangentStep) =
        straightWay (f.apply u1) (f.apply u2) := by
    refine ext_get fun i => ?_
    have hmap (v : Vector ℚ c.frame.spacedim) : (v.map (· / Manifold.tangentStep)).get i =
        v.get i / Manifold.tangentStep := by simp [Vector.get_eq_getElem]
    rw [hmap, straightWay, get_zipWith, get_zipWith, get_average_pair, hstep]
    ring
  rw [← hway]
  exact (Manifold.chart c).differenceTangent_of_point (asPoint_eq_ok_iff.mpr h1) hnear

end

/-- New points, points between two others and tangents are those of flat space. The three ways to a
tangent give one vector. -/
theorem agrees_with_flat {m : FlatSpace ℚ} (hm : m.isPeriodic = false)
    (hd : m.frame.spacedim = c.frame.spacedim) :
    (∀ (samples : List (Sample ℚ c.frame.spacedim)) (hne : samples ≠ []),
      (∀ s ∈ samples, s.point ∈ Set.range f.apply) →
      |(samples.map Sample.weight).sum - 1| ≤ 1 / 10 ^ 10 →
      ∃ r : Vector ℚ c.frame.spacedim,
        (Manifold.chart c).newPoint ⟨c.frame.spacedim, samples, hne⟩ = .ok (.ofVector r) ∧
        m.manifold.newPoint ⟨c.frame.spacedim, samples, hne⟩ = .ok (.ofVector r)) ∧
    ∀ (u1 u2 : Vector ℚ c.chartdim) (x1 x2 : Tensor ℚ), c.frame.point x1 = .ok (f.apply u1) →
      c.frame.point x2 = .ok (f.apply u2) →
      (∀ w ∈ Set.Icc (0 : ℚ) 1, ∃ r : Vector ℚ c.frame.spacedim,
        (Manifold.chart c).intermediatePoint x1 x2 w = .ok (.ofVector r) ∧
        m.manifold.intermediatePoint x1 x2 w = .ok (.ofVector r)) ∧
      ∃ v : Vector ℚ c.frame.spacedim,
        (∀ k, v.get k = (f.apply u2).get k - (f.apply u1).get k) ∧
        (Manifold.chart c).tangent x1 x2 = .ok (.ofVector v) ∧
        m.manifold.tangent x1 x2 = .ok (.ofVector v) ∧
        (Manifold.chart c).differenceTangent x1 x2 = .ok (.ofVector v) := by
  have hstraight : m.manifold.Straight := .flat hm
  refine ⟨fun samples hne hin hs => ?_, fun u1 u2 x1 x2 h1 h2 => ?_⟩
  · exact ⟨_, h.newPoint_eq hne hin hs, hstraight.newPoint_eq hd hne⟩
  · replace h1 := asPoint_eq_ok_iff.mp h1
    replace h2 := asPoint_eq_ok_iff.mp h2
    refine ⟨fun w hw => ?_, straightWay (f.apply u1) (f.apply u2), fun k => get_zipWith _ _ _ k, ?_,
      FlatSpace.tangent_of_straight hm hd h1 h2, h.differenceTangent_eq h1 h2⟩
    · exact ⟨_, h.intermediatePoint_eq h1 h2 hw, hstraight.intermediatePoint_eq hd h1 h2 hw⟩
    · exact congrArg (· >>= _) (h.tangent_eq h1 h2)

end IsAffine

def slope : Affine 3 2 := ⟨!![1, 0, 0; 0, 1 / 2, 0], ![-1, 0]⟩

def lifted : Chart ℚ where
  frame := Affine.sheet.frame
  sub := Affine.plane
  maps :=
    { pullBack := fun t => .ok (slope.onTensor t)
      pushForward := fun t => .ok (Affine.lift.onTensor t)
      gradient := .given fun _ => .ok (.ofRows Affine.lift.rows)
      traced := false }

theorem slope_lift (u : Vector ℚ 2) : slope.onTensor (.ofVector (Affine.lift.apply u)) =
    .ofVector u := by
  rw [slope.onTensor_ofVector]
  refine congrArg Tensor.ofVector (ext_get (Fin.forall_fin_two.mpr ⟨?_, ?_⟩)) <;>
    simp only [Affine.get_apply, slope, Affine.lift, Fin.sum_univ_succ] <;> simp

theorem lifted_isAffine : lifted.IsAffine Affine.lift where
  straight := by decide
  push u := toSpace_of_pushForward (congrArg Except.ok (Affine.lift.onTensor_ofVector u))
  pull u := toChart_of_pullBack (congrArg Except.ok (slope_lift u))
  gradient _ := rfl

def ambient : FlatSpace ℚ := ⟨Affine.sheet.frame, Vector.replicate 3 0, by decide⟩

def liftedSamples : List (Sample ℚ 3) :=
  [⟨Affine.lift.apply #v[3, 0], 1 / 4⟩, ⟨Affine.lift.apply #v[1, 2], 3 / 4⟩]

theorem agrees_with_flat_lifted :
    lifted.IsAffine Affine.lift ∧ ambient.isPeriodic = false ∧
    (∃ r : Vector ℚ 3,
      (Manifold.chart lifted).newPoint ⟨3, liftedSamples, List.cons_ne_nil _ _⟩ =
        .ok (.ofVector r) ∧
      ambient.manifold.newPoint ⟨3, liftedSamples, List.cons_ne_nil _ _⟩ = .ok (.ofVector r)) ∧
    ∃ v : Vector ℚ 3,
      (Manifold.chart lifted).tangent (.ofVector (Affine.lift.apply #v[3, 0]))
        (.ofVector (Affine.lift.apply #v[1, 2])) = .ok (.ofVector v) ∧
      (Manifold.chart lifted).differenceTangent (.ofVector (Affine.lift.apply #v[3, 0]))
        (.ofVector (Affine.lift.apply #v[1, 2])) = .ok (.ofVector v) := by
  have hstraight : ambient.isPeriodic = false := by decide
  obtain ⟨hnew, hways⟩ := lifted_isAffine.agrees_with_flat (m := ambient) hstraight rfl
  have hin : ∀ s ∈ liftedSamples, s.point ∈ Set.range Affine.lift.apply :=
    List.forall_mem_cons.mpr ⟨⟨_, rfl⟩, List.forall_mem_singleton.mpr ⟨_, rfl⟩⟩
  have hs : |(liftedSamples.map Sample.weight).sum - 1| ≤ 1 / 10 ^ 10 := by
    change |([1 / 4, 3 / 4] : List ℚ).sum - 1| ≤ _
    norm_num
  obtain ⟨-, v, -, htangent, -, hdifference⟩ := hways #v[3, 0] #v[1, 2] _ _
    (asPoint_ofVector _ _) (asPoint_ofVector _ _)
  exact ⟨lifted_isAffine, hstraight, hnew liftedSamples (List.cons_ne_nil _ _) hin hs, v, htangent,
    hdifference⟩

end Chart

end VertexPlacement
