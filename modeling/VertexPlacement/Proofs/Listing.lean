import VertexPlacement.Proofs.Arrays
import VertexPlacement.Proofs.Chart
import VertexPlacement.Proofs.Segment

namespace VertexPlacement

open Weighted

section Alike

variable {d e : Nat} {samples samples' : List (Sample ℚ d)}

def weightAt (samples : List (Sample ℚ d)) (p : Vector ℚ d) : ℚ :=
  ((samples.filter (·.point = p)).map Sample.weight).sum

theorem weightAt_cons (s : Sample ℚ d) (samples : List (Sample ℚ d)) (p : Vector ℚ d) :
    weightAt (s :: samples) p = (if s.point = p then s.weight else 0) + weightAt samples p := by
  by_cases h : s.point = p <;> simp [weightAt, h]

/-- Samples at the same points, of which each has the same weight in all. -/
structure Alike (samples samples' : List (Sample ℚ d)) : Prop where
  mem_iff : ∀ p, p ∈ samples.map Sample.point ↔ p ∈ samples'.map Sample.point
  weightAt_eq : ∀ p, weightAt samples p = weightAt samples' p

theorem Alike.symm (h : Alike samples samples') : Alike samples' samples :=
  ⟨fun p => (h.mem_iff p).symm, fun p => (h.weightAt_eq p).symm⟩

theorem Alike.trans {samples'' : List (Sample ℚ d)} (h : Alike samples samples')
    (h' : Alike samples' samples'') : Alike samples samples'' :=
  ⟨fun p => (h.mem_iff p).trans (h'.mem_iff p), fun p => (h.weightAt_eq p).trans (h'.weightAt_eq p)⟩

theorem alike_of_perm (h : samples.Perm samples') : Alike samples samples' :=
  ⟨fun _ => (h.map _).mem_iff, fun _ => ((h.filter _).map _).sum_eq⟩

theorem alike_split (p : Vector ℚ d) (v w : ℚ) (rest : List (Sample ℚ d)) :
    Alike (⟨p, v + w⟩ :: rest) (⟨p, v⟩ :: ⟨p, w⟩ :: rest) := by
  refine ⟨fun q => by simp, fun q => ?_⟩
  simp only [weightAt_cons]
  split <;> ring

theorem sum_eq_sum_weightAt (g : Vector ℚ d → ℚ) {points : Finset (Vector ℚ d)}
    (h : ∀ s ∈ samples, s.point ∈ points) :
    (samples.map fun s => s.weight * g s.point).sum =
      ∑ p ∈ points, weightAt samples p * g p := by
  induction samples with
  | nil => simp [weightAt]
  | cons s rest ih =>
    obtain ⟨hs, hrest⟩ := List.forall_mem_cons.mp h
    simp only [List.map_cons, List.sum_cons, ih hrest, weightAt_cons, add_mul,
      Finset.sum_add_distrib, ite_mul, zero_mul, Finset.sum_ite_eq, if_pos hs]

theorem Alike.sum_eq (h : Alike samples samples') (g : Vector ℚ d → ℚ) :
    (samples.map fun s => s.weight * g s.point).sum =
      (samples'.map fun s => s.weight * g s.point).sum := by
  have hin : ∀ s ∈ samples, s.point ∈ (samples'.map Sample.point).toFinset := fun s hs =>
    List.mem_toFinset.mpr ((h.mem_iff _).mp (List.mem_map_of_mem hs))
  have hin' : ∀ s ∈ samples', s.point ∈ (samples'.map Sample.point).toFinset := fun s hs =>
    List.mem_toFinset.mpr (List.mem_map_of_mem hs)
  rw [sum_eq_sum_weightAt g hin, sum_eq_sum_weightAt g hin']
  simp only [h.weightAt_eq]

theorem Alike.sum_weight (h : Alike samples samples') :
    (samples.map Sample.weight).sum = (samples'.map Sample.weight).sum := by
  simpa using h.sum_eq fun _ => 1

theorem weightAt_map (g : Vector ℚ d → Vector ℚ e) (samples : List (Sample ℚ d))
    (q : Vector ℚ e) : weightAt (samples.map (Sample.map g)) q =
      (samples.map fun s => s.weight * if g s.point = q then 1 else 0).sum := by
  induction samples with
  | nil => rfl
  | cons s rest ih =>
    rw [List.map_cons, weightAt_cons, ih, List.map_cons, List.sum_cons, mul_ite, mul_one, mul_zero]
    rfl

theorem Alike.map (h : Alike samples samples') (g : Vector ℚ d → Vector ℚ e) :
    Alike (samples.map (Sample.map g)) (samples'.map (Sample.map g)) := by
  refine ⟨fun q => ?_, fun q => ?_⟩
  · rw [map_point_map, map_point_map, List.mem_map, List.mem_map]
    exact exists_congr fun p => and_congr_left fun _ => h.mem_iff p
  · rw [weightAt_map, weightAt_map]
    exact h.sum_eq fun p => if g p = q then 1 else 0

theorem Alike.exists_mapped (h : Alike samples samples')
    {f : Vector ℚ d → Except (Fault ℚ) (Vector ℚ e)} {us : List (Sample ℚ e)}
    (hus : Quadrature.Mapped f samples us) :
    ∃ us', Quadrature.Mapped f samples' us' ∧ Alike us us' ∧
      us.map Sample.weight = samples.map Sample.weight := by
  let g (p : Vector ℚ d) : Vector ℚ e := (f p).toOption.getD (.replicate e 0)
  have hg : us = samples.map (Sample.map g) ∧ ∀ s ∈ samples, f s.point = .ok (g s.point) := by
    -- The induction is on the given samples alone, whatever the others are.
    clear h
    induction hus with
    | nil => exact ⟨rfl, nofun⟩
    | @cons s u samples us hu _ ih =>
      obtain ⟨rfl, hrest⟩ := ih
      obtain ⟨p, w⟩ := u
      obtain ⟨hp, rfl⟩ := hu
      have hs : g s.point = p := by simp [g, hp, Except.toOption]
      rw [← hs] at hp
      exact ⟨by rw [List.map_cons, ← hs]; rfl, List.forall_mem_cons.mpr ⟨hp, hrest⟩⟩
  obtain ⟨rfl, hall⟩ := hg
  refine ⟨samples'.map (Sample.map g), ?_, h.map g, map_weight_map g samples⟩
  refine List.forall₂_map_right_iff.mpr (List.forall₂_same.mpr fun s hs => ⟨?_, rfl⟩)
  obtain ⟨s', hs', heq⟩ := List.mem_map.mp ((h.mem_iff _).mpr (List.mem_map_of_mem hs))
  have hs' := hall s' hs'
  rwa [heq] at hs'

theorem Alike.average_eq (h : Alike samples samples')
    (hs : (samples.map Sample.weight).sum = 1) : average samples = average samples' := by
  have hs' : (samples'.map Sample.weight).sum = 1 := h.sum_weight ▸ hs
  refine ext_get fun k => ?_
  rw [get_average_eq_combination (by simp [hs]), get_average_eq_combination (by simp [hs']),
    anchored_of_sum_eq_one hs, anchored_of_sum_eq_one hs', coordinates, coordinates,
    combination_map, combination_map]
  exact h.sum_eq (·.get k)

theorem get_average_of_unbalanced (hs : 1 / 10 ^ 10 < |(samples.map Sample.weight).sum - 1|)
    (k : Fin d) :
    (average samples).get k = (samples.map fun s => s.weight * s.point.get k).sum := by
  have hu : unbalanced (samples.map Sample.weight) = true := by
    by_contra hb
    exact absurd ((unbalanced_eq_false_iff _).mp (Bool.eq_false_iff.mpr hb)) (not_le.mpr hs)
  rw [average_of_unbalanced hu, Vector.get_ofFn, total_eq, map_weight_column, map_value_column,
    coordinates, combination_map]

theorem get_average_of_balanced {s : Sample ℚ d} {rest : List (Sample ℚ d)}
    (hs : |((s :: rest).map Sample.weight).sum - 1| ≤ 1 / 10 ^ 10) (k : Fin d) :
    (average (s :: rest)).get k = ((s :: rest).map fun s => s.weight * s.point.get k).sum +
      (1 - ((s :: rest).map Sample.weight).sum) * s.point.get k := by
  have hc := combination_anchored s.weight (s.point.get k) (rest.map Sample.weight)
    (rest.map (·.point.get k))
  rw [get_average_eq_combination hs, ← combination_map]
  exact hc

theorem Alike.mem_coordinates_iff (h : Alike samples samples') (k : Fin d) (x : ℚ) :
    x ∈ coordinates samples k ↔ x ∈ coordinates samples' k := by
  have hpoints (l : List (Sample ℚ d)) :
      x ∈ coordinates l k ↔ ∃ p ∈ l.map Sample.point, p.get k = x := by
    simp [coordinates]
  rw [hpoints, hpoints]
  exact exists_congr fun p => and_congr_left fun _ => h.mem_iff p

theorem Alike.lowestOf_eq (h : Alike samples samples') (hne : samples ≠ []) (hne' : samples' ≠ [])
    (k : Fin d) : Periodic.lowestOf (column samples k) = Periodic.lowestOf (column samples' k) := by
  rw [Periodic.lowestOf, Periodic.lowestOf, map_value_column, map_value_column]
  have hleast := Periodic.isLeast_lowest (coordinates_ne_nil hne k)
  simp only [h.mem_coordinates_iff k] at hleast
  exact hleast.unique (Periodic.isLeast_lowest (coordinates_ne_nil hne' k))

theorem map_value_unwrap_column (L : ℚ) (samples : List (Sample ℚ d)) (k : Fin d) :
    (Periodic.unwrap L (column samples k)).map value = samples.map fun s =>
      if Periodic.wraps L (Periodic.lowestOf (column samples k)) (s.point.get k) then
        s.point.get k - L
      else s.point.get k := by
  rw [Periodic.unwrap, List.map_map, column, List.map_map]
  refine List.map_congr_left fun s _ => ?_
  simp only [Function.comp_apply]
  split <;> rfl

theorem Alike.periodic_average_eq (h : Alike samples samples') (hne : samples ≠ [])
    (hne' : samples' ≠ []) (hs : (samples.map Sample.weight).sum = 1) (L : ℚ) (k : Fin d) :
    Periodic.average L (column samples k) = Periodic.average L (column samples' k) := by
  have hs' : (samples'.map Sample.weight).sum = 1 := h.sum_weight ▸ hs
  have hw (l : List (Sample ℚ d)) :
      (Periodic.unwrap L (column l k)).map weight = l.map Sample.weight := by
    rw [Periodic.map_weight_unwrap, map_weight_column]
  rw [Periodic.average, Periodic.average, average_of_sum_eq_one (by rwa [hw]),
    average_of_sum_eq_one (by rwa [hw]), hw, hw, map_value_unwrap_column, map_value_unwrap_column,
    combination_map, combination_map, h.lowestOf_eq hne hne' k]
  exact congrArg (Periodic.fold L) (h.sum_eq fun p =>
    if Periodic.wraps L (Periodic.lowestOf (column samples' k)) (p.get k) then p.get k - L
    else p.get k)

end Alike

namespace FlatSpace

variable {m : FlatSpace ℚ} {samples samples' : List (Sample ℚ m.frame.spacedim)}

theorem boxFault?_alike (h : Alike samples samples') :
    m.boxFault? samples = none ↔ m.boxFault? samples' = none := by
  simp only [boxFault?_eq_none_iff, h.mem_coordinates_iff]

theorem place_alike (h : Alike samples samples') (hne : samples ≠ []) (hne' : samples' ≠ [])
    (hs : (samples.map Sample.weight).sum = 1) : m.place samples = m.place samples' := by
  refine ext_get fun k => ?_
  simp only [get_place, averageAlong]
  split
  · exact h.periodic_average_eq hne hne' hs _ k
  · have haverage := congrArg (·.get k) (h.average_eq hs)
    simpa only [average, Vector.get_ofFn] using haverage

theorem newPoint_alike (h : Alike samples samples') (hne : samples ≠ []) (hne' : samples' ≠ [])
    (hs : (samples.map Sample.weight).sum = 1) {r : Vector ℚ m.frame.spacedim}
    (hr : m.newPoint (m.quadrature samples hne) = .ok r) :
    m.newPoint (m.quadrature samples' hne') = .ok r := by
  rw [newPoint_eq_ok_iff] at hr ⊢
  exact ⟨(boxFault?_alike h).mp hr.1, place_alike h hne hne' hs ▸ hr.2⟩

end FlatSpace

theorem Chart.newPoint_alike {c : Chart ℚ} {samples samples' : List (Sample ℚ c.frame.spacedim)}
    (h : Alike samples samples') (hne : samples ≠ []) (hne' : samples' ≠ [])
    (hs : (samples.map Sample.weight).sum = 1) {p : Vector ℚ c.frame.spacedim}
    (hp : c.newPoint ⟨c.frame.spacedim, samples, hne⟩ = .ok p) :
    c.newPoint ⟨c.frame.spacedim, samples', hne'⟩ = .ok p := by
  obtain ⟨us, hus, u, hpulled, hu, hpush⟩ := exists_pulled hp
  obtain ⟨us', hpulled', halike, hweights⟩ := h.exists_mapped hpulled
  have hus' := hpulled'.ne_nil hne'
  rw [newPoint_of_pulled hpulled' hne' hus']
  exact bind_eq_ok_iff.mpr
    ⟨u, FlatSpace.newPoint_alike halike hus hus' (hweights ▸ hs) hu, hpush⟩

theorem Projected.newPoint_alike {p : Projected ℚ}
    {samples samples' : List (Sample ℚ p.frame.spacedim)} (h : Alike samples samples')
    (hne : samples ≠ []) (hne' : samples' ≠ []) (hs : (samples.map Sample.weight).sum = 1) :
    (Manifold.projected p).newPoint ⟨p.frame.spacedim, samples', hne'⟩ =
      (Manifold.projected p).newPoint ⟨p.frame.spacedim, samples, hne⟩ := by
  rw [newPoint_eq, newPoint_eq, h.average_eq hs]

namespace Manifold

/-- Manifolds whose new points are found from an average and nothing else of the samples. -/
inductive FromAverage : Manifold ℚ → Prop
  | flat (m : FlatSpace ℚ) : FromAverage m.manifold
  | chart (c : Chart ℚ) : FromAverage (.chart c)
  | projected (p : Projected ℚ) : FromAverage (.projected p)

variable {m : Manifold ℚ}

theorem FromAverage.newPoint_alike (hm : m.FromAverage) {d : Nat}
    {samples samples' : List (Sample ℚ d)} (h : Alike samples samples') (hne : samples ≠ [])
    (hne' : samples' ≠ [])
    (hs : (samples.map Sample.weight).sum = 1) {r : Tensor ℚ}
    (hr : m.newPoint ⟨d, samples, hne⟩ = .ok r) : m.newPoint ⟨d, samples', hne'⟩ = .ok r := by
  obtain rfl : d = m.spacedim := spacedim_of_newPoint hr
  cases hm with
  | flat m =>
    obtain ⟨p, hp, hr⟩ := bind_eq_ok_iff.mp hr
    exact bind_eq_ok_iff.mpr ⟨p, FlatSpace.newPoint_alike h hne hne' hs hp, hr⟩
  | chart c =>
    obtain ⟨p, hp, hr⟩ := bind_eq_ok_iff.mp hr
    exact bind_eq_ok_iff.mpr ⟨p, Chart.newPoint_alike h hne hne' hs hp, hr⟩
  | projected p => exact (Projected.newPoint_alike h hne hne' hs).trans hr

theorem FromAverage.newPoint_iff (hm : m.FromAverage) {d : Nat}
    {samples samples' : List (Sample ℚ d)} (h : Alike samples samples') (hne : samples ≠ [])
    (hne' : samples' ≠ [])
    (hs : (samples.map Sample.weight).sum = 1) (r : Tensor ℚ) :
    m.newPoint ⟨d, samples, hne⟩ = .ok r ↔ m.newPoint ⟨d, samples', hne'⟩ = .ok r :=
  ⟨hm.newPoint_alike h hne hne' hs, hm.newPoint_alike h.symm hne' hne (h.sum_weight ▸ hs)⟩

theorem FromAverage.intermediatePoint_swap (hm : m.FromAverage) {x1 x2 : Tensor ℚ} {u : ℚ}
    {r : Tensor ℚ} (h : m.intermediatePoint x1 x2 u = .ok r) :
    m.intermediatePoint x2 x1 (1 - u) = .ok r := by
  obtain ⟨⟨hu0, hu1⟩, a, b, h1, h2, hr⟩ := (m.intermediatePoint_eq_ok_iff).mp h
  refine (m.intermediatePoint_eq_ok_iff).mpr
    ⟨⟨by linarith, by linarith⟩, b, a, h2, h1, hm.newPoint_alike ?_ _ _ (by simp) hr⟩
  rw [sub_sub_cancel]
  exact alike_of_perm (.swap _ _ _)

/-- New points depend on the points and on the weight of each of them, where the weights sum to one.
Where they only pass for a partition of one, the average of a permutation differs by what the other
first sample makes up for. -/
theorem newPoint_relisted (hm : m.FromAverage) :
    (∀ {d : Nat} {samples samples' : List (Sample ℚ d)} (hne : samples ≠ []) (hne' : samples' ≠ []),
      (samples.map Sample.weight).sum = 1 → Alike samples samples' → ∀ r,
        m.newPoint ⟨d, samples, hne⟩ = .ok r ↔ m.newPoint ⟨d, samples', hne'⟩ = .ok r) ∧
    (∀ {d : Nat} {samples samples' : List (Sample ℚ d)}, samples.Perm samples' →
      Alike samples samples') ∧
    (∀ {d : Nat} (p : Vector ℚ d) (v w : ℚ) (rest : List (Sample ℚ d)),
      Alike (⟨p, v + w⟩ :: rest) (⟨p, v⟩ :: ⟨p, w⟩ :: rest)) ∧
    (∀ x1 x2 u r, m.intermediatePoint x1 x2 u = .ok r ↔
      m.intermediatePoint x2 x1 (1 - u) = .ok r) ∧
    ∀ {d : Nat} (s s' : Sample ℚ d) (rest rest' : List (Sample ℚ d)),
      (s :: rest).Perm (s' :: rest') → ∃ a a' : Vector ℚ d,
        averageItems (.ofPoints ((s :: rest).map Sample.point))
          (.ofList ((s :: rest).map Sample.weight)) = .ok (.ofVector a) ∧
        averageItems (.ofPoints ((s' :: rest').map Sample.point))
          (.ofList ((s' :: rest').map Sample.weight)) = .ok (.ofVector a') ∧
        (|((s :: rest).map Sample.weight).sum - 1| ≤ 1 / 10 ^ 10 → ∀ k, a.get k - a'.get k =
          (1 - ((s :: rest).map Sample.weight).sum) * (s.point.get k - s'.point.get k)) ∧
        (1 / 10 ^ 10 < |((s :: rest).map Sample.weight).sum - 1| → a = a') := by
  refine ⟨fun hne hne' hs h r => hm.newPoint_iff h hne hne' hs r, alike_of_perm, alike_split,
    fun x1 x2 u r => ⟨hm.intermediatePoint_swap, fun h => ?_⟩, fun s s' rest rest' h => ?_⟩
  · have hback := hm.intermediatePoint_swap h
    rwa [sub_sub_cancel] at hback
  · have halike := alike_of_perm h
    have hgiven := averageItems_points ⟨_, s :: rest, List.cons_ne_nil _ _⟩
    have hother := averageItems_points ⟨_, s' :: rest', List.cons_ne_nil _ _⟩
    rw [Quadrature.points_eq_ofPoints] at hgiven hother
    refine ⟨_, _, hgiven, hother, fun hs k => ?_, fun hs => ext_get fun k => ?_⟩
    · rw [get_average_of_balanced hs, get_average_of_balanced (halike.sum_weight ▸ hs),
        halike.sum_eq (·.get k), halike.sum_weight]
      ring
    · rw [get_average_of_unbalanced hs, get_average_of_unbalanced (halike.sum_weight ▸ hs),
        halike.sum_eq (·.get k)]

theorem newPoint_relisted_strip :
    FlatSpace.strip.manifold.FromAverage ∧
    ∃ r, FlatSpace.strip.manifold.newPoint
        (FlatSpace.strip.quadrature FlatSpace.stripSamples FlatSpace.stripSamples_ne_nil) = .ok r ∧
      FlatSpace.strip.manifold.newPoint (FlatSpace.strip.quadrature
        [⟨#v[7 / 10, 9 / 10], 1 / 2⟩, ⟨#v[1 / 10, 1 / 10], 1 / 4⟩, ⟨#v[7 / 10, 9 / 10], 1 / 4⟩]
        (List.cons_ne_nil _ _)) = .ok r := by
  have hm : FlatSpace.strip.manifold.FromAverage := .flat _
  have hne := FlatSpace.stripSamples_ne_nil
  have hr := FlatSpace.newPoint_of_inBox hne FlatSpace.stripSamples_inBox
  have hsplit : Alike FlatSpace.stripSamples
      [⟨#v[7 / 10, 9 / 10], 1 / 2 + 1 / 4⟩, ⟨#v[1 / 10, 1 / 10], 1 / 4⟩] := by
    have hw : (1 / 2 + 1 / 4 : ℚ) = 3 / 4 := by norm_num
    rw [hw]
    exact alike_of_perm (.swap _ _ _)
  have halike := (hsplit.trans (alike_split _ _ _ _)).trans (alike_of_perm (.cons _ (.swap _ _ _)))
  have hs : (FlatSpace.stripSamples.map Sample.weight).sum = 1 := by
    change ([1 / 4, 3 / 4] : List ℚ).sum = 1
    norm_num
  exact ⟨hm, _, hr, ((newPoint_relisted hm).1 hne (List.cons_ne_nil _ _) hs halike _).mp hr⟩

end Manifold

end VertexPlacement
