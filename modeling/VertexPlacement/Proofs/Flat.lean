import VertexPlacement.Proofs.Periodic
import VertexPlacement.Proofs.Offence
import VertexPlacement.Manifold

namespace VertexPlacement

open Weighted

def coordinates {d : Nat} (samples : List (Sample ℚ d)) (k : Fin d) : List ℚ :=
  samples.map fun s => s.point.get k

theorem column_ne_nil {α : Type} {d : Nat} {samples : List (Sample α d)} (hne : samples ≠ [])
    (k : Fin d) : column samples k ≠ [] := mt List.map_eq_nil_iff.mp hne

theorem coordinates_ne_nil {d : Nat} {samples : List (Sample ℚ d)} (hne : samples ≠ [])
    (k : Fin d) : coordinates samples k ≠ [] :=
  mt List.map_eq_nil_iff.mp hne

@[simp] theorem map_value_column {d : Nat} (samples : List (Sample ℚ d)) (k : Fin d) :
    (column samples k).map value = coordinates samples k := by
  rw [column, List.map_map]
  rfl

@[simp] theorem map_weight_column {α : Type} {d : Nat} (samples : List (Sample α d)) (k : Fin d) :
    (column samples k).map weight = samples.map Sample.weight := by
  rw [column, List.map_map]
  rfl

theorem get_average_eq_combination {d : Nat} {samples : List (Sample ℚ d)}
    (h : |(samples.map Sample.weight).sum - 1| ≤ 1 / 10 ^ 10) (k : Fin d) :
    (average samples).get k =
      combination (anchored (samples.map Sample.weight)) (coordinates samples k) := by
  rw [average, Vector.get_ofFn, average_eq_combination (by rwa [map_weight_column]),
    map_weight_column, map_value_column]

theorem Frame.accept_eq {α : Type} (f : Frame) {samples : List (Sample α f.spacedim)}
    (hne : samples ≠ []) : f.accept ⟨f.spacedim, samples, hne⟩ = .ok samples := dif_pos rfl

theorem Frame.spacedim_of_accept {α : Type} {f : Frame} {q : Quadrature α}
    {samples : List (Sample α f.spacedim)} (h : f.accept q = .ok samples) :
    q.spacedim = f.spacedim := by
  unfold accept at h
  split at h
  · assumption
  · cases h

theorem Projected.newPoint_eq {α : Type} [Scalar α] {p : Projected α}
    {samples : List (Sample α p.frame.spacedim)} (hne : samples ≠ []) :
    (Manifold.projected p).newPoint ⟨p.frame.spacedim, samples, hne⟩ =
      p.project (.ofVector (average samples)) := by
  rw [Manifold.newPoint, p.frame.accept_eq hne]
  rfl

namespace FlatSpace

abbrev manifold {α : Type} [Scalar α] (m : FlatSpace α) : Manifold α := .flat m .identity

section Outcomes

variable {α : Type} [Scalar α] (m : FlatSpace α) {samples : List (Sample α m.frame.spacedim)}

theorem wraps_iff (k : Fin m.frame.spacedim) : m.wraps k = true ↔ 0 < m.periods.get k :=
  decide_eq_true_iff

theorem get_place (samples : List (Sample α m.frame.spacedim)) (k : Fin m.frame.spacedim) :
    (m.place samples).get k = m.averageAlong samples k := Vector.get_ofFn _ k

theorem get_tangent (x1 x2 : Vector α m.frame.spacedim) (k : Fin m.frame.spacedim) :
    (m.tangent x1 x2).get k =
      if m.wraps k then Periodic.shortest (m.periods.get k) (x2.get k - x1.get k)
      else x2.get k - x1.get k := Vector.get_ofFn _ k

theorem manifold_newPoint (q : Quadrature α) :
    m.manifold.newPoint q = (m.newPoint q).map .ofVector := by
  rw [Manifold.newPoint]
  cases m.newPoint q <;> rfl

theorem manifold_newPoint_of_ok {q : Quadrature α} {u : Vector α m.frame.spacedim}
    (h : m.newPoint q = .ok u) : m.manifold.newPoint q = .ok (.ofVector u) := by
  rw [manifold_newPoint, h]
  rfl

theorem kind_of_boxFault? {e : Fault α} (h : m.boxFault? samples = some e) :
    e.kind = .breach .pointOutOfBounds := by
  obtain ⟨i, s, k, -, rfl⟩ := boxFault?_eq_some_iff.mp h
  rfl

theorem newPoint_eq (hne : samples ≠ []) : m.newPoint ⟨m.frame.spacedim, samples, hne⟩ =
    match m.boxFault? samples with
    | some e => .error e
    | none => .ok (m.place samples) := by
  cases h : m.boxFault? samples <;>
    simp [newPoint, accept, m.frame.accept_eq hne, h, bind, Except.bind, pure, Except.pure]

/-- Samples of the right dimension can only fail by lying outside the box. -/
theorem newPoint_cases (hne : samples ≠ []) :
    (∃ u, m.newPoint ⟨m.frame.spacedim, samples, hne⟩ = .ok u) ∨
      ∃ e, m.newPoint ⟨m.frame.spacedim, samples, hne⟩ = .error e ∧
        e.kind = .breach .pointOutOfBounds := by
  rw [newPoint_eq]
  cases h : m.boxFault? samples with
  | none => exact .inl ⟨_, rfl⟩
  | some e => exact .inr ⟨e, rfl, m.kind_of_boxFault? h⟩

theorem newPoint_eq_ok_iff (hne : samples ≠ []) {r : Vector α m.frame.spacedim} :
    m.newPoint ⟨m.frame.spacedim, samples, hne⟩ = .ok r ↔
      m.boxFault? samples = none ∧ m.place samples = r := by
  rw [newPoint_eq]
  cases m.boxFault? samples with
  | none => simp
  | some e => simp

theorem newPoint_eq_error_iff (hne : samples ≠ []) {e : Fault α} :
    m.newPoint ⟨m.frame.spacedim, samples, hne⟩ = .error e ↔ m.boxFault? samples = some e := by
  rw [newPoint_eq]
  cases m.boxFault? samples with
  | none => simp
  | some e' => simp

end Outcomes

section Straight

variable {α : Type} [Scalar α] {m : FlatSpace α}

theorem wraps_of_straight (hflat : m.isPeriodic = false) (k : Fin m.frame.spacedim) :
    m.wraps k = false :=
  Bool.eq_false_iff.mpr (List.any_eq_false.mp hflat k (List.mem_finRange k))

theorem not_periodic_of_straight (hflat : m.isPeriodic = false) (k : Fin m.frame.spacedim) :
    ¬ 0 < m.periods.get k := by
  rw [← m.wraps_iff, wraps_of_straight hflat k]
  exact Bool.false_ne_true

theorem boxFault?_of_straight (hflat : m.isPeriodic = false)
    (samples : List (Sample α m.frame.spacedim)) : m.boxFault? samples = none := by
  simp [boxFault?, wraps_of_straight hflat]

theorem place_of_straight (hflat : m.isPeriodic = false)
    (samples : List (Sample α m.frame.spacedim)) : m.place samples = average samples := by
  simp [place, average, averageAlong, wraps_of_straight hflat]

theorem newPoint_of_straight (hflat : m.isPeriodic = false)
    {samples : List (Sample α m.frame.spacedim)} (hne : samples ≠ []) :
    m.newPoint ⟨m.frame.spacedim, samples, hne⟩ = .ok (average samples) :=
  (m.newPoint_eq_ok_iff hne).mpr
    ⟨boxFault?_of_straight hflat samples, place_of_straight hflat samples⟩

end Straight

variable (m : FlatSpace ℚ)

theorem ext_axes {p q : Vector ℚ m.frame.spacedim}
    (h : ∀ k : Fin m.frame.spacedim, 0 < m.periods.get k → p.get k = q.get k)
    (h' : ∀ k : Fin m.frame.spacedim, ¬ 0 < m.periods.get k → p.get k = q.get k) : p = q := by
  ext i hi
  by_cases hL : 0 < m.periods[i]
  · exact h ⟨i, hi⟩ hL
  · exact h' ⟨i, hi⟩ hL

abbrev quadrature (samples : List (Sample ℚ m.frame.spacedim)) (hne : samples ≠ []) :
    Quadrature ℚ := ⟨m.frame.spacedim, samples, hne⟩

theorem not_offends_iff (p : Vector ℚ m.frame.spacedim) (k : Fin m.frame.spacedim) :
    ¬ m.Offends p k ↔
      (0 < m.periods.get k → p.get k ∈ Set.Ico (-(1 / 10 ^ 10)) (m.periods.get k)) := by
  rw [Offends, not_and, ← Periodic.outside_eq_false_iff]
  simp [Periodic.outside]

theorem boxFault?_eq_none_iff (samples : List (Sample ℚ m.frame.spacedim)) :
    m.boxFault? samples = none ↔ ∀ k : Fin m.frame.spacedim, 0 < m.periods.get k →
      ∀ x ∈ coordinates samples k, x ∈ Set.Ico (-(1 / 10 ^ 10)) (m.periods.get k) := by
  rw [boxFault?_eq_none_iff_offends]
  simp only [not_offends_iff, coordinates, List.forall_mem_map]
  exact ⟨fun h k hL s hs => h s hs k hL, fun h s hs k hL => h k hL s hs⟩

theorem newPoint_quadrature {samples : List (Sample ℚ m.frame.spacedim)} (hne : samples ≠ [])
    (hbox : m.boxFault? samples = none) :
    m.newPoint (m.quadrature samples hne) = .ok (m.place samples) :=
  (m.newPoint_eq_ok_iff hne).mpr ⟨hbox, rfl⟩

theorem validate_quadrature_iff (samples : List (Sample ℚ m.frame.spacedim)) (hne : samples ≠ []) :
    (m.quadrature samples hne).validate Quadrature.weightSumTolerance = .ok () ↔
      (∀ w ∈ samples.map Sample.weight, 0 ≤ w) ∧
        |(samples.map Sample.weight).sum - 1| < 1 / 10 ^ 10 :=
  (m.quadrature samples hne).validate_eq_ok_iff

section Place

variable {m} {samples : List (Sample ℚ m.frame.spacedim)} {k : Fin m.frame.spacedim}

theorem place_of_not_periodic (hk : ¬ 0 < m.periods.get k)
    (hs : |(samples.map Sample.weight).sum - 1| ≤ 1 / 10 ^ 10) :
    (m.place samples).get k =
      combination (anchored (samples.map Sample.weight)) (coordinates samples k) := by
  have hw : ¬ m.wraps k = true := mt (m.wraps_iff k).mp hk
  rw [get_place, averageAlong, if_neg hw, ← get_average_eq_combination hs, average, Vector.get_ofFn]

/-- Along a periodic axis the new point is a point of the box. The samples may lie as far below the
box as they are accepted, if the period is not of that size. -/
theorem place_of_periodic (hL : 0 < m.periods.get k) (hne : samples ≠ [])
    (hw : ∀ w ∈ samples.map Sample.weight, 0 ≤ w)
    (hs : |(samples.map Sample.weight).sum - 1| ≤ 1 / 10 ^ 10)
    (hx : ∀ x ∈ coordinates samples k, x ∈ Set.Ico (-(m.periods.get k / 4)) (m.periods.get k))
    {low : ℚ} (hlow : IsLeast {x | x ∈ coordinates samples k} low) :
    (m.place samples).get k = toIcoMod hL 0 (combination (anchored (samples.map Sample.weight))
      ((coordinates samples k).map (toIocMod hL (low - m.periods.get k / 2)))) := by
  have hwk : m.wraps k = true := (m.wraps_iff k).mpr hL
  have hl : Periodic.lowestOf (column samples k) = low := by
    rw [Periodic.lowestOf, map_value_column]
    exact (Periodic.isLeast_lowest (coordinates_ne_nil hne k)).unique hlow
  have ha := Periodic.average_eq_toIcoMod hL (column_ne_nil hne k) (by simpa using hw)
    (by simpa using hs) (by simpa using hx)
  rw [map_weight_column, map_value_column, hl] at ha
  simpa [place, averageAlong, hwk] using ha

end Place

section Box

variable {m} {samples : List (Sample ℚ m.frame.spacedim)}

variable (m) in
def InBox (p : Vector ℚ m.frame.spacedim) : Prop :=
  ∀ k : Fin m.frame.spacedim, 0 < m.periods.get k → p.get k ∈ Set.Ico 0 (m.periods.get k)

theorem coordinates_mem_Ico (h : ∀ s ∈ samples, m.InBox s.point) {k : Fin m.frame.spacedim}
    (hk : 0 < m.periods.get k) : ∀ x ∈ coordinates samples k, x ∈ Set.Ico 0 (m.periods.get k) := by
  intro x hx
  obtain ⟨s, hs, rfl⟩ := List.mem_map.mp hx
  exact h s hs k hk

theorem newPoint_of_inBox (hne : samples ≠ []) (h : ∀ s ∈ samples, m.InBox s.point) :
    m.manifold.newPoint (m.quadrature samples hne) = .ok (.ofVector (m.place samples)) := by
  have hnone : m.boxFault? samples = none := by
    rw [boxFault?_eq_none_iff]
    intro k hk x hx
    obtain ⟨h0, h1⟩ := coordinates_mem_Ico h hk x hx
    exact ⟨le_trans (by norm_num) h0, h1⟩
  exact m.manifold_newPoint_of_ok (m.newPoint_quadrature hne hnone)

theorem place_of_inBox (hne : samples ≠ []) (h : ∀ s ∈ samples, m.InBox s.point)
    (hw : ∀ w ∈ samples.map Sample.weight, 0 ≤ w)
    (hs : |(samples.map Sample.weight).sum - 1| ≤ 1 / 10 ^ 10)
    {k : Fin m.frame.spacedim} (hL : 0 < m.periods.get k) {low : ℚ}
    (hlow : IsLeast {x | x ∈ coordinates samples k} low) :
    (m.place samples).get k = toIcoMod hL 0 (combination (anchored (samples.map Sample.weight))
      ((coordinates samples k).map (toIocMod hL (low - m.periods.get k / 2)))) := by
  refine place_of_periodic hL hne hw hs (fun x hx => ?_) hlow
  obtain ⟨h0, h1⟩ := coordinates_mem_Ico h hL x hx
  exact ⟨by linarith, h1⟩

theorem place_inBox (hne : samples ≠ []) (h : ∀ s ∈ samples, m.InBox s.point)
    (hw : ∀ w ∈ samples.map Sample.weight, 0 ≤ w)
    (hs : |(samples.map Sample.weight).sum - 1| ≤ 1 / 10 ^ 10) : m.InBox (m.place samples) := by
  intro k hL
  rw [place_of_inBox hne h hw hs hL (Periodic.isLeast_lowest (coordinates_ne_nil hne k))]
  exact toIcoMod_mem_Ico' hL _

end Box

/-- The candidate of a validated quadrature lies in the box along every periodic axis, where it is
congruent to the anchored average of the representatives nearest to the lowest sample. The hook is
given the samples as they were. -/
theorem newPoint_candidate (samples : List (Sample ℚ m.frame.spacedim)) (hne : samples ≠ [])
    (hv : (m.quadrature samples hne).validate Quadrature.weightSumTolerance = .ok ())
    (hbox : ∀ k : Fin m.frame.spacedim, 0 < m.periods.get k →
      (∀ x ∈ coordinates samples k, x ∈ Set.Ico 0 (m.periods.get k)) ∨
      (1 / 10 ^ 9 ≤ m.periods.get k ∧
        ∀ x ∈ coordinates samples k, x ∈ Set.Ico (-(1 / 10 ^ 10)) (m.periods.get k))) :
    ∃ candidate : Vector ℚ m.frame.spacedim,
      (∀ projection : Projection ℚ,
        (Manifold.flat m projection).newPoint (m.quadrature samples hne) =
          projection (m.quadrature samples hne).points (.ofVector candidate)) ∧
      m.manifold.newPoint (m.quadrature samples hne) = .ok (.ofVector candidate) ∧
      ∀ k : Fin m.frame.spacedim,
        (∀ hL : 0 < m.periods.get k, ∀ low, IsLeast {x | x ∈ coordinates samples k} low →
          candidate.get k ∈ Set.Ico 0 (m.periods.get k) ∧
          candidate.get k = toIcoMod hL 0 (combination (anchored (samples.map Sample.weight))
            ((coordinates samples k).map (toIocMod hL (low - m.periods.get k / 2))))) ∧
        (m.periods.get k = 0 → candidate.get k =
          combination (anchored (samples.map Sample.weight)) (coordinates samples k)) := by
  obtain ⟨hw, hs⟩ := (m.validate_quadrature_iff samples hne).mp hv
  have hnone : m.boxFault? samples = none := by
    rw [boxFault?_eq_none_iff]
    intro k hk x hx
    rcases hbox k hk with h | ⟨-, h⟩
    · obtain ⟨h0, h1⟩ := h x hx
      exact ⟨le_trans (by norm_num) h0, h1⟩
    · exact h x hx
  have hnew := m.newPoint_quadrature hne hnone
  refine ⟨m.place samples, fun projection => ?_, ?_, fun k => ⟨fun hL low hlow => ?_, fun hk => ?_⟩⟩
  · simp [Manifold.newPoint, hnew, bind, Except.bind]
  · simp [Manifold.newPoint, Projection.identity, hnew, bind, Except.bind]
  · have hx : ∀ x ∈ coordinates samples k,
        x ∈ Set.Ico (-(m.periods.get k / 4)) (m.periods.get k) := by
      intro x hx
      rcases hbox k hL with h | ⟨h9, h⟩
      · obtain ⟨h0, h1⟩ := h x hx
        exact ⟨by linarith, h1⟩
      · obtain ⟨h0, h1⟩ := h x hx
        exact ⟨by linarith, h1⟩
    rw [place_of_periodic hL hne hw hs.le hx hlow]
    exact ⟨toIcoMod_mem_Ico' hL _, rfl⟩
  · exact place_of_not_periodic (by rw [hk]; exact lt_irrefl _) hs.le

def strip : FlatSpace ℚ :=
  ⟨⟨"strip", 2, 2, "2", "2", false, by decide, by decide⟩, #v[1, 0], by decide⟩

def stripSamples : List (Sample ℚ strip.frame.spacedim) :=
  [⟨#v[1 / 10, 1 / 10], 1 / 4⟩, ⟨#v[7 / 10, 9 / 10], 3 / 4⟩]

theorem stripSamples_ne_nil : stripSamples ≠ [] := List.cons_ne_nil _ _

theorem strip_inBox {x y : ℚ} (hx : x ∈ Set.Ico 0 1) : strip.InBox #v[x, y] :=
  Fin.forall_fin_two.mpr ⟨fun _ => hx, fun hk => absurd hk (lt_irrefl (0 : ℚ))⟩

theorem stripSamples_inBox : ∀ s ∈ stripSamples, strip.InBox s.point := by
  simp only [stripSamples, List.forall_mem_cons, List.not_mem_nil, false_imp_iff, implies_true,
    and_true]
  exact ⟨strip_inBox (by norm_num), strip_inBox (by norm_num)⟩

theorem newPoint_candidate_strip :
    (strip.quadrature stripSamples stripSamples_ne_nil).validate Quadrature.weightSumTolerance =
      .ok () ∧
    ∃ candidate : Vector ℚ 2,
      strip.manifold.newPoint (strip.quadrature stripSamples stripSamples_ne_nil) =
        .ok (.ofVector candidate) ∧ candidate.get 0 = 4 / 5 ∧ candidate.get 1 = 7 / 10 := by
  have hws : stripSamples.map Sample.weight = [1 / 4, 3 / 4] := rfl
  have hv : (strip.quadrature stripSamples stripSamples_ne_nil).validate
      Quadrature.weightSumTolerance = .ok () := by
    refine (strip.validate_quadrature_iff _ _).mpr ?_
    rw [hws]
    norm_num
  obtain ⟨candidate, -, hnew, haxes⟩ := newPoint_candidate strip stripSamples _ hv
    fun k hk => .inl (coordinates_mem_Ico stripSamples_inBox hk)
  have hleast : IsLeast {x : ℚ | x ∈ [1 / 10, 7 / 10]} (1 / 10) := by
    simp [IsLeast, lowerBounds]
    norm_num
  have h0 := ((haxes (0 : Fin 2)).1 one_pos (1 / 10) hleast).2
  have h1 := (haxes (1 : Fin 2)).2 rfl
  have hnear : toIocMod one_pos ((1 : ℚ) / 10 - 1 / 2) (1 / 10) = 1 / 10 :=
    (toIocMod_eq_iff one_pos).mpr ⟨by norm_num, 0, by simp⟩
  have hfar : toIocMod one_pos ((1 : ℚ) / 10 - 1 / 2) (7 / 10) = -3 / 10 :=
    (toIocMod_eq_iff one_pos).mpr ⟨by norm_num, 1, by norm_num⟩
  have hwrap : toIcoMod one_pos 0 (combination [1 / 4, 3 / 4] [1 / 10, -3 / 10]) = (4 : ℚ) / 5 :=
    (toIcoMod_eq_iff one_pos).mpr ⟨by norm_num [combination], -1, by norm_num [combination]⟩
  have hmean : combination [1 / 4, 3 / 4] [1 / 10, 9 / 10] = (7 : ℚ) / 10 := by
    norm_num [combination]
  rw [anchored_of_sum_eq_one (by rw [hws]; norm_num)] at h0 h1
  change candidate.get (0 : Fin 2) = toIcoMod one_pos 0 (combination [1 / 4, 3 / 4]
    [toIocMod one_pos (1 / 10 - 1 / 2) (1 / 10), toIocMod one_pos (1 / 10 - 1 / 2) (7 / 10)]) at h0
  rw [hnear, hfar, hwrap] at h0
  exact ⟨hv, candidate, hnew, h0, h1.trans hmean⟩

end FlatSpace

end VertexPlacement
