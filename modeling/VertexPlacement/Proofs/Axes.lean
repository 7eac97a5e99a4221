import VertexPlacement.Proofs.Masked
import VertexPlacement.Proofs.Segment

namespace VertexPlacement

/-- A point lies outside of the periodic box. -/
def OutOfBox {α β : Type} (r : Except (Fault α) β) : Prop :=
  ∃ e, r = .error e ∧ e.kind = .breach .pointOutOfBounds

section Pick

variable {α : Type} {d e : Nat} (φ : Fin e → Fin d)

def pick (p : Vector α d) : Vector α e := .ofFn fun j => p.get (φ j)

theorem get_pick (p : Vector α d) (j : Fin e) : (pick φ p).get j = p.get (φ j) :=
  Vector.get_ofFn _ j

theorem pick_injective (hφ : Function.Surjective φ) :
    Function.Injective (pick φ : Vector α d → Vector α e) := by
  intro p q h
  refine ext_get fun k => ?_
  obtain ⟨j, rfl⟩ := hφ k
  rw [← get_pick, h, get_pick]

def pickColumns (samples : List (Sample α d)) : List (Sample α e) :=
  samples.map (Sample.map (pick φ))

theorem pickColumns_ne_nil {samples : List (Sample α d)} (hne : samples ≠ []) :
    pickColumns φ samples ≠ [] := mt List.map_eq_nil_iff.mp hne

abbrev Quadrature.picked (samples : List (Sample α d)) (hne : samples ≠ []) : Quadrature α :=
  ⟨e, pickColumns φ samples, pickColumns_ne_nil φ hne⟩

abbrev Quadrature.along (k : Fin d) (samples : List (Sample α d)) (hne : samples ≠ []) :
    Quadrature α := .picked (fun _ : Fin 1 => k) samples hne

theorem column_pickColumns (samples : List (Sample α d)) (j : Fin e) :
    column (pickColumns φ samples) j = column samples (φ j) := by
  rw [pickColumns, column, List.map_map]
  refine List.map_congr_left fun s _ => ?_
  rw [Function.comp_apply, Sample.map, get_pick]

end Pick

namespace FlatSpace

section Axes

variable {α : Type} [Scalar α]

/-- A space that has some of the axes, in any order. -/
abbrev onAxes (m : FlatSpace α) (f : Frame) (φ : Fin f.spacedim → Fin m.frame.spacedim) :
    FlatSpace α where
  frame := f
  periods := pick φ m.periods
  period_ok j := by
    rw [get_pick]
    exact m.period_ok (φ j)

abbrev axis (m : FlatSpace α) (k : Fin m.frame.spacedim) : FlatSpace α :=
  m.onAxes ⟨m.frame.label, 1, 1, "1", "1", false, .inl rfl, le_rfl⟩ fun _ => k

theorem make_axis (m : FlatSpace α) (k : Fin m.frame.spacedim) :
    make (m.axis k).frame (some (.ofVector #v[m.periods.get k])) = .ok (m.axis k) :=
  dif_pos (c := ∀ x ∈ [m.periods.get k], ¬ x < 0)
    (List.forall_mem_singleton.mpr (m.period_ok k))

variable {m : FlatSpace α} {samples : List (Sample α m.frame.spacedim)}

theorem averageAlong_congr {m' : FlatSpace α} {samples' : List (Sample α m'.frame.spacedim)}
    {k : Fin m.frame.spacedim} {k' : Fin m'.frame.spacedim}
    (hL : m.periods.get k = m'.periods.get k') (hc : column samples k = column samples' k') :
    m.averageAlong samples k = m'.averageAlong samples' k' := by
  have hw : m.wraps k = m'.wraps k' := by rw [wraps, wraps, hL]
  rw [averageAlong, averageAlong, hw, hL, hc]

theorem manifold_newPoint_eq_error_iff (hne : samples ≠ []) {e : Fault α} :
    m.manifold.newPoint ⟨m.frame.spacedim, samples, hne⟩ = .error e ↔
      m.boxFault? samples = some e :=
  (bind_eq_error_iff fun p _ => ⟨.ofVector p, rfl⟩).trans (m.newPoint_eq_error_iff hne)

theorem outOfBox_iff_of_errors {β : Type} {r : Except (Fault α) β}
    (h : ∀ e, r = .error e ↔ m.boxFault? samples = some e) :
    OutOfBox r ↔ m.boxFault? samples ≠ none := by
  rw [Option.ne_none_iff_exists']
  constructor
  · rintro ⟨e, he, -⟩
    exact ⟨e, (h e).mp he⟩
  · rintro ⟨e, he⟩
    exact ⟨e, (h e).mpr he, m.kind_of_boxFault? he⟩

theorem outOfBox_iff (hne : samples ≠ []) :
    OutOfBox (m.manifold.newPoint ⟨m.frame.spacedim, samples, hne⟩) ↔
      m.boxFault? samples ≠ none :=
  outOfBox_iff_of_errors fun _ => manifold_newPoint_eq_error_iff hne

variable {f : Frame} (φ : Fin f.spacedim → Fin m.frame.spacedim)

theorem place_onAxes : (m.onAxes f φ).place (pickColumns φ samples) = pick φ (m.place samples) := by
  refine ext_get fun j => ?_
  rw [get_place, get_pick, get_place]
  exact averageAlong_congr (get_pick φ m.periods j) (column_pickColumns φ samples j)

theorem tangent_onAxes (a b : Vector α m.frame.spacedim) :
    (m.onAxes f φ).tangent (pick φ a) (pick φ b) = pick φ (m.tangent a b) := by
  refine ext_get fun j => ?_
  rw [get_tangent, wraps, get_pick, get_pick, get_pick, get_pick, get_tangent, wraps]

end Axes

section Exact

variable {m : FlatSpace ℚ} {samples : List (Sample ℚ m.frame.spacedim)}

theorem manifold_newPoint_eq_ok_iff (hne : samples ≠ []) {r : Vector ℚ m.frame.spacedim} :
    m.manifold.newPoint (m.quadrature samples hne) = .ok (.ofVector r) ↔
      m.boxFault? samples = none ∧ m.place samples = r := by
  rw [← m.newPoint_eq_ok_iff hne, manifold_newPoint]
  cases m.newPoint ⟨m.frame.spacedim, samples, hne⟩ with
  | error e => exact ⟨nofun, nofun⟩
  | ok p => simp [Except.map, Tensor.ofVector_injective.eq_iff]

/-- Along an axis all samples lie in the box, up to the tolerance below. -/
def Accepts (m : FlatSpace ℚ) (samples : List (Sample ℚ m.frame.spacedim))
    (k : Fin m.frame.spacedim) : Prop :=
  0 < m.periods.get k → ∀ x ∈ coordinates samples k,
    x ∈ Set.Ico (-(1 / 10 ^ 10)) (m.periods.get k)

theorem boxFault?_eq_none_iff_accepts :
    m.boxFault? samples = none ↔ ∀ k, m.Accepts samples k := m.boxFault?_eq_none_iff samples

theorem boxFault?_onAxes_eq_none_iff {f : Frame} (φ : Fin f.spacedim → Fin m.frame.spacedim) :
    (m.onAxes f φ).boxFault? (pickColumns φ samples) = none ↔ ∀ j, m.Accepts samples (φ j) := by
  rw [boxFault?_eq_none_iff_accepts]
  refine forall_congr' fun j => ?_
  rw [Accepts, Accepts, get_pick, ← map_value_column, column_pickColumns, map_value_column]

theorem boxFault?_axis_eq_none_iff (k : Fin m.frame.spacedim) :
    (m.axis k).boxFault? (pickColumns (fun _ => k) samples) = none ↔ m.Accepts samples k :=
  (boxFault?_onAxes_eq_none_iff fun _ => k).trans Fin.forall_fin_one

abbrev reorderAxes (m : FlatSpace ℚ) (σ : Equiv.Perm (Fin m.frame.spacedim)) : FlatSpace ℚ :=
  m.onAxes m.frame σ

theorem boxFault?_reorderAxes_eq_none_iff (σ : Equiv.Perm (Fin m.frame.spacedim)) :
    (m.reorderAxes σ).boxFault? (pickColumns σ samples) = none ↔ m.boxFault? samples = none := by
  rw [boxFault?_onAxes_eq_none_iff, boxFault?_eq_none_iff_accepts]
  exact σ.surjective.forall.symm

theorem outOfBox_iff_axis (hne : samples ≠ []) :
    OutOfBox (m.manifold.newPoint (m.quadrature samples hne)) ↔
      ∃ k, OutOfBox ((m.axis k).manifold.newPoint (.along k samples hne)) := by
  have haxis (k : Fin m.frame.spacedim) :
      OutOfBox ((m.axis k).manifold.newPoint (.along k samples hne)) ↔
        ¬ m.Accepts samples k :=
    ((m.axis k).outOfBox_iff _).trans (boxFault?_axis_eq_none_iff k).not
  rw [outOfBox_iff, Ne, boxFault?_eq_none_iff_accepts, not_forall]
  exact exists_congr fun k => (haxis k).symm

theorem newPoint_axis {hne : samples ≠ []} {r : Vector ℚ m.frame.spacedim}
    (h : m.manifold.newPoint (m.quadrature samples hne) = .ok (.ofVector r))
    (k : Fin m.frame.spacedim) :
    (m.axis k).manifold.newPoint (.along k samples hne) = .ok (.ofVector #v[r.get k]) := by
  obtain ⟨hbox, rfl⟩ := (manifold_newPoint_eq_ok_iff hne).mp h
  refine (manifold_newPoint_eq_ok_iff (m := m.axis k) _).mpr ⟨?_, place_onAxes fun _ => k⟩
  exact (boxFault?_axis_eq_none_iff k).mpr (boxFault?_eq_none_iff_accepts.mp hbox k)

theorem newPoint_reorderAxes (hne : samples ≠ []) (σ : Equiv.Perm (Fin m.frame.spacedim))
    (r : Vector ℚ m.frame.spacedim) :
    (m.reorderAxes σ).manifold.newPoint (.picked σ samples hne) = .ok (.ofVector (pick σ r)) ↔
      m.manifold.newPoint (m.quadrature samples hne) = .ok (.ofVector r) := by
  refine (manifold_newPoint_eq_ok_iff (m := m.reorderAxes σ) _).trans ?_
  rw [boxFault?_reorderAxes_eq_none_iff, place_onAxes, (pick_injective σ σ.surjective).eq_iff]
  exact (manifold_newPoint_eq_ok_iff hne).symm

theorem tangent_picked {f : Frame} (φ : Fin f.spacedim → Fin m.frame.spacedim)
    (a b : Vector ℚ m.frame.spacedim) :
    (m.onAxes f φ).manifold.tangent (.ofVector (pick φ a)) (.ofVector (pick φ b)) =
      .ok (.ofVector (pick φ (m.tangent a b))) := by
  rw [tangent_of_point (m := m.onAxes f φ) (asPoint_ofVector _ _) (asPoint_ofVector _ _),
    tangent_onAxes]

theorem newPoint_eq_plain (hm : m.isPeriodic = false) (q : Quadrature ℚ) :
    m.manifold.newPoint q = (Manifold.plain m.frame .identity).newPoint q := by
  rw [Manifold.newPoint, Manifold.newPoint, newPoint, accept]
  cases m.frame.accept q with
  | error e => rfl
  | ok samples =>
    rw [ok_bind, ok_bind, boxFault?_of_straight hm, ← place_of_straight hm]
    rfl

/-- In exact arithmetic flat space is the product of its axes, although all periodic ones are
treated at once. A point lies outside of the box if it does so along one axis. Otherwise every
coordinate of a new point is that of the axis, which no other axis has a part in. -/
theorem newPoint_axes (m : FlatSpace ℚ) :
    (∀ q, m.manifold.newPoint q = (m.newPointMasked q).map .ofVector) ∧
    (∀ (samples : List (Sample ℚ m.frame.spacedim)) (hne : samples ≠ []),
      (OutOfBox (m.manifold.newPoint (m.quadrature samples hne)) ↔
        ∃ k, OutOfBox ((m.axis k).manifold.newPoint (.along k samples hne))) ∧
      (¬ OutOfBox (m.manifold.newPoint (m.quadrature samples hne)) →
        ∃ r : Vector ℚ m.frame.spacedim,
          m.manifold.newPoint (m.quadrature samples hne) = .ok (.ofVector r) ∧
          ∀ k, (m.axis k).manifold.newPoint (.along k samples hne) =
            .ok (.ofVector #v[r.get k]))) ∧
    (∀ k, m.periods.get k = 0 → ∀ q, (m.axis k).manifold.newPoint q =
      (Manifold.plain (m.axis k).frame .identity).newPoint q) ∧
    (∀ (x1 x2 : Tensor ℚ) (a b : Vector ℚ m.frame.spacedim),
      m.frame.point x1 = .ok a → m.frame.point x2 = .ok b →
      m.manifold.tangent x1 x2 = .ok (.ofVector (m.tangentMasked a b)) ∧
      ∀ k, (m.axis k).manifold.tangent (.ofVector #v[a.get k]) (.ofVector #v[b.get k]) =
        .ok (.ofVector #v[(m.tangentMasked a b).get k])) ∧
    (∀ (m' : FlatSpace ℚ) {samples : List (Sample ℚ m.frame.spacedim)}
      {samples' : List (Sample ℚ m'.frame.spacedim)} (hne : samples ≠ []) (hne' : samples' ≠ [])
      {r : Vector ℚ m.frame.spacedim} {r' : Vector ℚ m'.frame.spacedim}
      (k : Fin m.frame.spacedim) (k' : Fin m'.frame.spacedim),
      m.periods.get k = m'.periods.get k' → column samples k = column samples' k' →
      m.manifold.newPoint (m.quadrature samples hne) = .ok (.ofVector r) →
      m'.manifold.newPoint (m'.quadrature samples' hne') = .ok (.ofVector r') →
      r.get k = r'.get k') ∧
    ∀ σ : Equiv.Perm (Fin m.frame.spacedim),
      (∀ (samples : List (Sample ℚ m.frame.spacedim)) (hne : samples ≠ [])
        (r : Vector ℚ m.frame.spacedim),
        (m.reorderAxes σ).manifold.newPoint (.picked σ samples hne) = .ok (.ofVector (pick σ r)) ↔
          m.manifold.newPoint (m.quadrature samples hne) = .ok (.ofVector r)) ∧
      ∀ a b : Vector ℚ m.frame.spacedim,
        (m.reorderAxes σ).manifold.tangent (.ofVector (pick σ a)) (.ofVector (pick σ b)) =
          .ok (.ofVector (pick σ (m.tangentMasked a b))) := by
  refine ⟨fun q => ?_, fun samples hne => ⟨outOfBox_iff_axis hne, fun hin => ?_⟩, fun k hk => ?_,
    fun x1 x2 a b h1 h2 => ?_, ?_, fun σ => ⟨fun samples hne r => newPoint_reorderAxes hne σ r, ?_⟩⟩
  · rw [newPointMasked_eq, manifold_newPoint]
  · have hbox : m.boxFault? samples = none := not_not.mp ((outOfBox_iff hne).not.mp hin)
    have hnew := (manifold_newPoint_eq_ok_iff hne).mpr ⟨hbox, rfl⟩
    exact ⟨_, hnew, newPoint_axis hnew⟩
  · refine newPoint_eq_plain (List.any_eq_false.mpr fun j _ => ?_)
    rw [wraps_iff, get_pick, hk]
    exact lt_irrefl 0
  · rw [tangentMasked_eq]
    exact ⟨tangent_of_point h1 h2, fun k => tangent_picked (fun _ => k) a b⟩
  · intro m' samples samples' hne hne' r r' k k' hL hc h h'
    obtain ⟨-, rfl⟩ := (manifold_newPoint_eq_ok_iff hne).mp h
    obtain ⟨-, rfl⟩ := (manifold_newPoint_eq_ok_iff hne').mp h'
    rw [get_place, get_place, averageAlong_congr hL hc]
  · intro a b
    rw [tangentMasked_eq, tangent_picked]

end Exact

def channel : FlatSpace ℚ :=
  ⟨⟨"channel", 1, 3, "1", "3", false, by decide, by decide⟩, #v[1, 0, 2], by decide⟩

def channelSamples : List (Sample ℚ channel.frame.spacedim) :=
  [⟨#v[1 / 10, 1, 1 / 2], 1 / 4⟩, ⟨#v[7 / 10, 3, 3 / 2], 3 / 4⟩]

theorem channelSamples_ne_nil : channelSamples ≠ [] := List.cons_ne_nil _ _

def ends : Equiv.Perm (Fin channel.frame.spacedim) := Equiv.swap (0 : Fin 3) (2 : Fin 3)

theorem newPoint_axes_channel :
    ¬ OutOfBox (channel.manifold.newPoint
      (channel.quadrature channelSamples channelSamples_ne_nil)) ∧
    channel.manifold.newPoint (channel.quadrature channelSamples channelSamples_ne_nil) =
      .ok (.ofVector #v[4 / 5, 5 / 2, 5 / 4]) ∧
    (channel.axis (0 : Fin 3)).manifold.newPoint
      (.along (0 : Fin 3) channelSamples channelSamples_ne_nil) = .ok (.ofVector #v[4 / 5]) ∧
    (Manifold.plain (channel.axis (1 : Fin 3)).frame .identity).newPoint
      (.along (1 : Fin 3) channelSamples channelSamples_ne_nil) = .ok (.ofVector #v[5 / 2]) ∧
    (channel.axis (0 : Fin 3)).manifold.tangent (.ofVector #v[1 / 10]) (.ofVector #v[7 / 10]) =
      .ok (.ofVector #v[-2 / 5]) ∧
    (strip.place stripSamples).get (0 : Fin 2) = 4 / 5 ∧
    (channel.reorderAxes ends).manifold.newPoint
      (.picked ends channelSamples channelSamples_ne_nil) =
        .ok (.ofVector #v[5 / 4, 5 / 2, 4 / 5]) := by
  obtain ⟨-, hpoint, hplain, htangent, halone, horder⟩ := newPoint_axes channel
  have hbox : channel.boxFault? channelSamples = none := by decide +kernel
  have hin := (outOfBox_iff channelSamples_ne_nil).not.mpr (not_not.mpr hbox)
  have hplace : channel.place channelSamples = #v[4 / 5, 5 / 2, 5 / 4] :=
    Vector.toList_inj.mp (by decide +kernel)
  have hway : channel.tangentMasked #v[1 / 10, 1, 1 / 2] #v[7 / 10, 3, 3 / 2] = #v[-2 / 5, 2, 1] :=
    Vector.toList_inj.mp (by decide +kernel)
  obtain ⟨r, hr, haxes⟩ := (hpoint channelSamples channelSamples_ne_nil).2 hin
  obtain rfl : #v[4 / 5, 5 / 2, 5 / 4] = r :=
    hplace.symm.trans ((manifold_newPoint_eq_ok_iff channelSamples_ne_nil).mp hr).2
  refine ⟨hin, hr, haxes (0 : Fin 3), ?_, ?_, ?_, ?_⟩
  · exact (hplain (1 : Fin 3) rfl _).symm.trans (haxes (1 : Fin 3))
  · have haxis := (htangent _ _ #v[1 / 10, 1, 1 / 2] #v[7 / 10, 3, 3 / 2] (asPoint_ofVector _ _)
      (asPoint_ofVector _ _)).2 (0 : Fin 3)
    rwa [hway] at haxis
  · exact (halone strip channelSamples_ne_nil stripSamples_ne_nil (0 : Fin 3) (0 : Fin 2) rfl rfl hr
      (newPoint_of_inBox stripSamples_ne_nil stripSamples_inBox)).symm
  · exact ((horder ends).1 channelSamples channelSamples_ne_nil _).mpr hr

end FlatSpace

end VertexPlacement
