import VertexPlacement.Proofs.Axes
import VertexPlacement.Proofs.Lockstep
import VertexPlacement.Proofs.Offence

namespace VertexPlacement

section Search

variable {β γ δ : Type}

theorem rel_findSome? {r : γ → δ → Prop} {f : β → Option γ} {g : β → Option δ} {items : List β}
    (h : ∀ a ∈ items, Option.Rel r (f a) (g a)) :
    Option.Rel r (items.findSome? f) (items.findSome? g) := by
  induction items with
  | nil => exact .none
  | cons a rest ih =>
    rw [List.findSome?_cons, List.findSome?_cons]
    have ha := h a List.mem_cons_self
    generalize f a = o at ha ⊢
    generalize g a = o' at ha ⊢
    cases ha with
    | some hcd => exact .some hcd
    | none => exact ih fun b hb => h b (List.mem_cons_of_mem a hb)

theorem bind_of_rel {look : γ → Option δ} {o : Option γ} {o' : Option δ}
    (h : Option.Rel (fun c d => look c = some d) o o') : o.bind look = o' := by
  cases h with
  | some h => exact h
  | none => rfl

theorem findSome?_eq_zipIdx (f : β → Option γ) (items : List β) :
    items.findSome? f = items.zipIdx.findSome? fun (a, _) => f a := by
  conv_lhs => rw [← List.zipIdx_map_fst 0 items, List.findSome?_map]
  rfl

theorem findSome?_zipIdx_congr {r : β → β → Prop} {xs ys : List β} (h : List.Forall₂ r xs ys)
    {f : β × Nat → Option γ} (hf : ∀ x y i, r x y → f (x, i) = f (y, i)) (n : Nat) :
    (xs.zipIdx n).findSome? f = (ys.zipIdx n).findSome? f := by
  induction h generalizing n with
  | nil => rfl
  | cons hxy _ ih =>
    rw [List.zipIdx_cons, List.zipIdx_cons, List.findSome?_cons, List.findSome?_cons,
      hf _ _ n hxy, ih]

end Search

namespace Mask

def marked (rows : List (List Bool)) : List (Nat × Nat) :=
  rows.zipIdx.flatMap fun (row, i) =>
    row.zipIdx.filterMap fun (mark, j) => if mark then some (i, j) else none

theorem head?_marked (rows : List (List Bool)) :
    (marked rows).head? = rows.zipIdx.findSome? fun (row, i) =>
      row.zipIdx.findSome? fun (mark, j) => if mark then some (i, j) else none := by
  rw [marked, List.head?_flatMap]
  simp only [List.head?_filterMap]

end Mask

namespace FlatSpace

variable {α : Type} [Scalar α] {m : FlatSpace α} {samples : List (Sample α m.frame.spacedim)}
  {e : Fault α}

section Matrix

variable (m) in
def matrixFault? (matrix : List (List α)) (place : Nat × Nat) : Option (Fault α) := do
  let row ← matrix[place.1]?
  return .outsideBox place.1 (← row[place.2]?) (← m.maskedPeriods[place.2]?)

variable (m) in
def matrixBoxFault? (samples : List (Sample α m.frame.spacedim)) : Option (Fault α) :=
  let matrix := samples.map m.maskedRow
  let offences := matrix.map fun row => List.zipWith Periodic.outside m.maskedPeriods row
  (Mask.marked offences).head?.bind (m.matrixFault? matrix)

theorem matrixFault?_eq {s : Sample α m.frame.spacedim} {i j : Nat} {k : Fin m.frame.spacedim}
    (hs : samples[i]? = some s) (hk : m.periodicAxes[j]? = some k) :
    m.matrixFault? (samples.map m.maskedRow) (i, j) =
      some (.outsideBox i (s.point.get k) (m.periods.get k)) := by
  simp [matrixFault?, hs, hk, maskedRow_eq, maskedPeriods_eq]

/-- The first mark of a row is at the first periodic axis along which the sample offends. -/
theorem rel_row {s : Sample α m.frame.spacedim} {i : Nat} (hs : samples[i]? = some s) :
    Option.Rel (fun place e => m.matrixFault? (samples.map m.maskedRow) place = some e)
      ((List.zipWith Periodic.outside m.maskedPeriods (m.maskedRow s)).zipIdx.findSome?
        fun (mark, j) => if mark then some (i, j) else none)
      (((m.maskedRow s).zip m.maskedPeriods).findSome? fun (x, period) =>
        if Periodic.outside period x then some (.outsideBox i x period) else none) := by
  rw [maskedRow_eq, maskedPeriods_eq, List.zipWith_map, List.zipWith_self, List.zipIdx_map,
    List.findSome?_map, List.zip_map', List.findSome?_map, findSome?_eq_zipIdx _ m.periodicAxes]
  refine rel_findSome? fun ⟨k, j⟩ hk => ?_
  have hj := List.mk_mem_zipIdx_iff_getElem?.mp hk
  by_cases ho : Periodic.outside (m.periods.get k) (s.point.get k) = true
  · simpa [ho] using matrixFault?_eq hs hj
  · simp [ho]

theorem matrixBoxFault?_eq (samples : List (Sample α m.frame.spacedim)) :
    m.matrixBoxFault? samples = m.maskedBoxFault? samples := by
  rw [matrixBoxFault?, Mask.head?_marked, List.map_map, List.zipIdx_map, List.findSome?_map]
  refine bind_of_rel (rel_findSome? fun ⟨s, i⟩ hs => ?_)
  exact rel_row (List.mk_mem_zipIdx_iff_getElem?.mp hs)

end Matrix

variable (m samples) in
/-- An outcome fails when a sample offends, and then with the fault of the first offence. It has no
other way to fail. -/
structure Refuses {β : Type} (r : Except (Fault α) β) : Prop where
  outOfBox_iff : OutOfBox r ↔ ∃ s ∈ samples, ∃ k, m.Offends s.point k
  error_iff : ∀ e, r = .error e ↔ ∃ i s k, m.FirstOffence samples i s k ∧
    e = .outsideBox i (s.point.get k) (m.periods.get k)

theorem refuses_of_errors {β : Type} {r : Except (Fault α) β}
    (h : ∀ e, r = .error e ↔ m.boxFault? samples = some e) : m.Refuses samples r := by
  refine ⟨?_, fun e => (h e).trans boxFault?_eq_some_iff⟩
  rw [outOfBox_iff_of_errors h, Ne, boxFault?_eq_none_iff_offends]
  push Not
  rfl

theorem newPointMasked_eq_error_iff (hne : samples ≠ []) :
    m.newPointMasked ⟨m.frame.spacedim, samples, hne⟩ = .error e ↔
      m.boxFault? samples = some e := by
  rw [newPointMasked, m.frame.accept_eq hne, ok_bind]
  cases hm : m.isPeriodic with
  | false =>
    simp [boxFault?_of_straight hm, pure, Except.pure]
  | true =>
    rw [if_pos rfl, maskedBoxFault?_eq]
    cases m.boxFault? samples with
    | none => simp [pure, Except.pure]
    | some e' => simp

theorem boxFault?_congr {samples' : List (Sample α m.frame.spacedim)}
    (h : List.Forall₂ (fun s t => ∀ k, 0 < m.periods.get k → s.point.get k = t.point.get k)
      samples samples') : m.boxFault? samples = m.boxFault? samples' := by
  refine findSome?_zipIdx_congr h (fun s t i hst => ?_) 0
  refine congrArg (List.findSome? · _) (funext fun k => ?_)
  by_cases hk : 0 < m.periods.get k
  · rw [hst k hk]
  · simp [wraps, hk]

end FlatSpace

namespace Chart

variable {α : Type} [Scalar α] {c : Chart α} {samples : List (Sample α c.frame.spacedim)}
  {us : List (Sample α c.chartdim)} {e : Fault α}

theorem manifold_newPoint_eq_error_iff (h : c.Pulled samples us) (hne : samples ≠ [])
    (hpush : ∀ u, c.sub.newPoint ⟨c.chartdim, us, h.ne_nil hne⟩ = .ok u →
      ∃ p, c.toSpace u = .ok p) :
    (Manifold.chart c).newPoint ⟨c.frame.spacedim, samples, hne⟩ = .error e ↔
      c.sub.boxFault? us = some e := by
  refine (bind_eq_error_iff fun p _ => ⟨.ofVector p, rfl⟩).trans ?_
  rw [newPoint_of_pulled h hne (h.ne_nil hne)]
  exact (bind_eq_error_iff hpush).trans (c.sub.newPoint_eq_error_iff _)

end Chart

/-- Samples are refused when one of them, of whatever weight, lies out of the box along a periodic
axis. The fault is that of the least sample which does so along the least such axis, although it is
looked up in the matrix of the periodic columns. Manifolds with a chart refuse the samples that they
pull back. -/
theorem newPoint_refuses (α : Type) [Scalar α] :
    (∀ (m : FlatSpace α) (samples : List (Sample α m.frame.spacedim)) (hne : samples ≠ []),
      m.Refuses samples (m.manifold.newPoint ⟨m.frame.spacedim, samples, hne⟩) ∧
      m.Refuses samples (m.newPointMasked ⟨m.frame.spacedim, samples, hne⟩) ∧
      m.matrixBoxFault? samples = m.maskedBoxFault? samples ∧
      ∀ (samples' : List (Sample α m.frame.spacedim)) (hne' : samples' ≠ []),
        List.Forall₂ (fun s t => ∀ k, 0 < m.periods.get k → s.point.get k = t.point.get k)
          samples samples' →
        ∀ e, m.manifold.newPoint ⟨m.frame.spacedim, samples, hne⟩ = .error e ↔
          m.manifold.newPoint ⟨m.frame.spacedim, samples', hne'⟩ = .error e) ∧
    ∀ (c : Chart α) (samples : List (Sample α c.frame.spacedim)) (hne : samples ≠ [])
      (us : List (Sample α c.chartdim)) (h : c.Pulled samples us),
      (∀ u, c.sub.newPoint ⟨c.chartdim, us, h.ne_nil hne⟩ = .ok u → ∃ p, c.toSpace u = .ok p) →
        c.sub.Refuses us ((Manifold.chart c).newPoint ⟨c.frame.spacedim, samples, hne⟩) := by
  refine ⟨fun m samples hne => ⟨?_, ?_, m.matrixBoxFault?_eq samples, ?_⟩, ?_⟩
  · exact m.refuses_of_errors fun e => m.manifold_newPoint_eq_error_iff hne
  · exact m.refuses_of_errors fun e => m.newPointMasked_eq_error_iff hne
  · intro samples' hne' hsame e
    rw [m.manifold_newPoint_eq_error_iff hne, m.manifold_newPoint_eq_error_iff hne',
      m.boxFault?_congr hsame]
  · intro c samples hne us h hpush
    exact c.sub.refuses_of_errors fun e => c.manifold_newPoint_eq_error_iff h hne hpush

namespace FlatSpace

/-- The first sample is within the tolerance, and the second one is out of the box by its last
coordinate alone. -/
def strayed : List (Sample ℚ channel.frame.spacedim) :=
  [⟨#v[1 / 2, 50, -1 / 10 ^ 11], 1 / 2⟩, ⟨#v[1 / 2, 7, 2], 0⟩, ⟨#v[-1, 0, 3], 5⟩]

def strayedAlike : List (Sample ℚ channel.frame.spacedim) :=
  [⟨#v[1 / 2, 0, -1 / 10 ^ 11], 0⟩, ⟨#v[1 / 2, -3, 2], 1⟩, ⟨#v[-1, 8, 3], -1⟩]

theorem newPoint_refuses_channel :
    channel.manifold.newPoint ⟨channel.frame.spacedim, strayed, List.cons_ne_nil _ _⟩ =
      .error (.outsideBox 1 2 2) ∧
    channel.newPointMasked ⟨channel.frame.spacedim, strayed, List.cons_ne_nil _ _⟩ =
      .error (.outsideBox 1 2 2) ∧
    channel.manifold.newPoint ⟨channel.frame.spacedim, strayedAlike, List.cons_ne_nil _ _⟩ =
      .error (.outsideBox 1 2 2) ∧
    OutOfBox ((Manifold.chart Chart.doubledStrip).newPoint
      ⟨Chart.doubledStrip.frame.spacedim, [⟨#v[2, 0], 1⟩], List.cons_ne_nil _ _⟩) := by
  obtain ⟨hflat, hchart⟩ := newPoint_refuses ℚ
  obtain ⟨hnew, hmasked, -, halike⟩ := hflat channel strayed (List.cons_ne_nil _ _)
  have hfirst : channel.FirstOffence strayed 1 ⟨#v[1 / 2, 7, 2], 0⟩ ⟨2, by decide⟩ := by
    refine ⟨rfl, by decide +kernel, fun j hj t ht => ?_, by decide +kernel⟩
    obtain rfl : j = 0 := Nat.lt_one_iff.mp hj
    cases ht
    decide +kernel
  have hsame : List.Forall₂ (fun s t => ∀ k, 0 < channel.periods.get k →
      s.point.get k = t.point.get k) strayed strayedAlike :=
    .cons (by decide +kernel) (.cons (by decide +kernel) (.cons (by decide +kernel) .nil))
  have hfault := (hnew.error_iff (.outsideBox 1 2 2)).mpr ⟨1, _, _, hfirst, rfl⟩
  refine ⟨hfault, (hmasked.error_iff _).mpr ⟨1, _, _, hfirst, rfl⟩,
    (halike strayedAlike (List.cons_ne_nil _ _) hsame _).mp hfault, ?_⟩
  have hhalf : (#v[2, 0] : Vector ℚ 2).map (· / 2) = #v[1, 0] :=
    Vector.toList_inj.mp (by decide +kernel)
  have hpull : Chart.doubledStrip.Pulled [⟨#v[2, 0], 1⟩] [⟨#v[1, 0], 1⟩] :=
    .cons ⟨Chart.toChart_of_pullBack (congrArg Except.ok ((Tensor.map_ofVector _ _).trans
      (congrArg Tensor.ofVector hhalf))), rfl⟩ .nil
  have hpush (u : Vector ℚ Chart.doubledStrip.chartdim) :
      Chart.doubledStrip.toSpace u = .ok (u.map (2 * ·)) :=
    Chart.toSpace_of_pushForward (congrArg Except.ok (Tensor.map_ofVector _ u))
  refine (hchart Chart.doubledStrip _ (List.cons_ne_nil _ _) _ hpull
    fun u _ => ⟨_, hpush u⟩).outOfBox_iff.mpr ⟨_, List.mem_cons_self, ⟨0, by decide⟩, ?_⟩
  decide +kernel

end FlatSpace

end VertexPlacement
