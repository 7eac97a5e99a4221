import VertexPlacement.Proofs.Quadrature
import VertexPlacement.Proofs.Flat

namespace VertexPlacement

namespace Mask

variable {β : Type}

def select : List Bool → List β → List β
  | true :: mask, x :: xs => x :: select mask xs
  | false :: mask, _ :: xs => select mask xs
  | _, _ => []

def scatter : List Bool → List β → List β → List β
  | true :: mask, _ :: xs, y :: ys => y :: scatter mask xs ys
  | false :: mask, x :: xs, ys => x :: scatter mask xs ys
  | _, xs, _ => xs

theorem length_scatter (mask : List Bool) (xs ys : List β) :
    (scatter mask xs ys).length = xs.length := by
  fun_induction scatter mask xs ys <;> simp_all

def scatterVector {n : Nat} (mask : List Bool) (v : Vector β n) (ys : List β) : Vector β n :=
  ⟨(scatter mask v.toList ys).toArray, by simp [length_scatter]⟩

section Indexed

variable {ι : Type} (p : ι → Bool) (f g : ι → β)

theorem select_map (ks : List ι) : select (ks.map p) (ks.map f) = (ks.filter p).map f := by
  induction ks with
  | nil => rfl
  | cons k ks ih => cases h : p k <;> simp [select, h, ih]

/-- What is scattered was selected by the same mask, so that every item comes to its own place. -/
theorem scatter_map (ks : List ι) : scatter (ks.map p) (ks.map f) ((ks.filter p).map g) =
    ks.map fun k => if p k then g k else f k := by
  induction ks with
  | nil => rfl
  | cons k ks ih => cases h : p k <;> simp [scatter, h, ih]

theorem findSome?_filter {γ : Type} (h : ι → Option γ) (ks : List ι) :
    (ks.filter p).findSome? h = ks.findSome? fun k => if p k then h k else none := by
  induction ks with
  | nil => rfl
  | cons k ks ih => cases hk : p k <;> simp [List.findSome?_cons, hk, ih]

end Indexed

section Vectors

variable {n : Nat} (p : Fin n → Bool) (v : Vector β n)

theorem toList_eq_map_get : v.toList = (List.finRange n).map v.get := by
  refine List.ext_getElem (by simp) fun i _ _ => ?_
  simp [Vector.get_eq_getElem]

theorem select_toList : select ((List.finRange n).map p) v.toList =
    ((List.finRange n).filter p).map v.get := by
  rw [toList_eq_map_get, select_map]

theorem get_scatterVector (g : Fin n → β) (k : Fin n) :
    (scatterVector ((List.finRange n).map p) v (((List.finRange n).filter p).map g)).get k =
      if p k then g k else v.get k := by
  have hlist : (scatterVector ((List.finRange n).map p) v
      (((List.finRange n).filter p).map g)).toList =
        (List.finRange n).map fun k => if p k then g k else v.get k := by
    rw [← scatter_map, ← toList_eq_map_get]
    simp [scatterVector]
  have hk := congrArg (·[k.val]?) hlist
  simpa [Vector.get_eq_getElem] using hk

end Vectors

end Mask

namespace FlatSpace

section Algorithm

variable {α : Type} [Scalar α] (m : FlatSpace α)

def mask : List Bool := (List.finRange m.frame.spacedim).map m.wraps

def maskedPeriods : List α := Mask.select m.mask m.periods.toList

def maskedRow (s : Sample α m.frame.spacedim) : List α := Mask.select m.mask s.point.toList

def maskedBoxFault? (samples : List (Sample α m.frame.spacedim)) : Option (Fault α) :=
  samples.zipIdx.findSome? fun (s, i) =>
    ((m.maskedRow s).zip m.maskedPeriods).findSome? fun (x, period) =>
      if Periodic.outside period x then some (.outsideBox i x period) else none

def columnMinima : List (List α) → List α
  | [] => []
  | row :: rest => rest.foldl (List.zipWith Scalar.least) row

def unwrapRow (periods lows row : List α) : List α :=
  List.zipWith (fun x (low, period) => x - if Periodic.wraps period low x then period else 0) row
    (lows.zip periods)

def unwrapSample (lows : List α) (s : Sample α m.frame.spacedim) : Sample α m.frame.spacedim :=
  s.map fun p => Mask.scatterVector m.mask p (unwrapRow m.maskedPeriods lows (m.maskedRow s))

def placeMasked (samples : List (Sample α m.frame.spacedim)) : Vector α m.frame.spacedim :=
  let lows := columnMinima (samples.map m.maskedRow)
  let result := VertexPlacement.average (samples.map (m.unwrapSample lows))
  Mask.scatterVector m.mask result
    (List.zipWith Periodic.fold m.maskedPeriods (Mask.select m.mask result.toList))

/-- Without periodic axes nothing is masked, and the box is not looked at. -/
def newPointMasked (q : Quadrature α) : Except (Fault α) (Vector α m.frame.spacedim) := do
  let samples ← m.frame.accept q
  if m.isPeriodic then
    match m.maskedBoxFault? samples with
    | some e => .error e
    | none => return m.placeMasked samples
  else return average samples

def tangentMasked (x1 x2 : Vector α m.frame.spacedim) : Vector α m.frame.spacedim :=
  let direction := Vector.zipWith (· - ·) x2 x1
  if m.isPeriodic then
    Mask.scatterVector m.mask direction
      (List.zipWith Periodic.shortest m.maskedPeriods (Mask.select m.mask direction.toList))
  else direction

def periodicAxes : List (Fin m.frame.spacedim) := (List.finRange m.frame.spacedim).filter m.wraps

variable {m}

theorem maskedPeriods_eq : m.maskedPeriods = m.periodicAxes.map m.periods.get :=
  Mask.select_toList m.wraps m.periods

theorem maskedRow_eq (s : Sample α m.frame.spacedim) :
    m.maskedRow s = m.periodicAxes.map s.point.get := Mask.select_toList m.wraps s.point

theorem findSome?_maskedRow (s : Sample α m.frame.spacedim) (i : Nat) :
    (((m.maskedRow s).zip m.maskedPeriods).findSome? fun (x, period) =>
      if Periodic.outside period x then some (Fault.outsideBox i x period) else none) =
      (List.finRange m.frame.spacedim).findSome? fun k =>
        if m.wraps k && Periodic.outside (m.periods.get k) (s.point.get k) then
          some (.outsideBox i (s.point.get k) (m.periods.get k))
        else none := by
  rw [maskedRow_eq, maskedPeriods_eq, List.zip_map', List.findSome?_map, periodicAxes,
    Mask.findSome?_filter]
  congr 1
  funext k
  cases m.wraps k <;> rfl

theorem maskedBoxFault?_eq (samples : List (Sample α m.frame.spacedim)) :
    m.maskedBoxFault? samples = m.boxFault? samples := by
  simp only [maskedBoxFault?, boxFault?, findSome?_maskedRow]

theorem foldl_least_map {ι : Type} (ks : List ι) (rest : List (Sample α m.frame.spacedim))
    (f : Sample α m.frame.spacedim → ι → α) (g : ι → α) :
    (rest.map fun s => ks.map (f s)).foldl (List.zipWith Scalar.least) (ks.map g) =
      ks.map fun k => (rest.map (f · k)).foldl Scalar.least (g k) := by
  induction rest generalizing g with
  | nil => rfl
  | cons t rest ih =>
    rw [List.map_cons, List.foldl_cons, List.zipWith_map, List.zipWith_self, ih]
    rfl

theorem columnMinima_map {ι : Type} (ks : List ι) {samples : List (Sample α m.frame.spacedim)}
    (hne : samples ≠ []) (f : Sample α m.frame.spacedim → ι → α) :
    columnMinima (samples.map fun s => ks.map (f s)) =
      ks.map fun k => Periodic.lowest (samples.map (f · k)) := by
  cases samples with
  | nil => exact absurd rfl hne
  | cons s rest => exact foldl_least_map ks rest f (f s)

theorem get_scatter_zipWith (f : α → α → α) (v : Vector α m.frame.spacedim)
    (k : Fin m.frame.spacedim) :
    (Mask.scatterVector m.mask v
      (List.zipWith f m.maskedPeriods (Mask.select m.mask v.toList))).get k =
      if m.wraps k then f (m.periods.get k) (v.get k) else v.get k := by
  rw [maskedPeriods_eq, mask, Mask.select_toList, periodicAxes, List.zipWith_map,
    List.zipWith_self, Mask.get_scatterVector]

theorem tangentMasked_eq (x1 x2 : Vector α m.frame.spacedim) :
    m.tangentMasked x1 x2 = m.tangent x1 x2 := by
  refine ext_get fun k => ?_
  rw [get_tangent, ← get_zipWith (· - ·) x2 x1 k]
  cases hm : m.isPeriodic with
  | false =>
    rw [wraps_of_straight hm, tangentMasked, hm]
    rfl
  | true =>
    rw [tangentMasked, hm]
    exact get_scatter_zipWith _ _ k

theorem get_unwrapSample (low : Fin m.frame.spacedim → α) (s : Sample α m.frame.spacedim)
    (k : Fin m.frame.spacedim) :
    (m.unwrapSample (m.periodicAxes.map low) s).point.get k =
      if m.wraps k then
        s.point.get k -
          if Periodic.wraps (m.periods.get k) (low k) (s.point.get k) then m.periods.get k else 0
      else s.point.get k := by
  rw [unwrapSample, Sample.map, unwrapRow, maskedPeriods_eq, maskedRow_eq, List.zip_map',
    List.zipWith_map, List.zipWith_self, mask, periodicAxes, Mask.get_scatterVector]

theorem columnMinima_maskedRow {samples : List (Sample α m.frame.spacedim)} (hne : samples ≠ []) :
    columnMinima (samples.map m.maskedRow) =
      m.periodicAxes.map fun k => Periodic.lowestOf (column samples k) := by
  have hrows : samples.map m.maskedRow =
      samples.map fun s => m.periodicAxes.map fun k => s.point.get k :=
    List.map_congr_left fun s _ => maskedRow_eq s
  rw [hrows, columnMinima_map _ hne]
  refine List.map_congr_left fun k _ => ?_
  rw [Periodic.lowestOf, column, List.map_map]
  rfl

section Unwrapped

variable {samples : List (Sample α m.frame.spacedim)} (hne : samples ≠ [])
  (hzero : ∀ s ∈ samples, ∀ k, s.point.get k - 0 = s.point.get k)

include hne hzero

/-- Zero is taken from the coordinates that are not moved, which must not change them. -/
theorem column_unwrapSample (k : Fin m.frame.spacedim) :
    column (samples.map (m.unwrapSample (columnMinima (samples.map m.maskedRow)))) k =
      if m.wraps k then Periodic.unwrap (m.periods.get k) (column samples k)
      else column samples k := by
  have hcolumn : column (samples.map (m.unwrapSample (columnMinima (samples.map m.maskedRow)))) k =
      samples.map fun s => ⟨if m.wraps k then s.point.get k -
        if Periodic.wraps (m.periods.get k) (Periodic.lowestOf (column samples k)) (s.point.get k)
          then m.periods.get k else 0 else s.point.get k, s.weight⟩ := by
    rw [columnMinima_maskedRow hne, column, List.map_map]
    refine List.map_congr_left fun s _ => ?_
    rw [Function.comp_apply, get_unwrapSample]
    rfl
  rw [hcolumn]
  cases m.wraps k with
  | false => rfl
  | true =>
    rw [if_pos rfl, Periodic.unwrap, column, List.map_map]
    refine List.map_congr_left fun s hs => ?_
    rw [if_pos rfl, Function.comp_apply]
    split
    · rfl
    · rw [hzero s hs]

theorem placeMasked_eq : m.placeMasked samples = m.place samples := by
  refine ext_get fun k => ?_
  rw [placeMasked, get_scatter_zipWith, average, Vector.get_ofFn, column_unwrapSample hne hzero,
    get_place, averageAlong]
  cases m.wraps k <;> rfl

theorem newPointMasked_eq_newPoint :
    m.newPointMasked ⟨m.frame.spacedim, samples, hne⟩ =
      m.newPoint ⟨m.frame.spacedim, samples, hne⟩ := by
  rw [newPointMasked, m.frame.accept_eq hne, ok_bind]
  cases hm : m.isPeriodic with
  | false =>
    rw [newPoint_of_straight hm hne]
    rfl
  | true =>
    rw [newPoint_eq, ← maskedBoxFault?_eq, ← placeMasked_eq hne hzero, if_pos rfl]
    rfl

end Unwrapped

end Algorithm

/-- All axes at once and one axis after the other make the same of every quadrature, down to the
coordinate that a fault reports. -/
theorem newPointMasked_eq {m : FlatSpace ℚ} (q : Quadrature ℚ) :
    m.newPointMasked q = m.newPoint q := by
  obtain ⟨d, samples, hne⟩ := q
  by_cases hd : d = m.frame.spacedim
  · subst hd
    exact newPointMasked_eq_newPoint hne fun s _ k => sub_zero (s.point.get k)
  · have haccept : m.frame.accept ⟨d, samples, hne⟩ = (.error _ : Except (Fault ℚ) _) := dif_neg hd
    rw [newPointMasked, newPoint, accept, haccept]
    rfl

end FlatSpace

end VertexPlacement
