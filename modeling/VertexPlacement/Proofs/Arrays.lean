import VertexPlacement.Proofs.Means
import VertexPlacement.Proofs.Quadrature

namespace VertexPlacement

variable {α β γ : Type} {d : Nat}

namespace Tensor

theorem eq_of_entries {a b : Tensor α} (hs : a.shape = b.shape) (he : a.entries = b.entries) :
    a = b := by
  cases a
  cases b
  cases hs
  cases he
  rfl

section Spread

theorem flatMap_range_runs (r : Nat) {n : Nat} {xs : List α} (h : xs.length = n * r) :
    ((List.range n).flatMap fun i => (xs.drop (i * r)).take r) = xs := by
  induction n generalizing xs with
  | zero =>
    rw [Nat.zero_mul] at h
    simp [List.length_eq_zero_iff.mp h]
  | succ n ih =>
    have hrest : (xs.drop r).length = n * r := by
      rw [List.length_drop, h, Nat.succ_mul, Nat.add_sub_cancel]
    have hstep : ∀ i, (xs.drop ((i + 1) * r)).take r = ((xs.drop r).drop (i * r)).take r := by
      intro i
      rw [List.drop_drop, Nat.succ_mul, Nat.add_comm]
    have htail := ih hrest
    rw [List.range_succ_eq_map, List.flatMap_cons, List.flatMap_map]
    simp only [Nat.succ_eq_add_one, hstep, htail, Nat.zero_mul, List.drop_zero,
      List.take_append_drop]

theorem spread_self {s : List Nat} {xs : List α} (h : xs.length = entryCount s) :
    spread s s xs = xs := by
  induction s generalizing xs with
  | nil => rfl
  | cons n s ih =>
    have hrow : ∀ i ∈ List.range n, spread s s ((xs.drop (i * entryCount s)).take (entryCount s)) =
        (xs.drop (i * entryCount s)).take (entryCount s) := by
      intro i hi
      have hle := block_le (r := entryCount s) (List.mem_range.mp hi)
      refine ih ?_
      rw [List.length_take, List.length_drop, h, entryCount_cons]
      omega
    rw [spread, if_pos rfl, List.flatMap_congr hrow]
    exact flatMap_range_runs _ h

theorem spread_row (n : Nat) (r : Vector α d) :
    spread [1, d] [n, d] r.toList = (List.replicate n r.toList).flatten := by
  have hrow : spread [d] [d] r.toList = r.toList := spread_self (by simp)
  rw [spread]
  split
  · next h1 =>
    have htake : r.toList.take d = r.toList := List.take_of_length_le (by simp)
    simp [← h1, htake, hrow]
  · rw [hrow]

theorem zipWith_flatMap_toList (f : α → β → γ) (points : List (Vector α d)) (r : Vector β d) :
    List.zipWith f (points.flatMap Vector.toList) (List.replicate points.length r.toList).flatten =
      (points.map fun p => Vector.zipWith f p r).flatMap Vector.toList := by
  induction points with
  | nil => rfl
  | cons p rest ih =>
    rw [List.flatMap_cons, List.length_cons, List.replicate_succ, List.flatten_cons,
      List.zipWith_append (by simp), ih, List.map_cons, List.flatMap_cons, Vector.toList_zipWith]

theorem combine?_ofPoints (f : α → β → γ) (points : List (Vector α d)) (r : Vector β d) :
    combine? f (ofPoints points) (.ofVector r) =
      some (ofPoints (points.map fun p => Vector.zipWith f p r)) := by
  have hshape : (ofPoints points).shape ≠ (ofVector r).shape := by simp [ofPoints, ofVector]
  have hjoin : joinExtents? [points.length, d] [1, d] = some [points.length, d] := by
    by_cases h1 : points.length = 1 <;> simp [joinExtents?, h1]
  have hentries : List.zipWith f (spread [points.length, d] [points.length, d]
      (points.flatMap Vector.toList)) (spread [1, d] [points.length, d] r.toList) =
      (points.map fun p => Vector.zipWith f p r).flatMap Vector.toList := by
    rw [spread_self (length_flatMap_toList points), spread_row, zipWith_flatMap_toList]
  have hlen := congrArg List.length hentries
  rw [length_flatMap_toList, List.length_map] at hlen
  rw [combine?, if_neg hshape]
  change (joinExtents? [points.length, d] [1, d]).bind _ = _
  rw [hjoin, Option.bind_some]
  refine (dif_pos hlen).trans (congrArg some (eq_of_entries ?_ hentries))
  simp [ofPoints]

end Spread

theorem exists_items?_ofPoints (p : Vector α d) (rest : List (Vector α d)) :
    ∃ items, (ofPoints (p :: rest)).items? = some (.ofVector p :: items) := by
  obtain ⟨items, hitems, hhead⟩ : ∃ items, (ofPoints (p :: rest)).items? = some items ∧
      items.head? = some (.ofVector p) := by
    have hrange : (List.finRange (p :: rest).length).head? = some ⟨0, Nat.succ_pos _⟩ :=
      congrArg List.head? (List.finRange_succ (n := rest.length))
    refine ⟨_, rfl, ?_⟩
    rw [List.head?_map, hrange]
    refine congrArg some (eq_of_entries rfl ?_)
    simp [ofPoints, ofVector]
  obtain ⟨tail, rfl⟩ := List.head?_eq_some_iff.mp hhead
  exact ⟨tail, hitems⟩

section Product

theorem filterMap_range_column (points : List (Vector α d)) (k : Fin d) :
    ((List.range points.length).filterMap fun i =>
      (points.flatMap Vector.toList)[i * d + k]?) = points.map (·.get k) := by
  have hentry : ∀ i ∈ List.range points.length,
      (points.flatMap Vector.toList)[i * d + k]? = points[i]?.map (·.get k) := by
    intro i hi
    have hlt := List.mem_range.mp hi
    rw [getElem?_flatMap_toList points hlt k.isLt, List.getElem?_eq_getElem hlt]
    rfl
  rw [List.filterMap_congr hentry, ← List.map_filterMap, filterMap_range_getElem?]

variable [Scalar α] (points : List (Vector α d)) {ws : List α}

theorem multiply_row (h : ws.length = points.length) :
    multiply 1 points.length d ws (points.flatMap Vector.toList) =
      (Vector.ofFn fun k : Fin d => dot ws (points.map (·.get k))).toList := by
  have hrow : runs 1 points.length ws = [ws] := by simp [runs, ← h]
  rw [multiply, hrow, List.flatMap_singleton]
  refine List.ext_getElem (by simp) fun j hj hj' => ?_
  have hjd : j < d := by simpa using hj
  simp only [List.getElem_map, List.getElem_range, Vector.getElem_toList, Vector.getElem_ofFn]
  rw [← filterMap_range_column points ⟨j, hjd⟩]

theorem product?_ofPoints (h : ws.length = points.length) :
    product? (.ofList ws) (ofPoints points) =
      some (.ofVector (.ofFn fun k => dot ws (points.map (·.get k)))) := by
  have hmatrix : runs 1 (points.length * d) (points.flatMap Vector.toList) =
      [points.flatMap Vector.toList] := by
    have hlen : (points.flatMap Vector.toList).length = points.length * d := by
      rw [length_flatMap_toList]
      simp
    simp only [runs, List.range_one, List.map_singleton, Nat.zero_mul, List.drop_zero, ← hlen,
      List.take_length]
  have hbatch : batch? false (.ofList ws) = some ⟨[], 1, ws.length, [ws]⟩ := rfl
  have hbatch' : batch? true (ofPoints points) = some ⟨[], points.length, d,
      runs 1 (points.length * d) (points.flatMap Vector.toList)⟩ := rfl
  have hentries : (List.zipWith (multiply 1 points.length d) [ws]
      [points.flatMap Vector.toList]).flatten =
        (Vector.ofFn fun k : Fin d => dot ws (points.map (·.get k))).toList := by
    simpa using multiply_row points h
  have hlen := (congrArg List.length hentries).trans
    (Vector.length_toList.trans (Nat.mul_one d).symm)
  rw [product?, hbatch, hbatch', hmatrix, h]
  change (if points.length ≠ points.length then none else _) = _
  rw [if_neg (not_not.mpr rfl)]
  exact (dif_pos hlen).trans (congrArg some (eq_of_entries rfl hentries))

end Product

end Tensor

theorem Quadrature.points_eq_ofPoints (samples : List (Sample α d)) (hne : samples ≠ []) :
    (Quadrature.mk d samples hne).points = .ofPoints (samples.map Sample.point) := by
  refine Tensor.eq_of_entries (by simp [Quadrature.points, Tensor.ofRows, Tensor.ofPoints]) ?_
  simp [Quadrature.points, Tensor.ofRows, Tensor.ofPoints, Tensor.ofVector, List.flatMap_map]

variable [Scalar α]

def Sample.relativeTo (r : Vector α d) : Sample α d → Sample α d :=
  Sample.map fun p => Vector.zipWith (· - ·) p r

theorem column_relativeTo (r : Vector α d) (samples : List (Sample α d)) (k : Fin d) :
    column (samples.map (Sample.relativeTo r)) k =
      Weighted.relativeTo (r.get k) (column samples k) := by
  rw [column, List.map_map, Weighted.relativeTo, column, List.map_map]
  refine List.map_congr_left fun s _ => ?_
  simp only [Function.comp_apply, Sample.relativeTo, Sample.map, get_zipWith]

theorem dot_column (samples : List (Sample α d)) (k : Fin d) :
    Tensor.dot (samples.map Sample.weight) ((samples.map Sample.point).map (·.get k)) =
      Weighted.total (column samples k) := by
  rw [Tensor.dot, Weighted.total, column, List.map_map, List.zipWith_map, List.zipWith_self,
    List.foldl_map, List.foldl_map]
  rfl

theorem total_ofPoints (samples : List (Sample α d)) :
    averageItems.total (.ofList (samples.map Sample.weight))
      (.ofPoints (samples.map Sample.point)) =
        .ok (.ofVector (.ofFn fun k => Weighted.total (column samples k))) := by
  rw [averageItems.total, Tensor.product?_ofPoints _ (by simp)]
  simp only [dot_column]
  rfl

theorem average_of_unbalanced {samples : List (Sample α d)}
    (h : Weighted.unbalanced (samples.map Sample.weight) = true) :
    average samples = .ofFn fun k => Weighted.total (column samples k) := by
  rw [average]
  refine congrArg Vector.ofFn (funext fun k => ?_)
  rw [Weighted.average_of_unbalanced (by rwa [map_weight_column])]

theorem average_of_balanced {s : Sample α d} {rest : List (Sample α d)}
    (h : ¬ Weighted.unbalanced ((s :: rest).map Sample.weight) = true) :
    average (s :: rest) = Vector.zipWith (· + ·) s.point (.ofFn fun k =>
      Weighted.total (column ((s :: rest).map (Sample.relativeTo s.point)) k)) := by
  have hget (k : Fin d) : (average (s :: rest)).get k = s.point.get k +
      Weighted.total (column ((s :: rest).map (Sample.relativeTo s.point)) k) := by
    rw [average, Vector.get_ofFn, column_relativeTo]
    exact Weighted.average_of_balanced (by rwa [← map_weight_column (s :: rest) k] at h)
  ext k hk
  simpa [Vector.get_eq_getElem] using hget ⟨k, hk⟩

/-- The average of the points of a quadrature, taken as arrays, is the average of its samples. -/
theorem averageItems_points (q : Quadrature α) :
    averageItems q.points (.ofList q.weights) = .ok (.ofVector (average q.samples)) := by
  obtain ⟨d, samples, hne⟩ := q
  cases samples with
  | nil => exact absurd rfl hne
  | cons s rest =>
    rw [Quadrature.points_eq_ofPoints, averageItems]
    by_cases h : Weighted.unbalanced ((s :: rest).map Sample.weight) = true
    · rw [average_of_unbalanced h]
      exact (if_pos h).trans (total_ofPoints (s :: rest))
    · obtain ⟨items, hitems⟩ := Tensor.exists_items?_ofPoints s.point (rest.map Sample.point)
      have hpoints : ((s :: rest).map (Sample.relativeTo s.point)).map Sample.point =
          (s.point :: rest.map Sample.point).map fun p => Vector.zipWith (· - ·) p s.point :=
        map_point_map _ _
      have hweights : ((s :: rest).map (Sample.relativeTo s.point)).map Sample.weight =
          (s :: rest).map Sample.weight := map_weight_map _ _
      have htotal := total_ofPoints ((s :: rest).map (Sample.relativeTo s.point))
      rw [hpoints, hweights] at htotal
      have hsum : Tensor.combine? (· + ·) (.ofVector s.point) (.ofVector (.ofFn fun k =>
          Weighted.total (column ((s :: rest).map (Sample.relativeTo s.point)) k))) =
          some (.ofVector (average (s :: rest))) := by
        rw [average_of_balanced h, Tensor.combine?_ofVector]
      refine (if_neg h).trans ?_
      rw [List.map_cons, hitems]
      change (Fault.fitted (Tensor.combine? (· - ·) (.ofPoints (s.point :: rest.map Sample.point))
        (.ofVector s.point)) >>= fun relative =>
          averageItems.total (.ofList ((s :: rest).map Sample.weight)) relative >>= fun total =>
            Fault.fitted (Tensor.combine? (· + ·) (.ofVector s.point) total)) = _
      rw [Tensor.combine?_ofPoints, Fault.fitted, ok_bind, htotal, ok_bind, hsum]
      rfl

theorem averageItems_ofPoints {points : List (Vector α d)} {ws : List α} (hne : points ≠ [])
    (hl : ws.length = points.length) :
    averageItems (.ofPoints points) (.ofList ws) =
      .ok (.ofVector (average (List.zipWith Sample.mk points ws))) := by
  have h := averageItems_points
    ⟨d, List.zipWith Sample.mk points ws, Quadrature.zipWith_mk_ne_nil hne hl⟩
  rwa [Quadrature.points_eq_ofPoints, Quadrature.weights, Quadrature.map_point_zipWith hl,
    Quadrature.map_weight_zipWith hl] at h

end VertexPlacement
