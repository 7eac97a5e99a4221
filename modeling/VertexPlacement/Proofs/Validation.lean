import VertexPlacement.Proofs.Arrays
import VertexPlacement.Proofs.Extended
import VertexPlacement.Proofs.FirstFailure

namespace VertexPlacement

namespace Tensor

/-- How many points an array lists: one for each row, or one for each entry of a single column. -/
def pointCount? : List Nat → Option Nat
  | [n] => some n
  | [n, _] => some n
  | _ => none

variable {α : Type}

theorem exists_points {n d : Nat} {xs : List α} (h : xs.length = n * d) :
    ∃ points : List (Vector α d), points.length = n ∧ points.flatMap Vector.toList = xs := by
  induction n generalizing xs with
  | zero =>
    rw [Nat.zero_mul, List.length_eq_zero_iff] at h
    exact ⟨[], rfl, h.symm⟩
  | succ n ih =>
    have hfirst : (xs.take d).length = d := by
      rw [List.length_take, h, Nat.succ_mul]
      omega
    have hdrop : (xs.drop d).length = n * d := by
      rw [List.length_drop, h, Nat.succ_mul, Nat.add_sub_cancel]
    obtain ⟨points, hlen, hrest⟩ := ih hdrop
    refine ⟨⟨(xs.take d).toArray, hfirst⟩ :: points, by rw [List.length_cons, hlen], ?_⟩
    rw [List.flatMap_cons, hrest]
    exact List.take_append_drop d xs

theorem matrix?_cases (t : Tensor α) :
    pointCount? t.shape = none ∧ t.matrix? = none ∨
    ∃ (d : Nat) (points : List (Vector α d)),
      (t.shape = [points.length] ∧ d = 1 ∨ t.shape = [points.length, d]) ∧
      t.entries = points.flatMap Vector.toList ∧ t.matrix? = some (.ofPoints points) := by
  obtain ⟨shape, xs, hxs⟩ := t
  match shape, hxs with
  | [], _ => exact .inl ⟨rfl, rfl⟩
  | [n], hxs =>
    have hlen : xs.length = n * 1 := by simpa using hxs
    obtain ⟨points, rfl, rfl⟩ := exists_points hlen
    have hrows : (Vector.ofFn fun i : Fin points.length => Vector.ofFn fun _ : Fin 1 =>
        (points.flatMap Vector.toList).get ⟨i.val, by rw [hxs]; simp⟩) =
        ⟨points.toArray, List.size_toArray⟩ := by
      ext i hi j hj
      have h := getElem?_flatMap_toList points hi hj
      obtain rfl : j = 0 := Nat.lt_one_iff.mp hj
      simpa using (List.getElem?_eq_some_iff.mp h).2
    exact .inr ⟨1, points, .inl ⟨rfl, rfl⟩, rfl,
      congrArg (fun rows => some (Matrix.mk points.length 1 rows)) hrows⟩
  | [n, d], hxs =>
    have hlen : xs.length = n * d := by simpa using hxs
    obtain ⟨points, rfl, rfl⟩ := exists_points hlen
    exact .inr ⟨d, points, .inr rfl, rfl, matrix?_ofPoints points⟩
  | _ :: _ :: _ :: _, _ => exact .inl ⟨rfl, rfl⟩

theorem pointCount?_eq_some_iff {shape : List Nat} {n : Nat} :
    pointCount? shape = some n ↔ shape = [n] ∨ ∃ d, shape = [n, d] := by
  match shape with
  | [] => simp [pointCount?]
  | [m] => simp [pointCount?]
  | [m, d] => simp [pointCount?]
  | _ :: _ :: _ :: _ => simp [pointCount?]

theorem pointCount?_of_shape {shape : List Nat} {n d : Nat}
    (h : shape = [n] ∧ d = 1 ∨ shape = [n, d]) : pointCount? shape = some n := by
  rcases h with ⟨rfl, -⟩ | rfl
  · rfl
  · rfl

end Tensor

namespace Quadrature

inductive Check where
  | pointsShape
  | weightsShape
  | filled
  | counts
  | finite
  | sign
  | total

namespace Check

def ofWeights : List Check := [finite, sign, total]

def all : List Check := pointsShape :: weightsShape :: filled :: counts :: ofWeights

theorem mem_all (s : Check) : s ∈ all := by
  cases s <;> simp [all, ofWeights]

end Check

/-- The fault that is reported of the arrays by a check on its own. -/
inductive Violates (points weights : Tensor Extended) : Check → Fault Extended → Prop
  | pointsShape (uncounted : Tensor.pointCount? points.shape = none) :
      Violates points weights .pointsShape (.quadrature (.pointsShape points.shape))
  | weightsShape (deep : ∀ n, weights.shape ≠ [n]) :
      Violates points weights .weightsShape (.quadrature (.weightsShape weights.shape))
  | filled (none : Tensor.pointCount? points.shape = some 0) :
      Violates points weights .filled (.quadrature .empty)
  | counts {n} (counted : Tensor.pointCount? points.shape = some n) (other : weights.size ≠ n) :
      Violates points weights .counts (.quadrature (.counts n weights.size))
  | finite {w} (listed : w ∈ weights.entries) (special : ∀ x, w ≠ .finite x) :
      Violates points weights .finite (.quadrature .infiniteWeight)
  | sign {w} (listed : .finite w ∈ weights.entries) (below : w < 0) :
      Violates points weights .sign (.quadrature .negativeWeight)
  | total {ws : List ℚ} (numbers : weights.entries = ws.map .finite)
      (off : 1 / 10 ^ 10 ≤ |ws.sum - 1|) :
      Violates points weights .total (.quadrature (.weightSum (.finite ws.sum)))

section Passes

variable {points weights : Tensor Extended} {n : Nat} {ws : List ℚ}

theorem not_violates_pointsShape (h : Tensor.pointCount? points.shape = some n)
    (e : Fault Extended) : ¬ Violates points weights .pointsShape e := by
  intro hv
  cases hv with
  | pointsShape uncounted => cases h.symm.trans uncounted

theorem not_violates_weightsShape (h : weights.shape = [n]) (e : Fault Extended) :
    ¬ Violates points weights .weightsShape e := by
  intro hv
  cases hv with
  | weightsShape deep => exact deep n h

theorem not_violates_filled (h : Tensor.pointCount? points.shape = some n) (hn : n ≠ 0)
    (e : Fault Extended) : ¬ Violates points weights .filled e := by
  intro hv
  cases hv with
  | filled none => exact hn (Option.some.inj (h.symm.trans none))

theorem not_violates_counts (h : Tensor.pointCount? points.shape = some n)
    (hl : weights.size = n) (e : Fault Extended) : ¬ Violates points weights .counts e := by
  intro hv
  cases hv with
  | counts counted other => exact other (hl.trans (Option.some.inj (h.symm.trans counted)))

theorem not_violates_finite (h : weights.entries = ws.map .finite) (e : Fault Extended) :
    ¬ Violates points weights .finite e := by
  intro hv
  cases hv with
  | finite listed special =>
    rw [h] at listed
    obtain ⟨w, -, rfl⟩ := List.mem_map.mp listed
    exact special w rfl

theorem not_violates_sign (h : weights.entries = ws.map .finite) (hnonneg : ∀ w ∈ ws, 0 ≤ w)
    (e : Fault Extended) : ¬ Violates points weights .sign e := by
  intro hv
  cases hv with
  | sign listed below =>
    rw [h] at listed
    have hlisted := (List.mem_map_of_injective Extended.finite_injective).mp listed
    exact absurd below (not_lt.mpr (hnonneg _ hlisted))

theorem not_violates_total (h : weights.entries = ws.map .finite)
    (htotal : |ws.sum - 1| < 1 / 10 ^ 10) (e : Fault Extended) :
    ¬ Violates points weights .total e := by
  intro hv
  cases hv with
  | total numbers off =>
    have hws := Extended.map_finite_injective (numbers.symm.trans h)
    subst hws
    exact absurd htotal (not_lt.mpr off)

end Passes

section Steps

variable {points weights : Tensor Extended} {e : Fault Extended}

theorem readPoints_eq_error_iff :
    readPoints points = .error e ↔ Violates points weights .pointsShape e := by
  rcases points.matrix?_cases with ⟨hshape, h⟩ | ⟨d, rows, hshape, -, h⟩
  · rw [readPoints, h]
    constructor
    · intro he
      cases he
      exact .pointsShape hshape
    · rintro ⟨⟩
      rfl
  · rw [readPoints, h]
    have hcount := Tensor.pointCount?_of_shape hshape
    exact ⟨fun he => (by cases he), fun he => absurd he (not_violates_pointsShape hcount e)⟩

theorem readWeights_cases (weights : Tensor Extended) :
    (∃ n, weights.shape = [n]) ∧ readWeights weights = .ok weights.entries ∨
    (∀ n, weights.shape ≠ [n]) ∧
      readWeights weights = .error (.quadrature (.weightsShape weights.shape)) := by
  rw [readWeights, Tensor.row?]
  match h : weights.shape with
  | [n] => exact .inl ⟨⟨n, rfl⟩, rfl⟩
  | [] => exact .inr ⟨by simp, rfl⟩
  | _ :: _ :: _ => exact .inr ⟨by simp, rfl⟩

theorem readWeights_eq_error_iff :
    readWeights weights = .error e ↔ Violates points weights .weightsShape e := by
  rcases readWeights_cases weights with ⟨⟨n, hn⟩, h⟩ | ⟨hdeep, h⟩
  · rw [h]
    exact ⟨fun he => (by cases he), fun he => absurd he (not_violates_weightsShape hn e)⟩
  · rw [h]
    constructor
    · intro he
      cases he
      exact .weightsShape hdeep
    · rintro ⟨⟩
      rfl

theorem readWeights_eq_ok {ws : List Extended} (h : readWeights weights = .ok ws) :
    (∃ n, weights.shape = [n]) ∧ ws = weights.entries := by
  rcases readWeights_cases weights with ⟨hn, hread⟩ | ⟨-, hread⟩
  · cases h.symm.trans hread
    exact ⟨hn, rfl⟩
  · cases h.symm.trans hread

theorem checkWeights_of_special {vs : List Extended} (h : ¬ ∃ ws : List ℚ, vs = ws.map .finite) :
    checkWeights vs weightSumTolerance = .error (.quadrature .infiniteWeight) := by
  have hany : (vs.any fun w => !Scalar.isFinite w) = true := by
    simpa [Extended.exists_map_finite] using h
  rw [checkWeights, checkSigns, if_pos hany]
  rfl

theorem checkWeights_finite (ws : List ℚ) :
    checkWeights (ws.map Extended.finite) (weightSumTolerance : Extended) =
      if ∃ w ∈ ws, w < 0 then .error (.quadrature .negativeWeight)
      else if |ws.sum - 1| < 1 / 10 ^ 10 then .ok ()
      else .error (.quadrature (.weightSum (.finite ws.sum))) := by
  have hfin : ¬ ((ws.map Extended.finite).any fun w => !Scalar.isFinite w) = true := by
    simpa using Extended.exists_map_finite.mp ⟨ws, rfl⟩
  have hneg : ((ws.map Extended.finite).any fun w => decide (w < 0)) = true ↔
      ∃ w ∈ ws, w < 0 := by
    rw [List.any_map, List.any_eq_true]
    exact exists_congr fun w => and_congr_right fun _ =>
      decide_eq_true_iff.trans Extended.finite_lt
  rw [checkWeights, checkSigns, if_neg hfin]
  simp only [hneg]
  split
  · rfl
  · change (if weightError (ws.map Extended.finite) < weightSumTolerance then _ else _) = _
    rw [Extended.weightError_finite, Extended.weightSumTolerance_eq, Extended.sum_finite]
    simp only [Extended.finite_lt]
    rfl

theorem checkWeights_eq_error_iff :
    checkWeights weights.entries weightSumTolerance = .error e ↔
      FirstFailure Check.ofWeights (Violates points weights) e := by
  by_cases hfin : ∃ ws : List ℚ, weights.entries = ws.map .finite
  · obtain ⟨ws, hws⟩ := hfin
    rw [hws, checkWeights_finite, Check.ofWeights,
      firstFailure_cons_of_passes (not_violates_finite hws)]
    by_cases hneg : ∃ w ∈ ws, w < 0
    · obtain ⟨w, hw, hlt⟩ := hneg
      rw [if_pos ⟨w, hw, hlt⟩]
      refine error_eq_error_iff_firstFailure fun f => ⟨fun hf => by cases hf; rfl, fun hf => ?_⟩
      exact hf ▸ .sign (hws ▸ List.mem_map_of_mem hw) hlt
    · have hnonneg : ∀ w ∈ ws, 0 ≤ w := by simpa using hneg
      rw [if_neg hneg, firstFailure_cons_of_passes (not_violates_sign hws hnonneg)]
      by_cases htotal : |ws.sum - 1| < 1 / 10 ^ 10
      · rw [if_pos htotal, firstFailure_cons_of_passes (not_violates_total hws htotal),
          iff_false_right not_firstFailure_nil]
        exact nofun
      · rw [if_neg htotal]
        refine error_eq_error_iff_firstFailure fun f => ⟨fun hf => ?_, fun hf => ?_⟩
        · cases hf with
          | total numbers => rw [Extended.map_finite_injective (numbers.symm.trans hws)]
        · exact hf ▸ .total hws (not_lt.mp htotal)
  · rw [checkWeights_of_special hfin]
    refine error_eq_error_iff_firstFailure fun f => ⟨fun hf => by cases hf; rfl, fun hf => ?_⟩
    obtain ⟨v, hv, hspecial⟩ : ∃ v ∈ weights.entries, ∀ x, v ≠ .finite x := by
      simpa [Extended.exists_map_finite, Extended.isFinite_iff] using hfin
    exact hf ▸ .finite hv hspecial

theorem readPoints_eq_ok {m : Tensor.Matrix Extended} (h : readPoints points = .ok m) :
    ∃ (d : Nat) (rows : List (Vector Extended d)),
      (points.shape = [rows.length] ∧ d = 1 ∨ points.shape = [rows.length, d]) ∧
      points.entries = rows.flatMap Vector.toList ∧ m = .ofPoints rows := by
  rcases points.matrix?_cases with ⟨-, hnone⟩ | ⟨d, rows, hshape, hentries, hsome⟩
  · rw [readPoints, hnone] at h
    cases h
  · rw [readPoints, hsome] at h
    exact ⟨d, rows, hshape, hentries, (Except.ok.inj h).symm⟩

theorem validated_eq_error_iff {q : Quadrature Extended} :
    q.validated = .error e ↔ checkWeights q.weights weightSumTolerance = .error e :=
  bind_eq_error_iff fun _ _ => ⟨q, rfl⟩

theorem pair_of_counts {d : Nat} {rows : List (Vector Extended d)} {ws : List Extended}
    (hne : rows ≠ []) (hl : ws.length ≠ rows.length) :
    pair (Tensor.Matrix.ofPoints rows).rows ws =
      .error (.quadrature (.counts rows.length ws.length)) := by
  have hn : (Tensor.Matrix.ofPoints rows).height ≠ 0 := fun h => hne (List.length_eq_zero_iff.mp h)
  rw [pair, dif_neg hn]
  exact dif_neg hl

theorem pair_eq_error_iff {d : Nat} {rows : List (Vector Extended d)}
    (hcount : Tensor.pointCount? points.shape = some rows.length) :
    (pair (Tensor.Matrix.ofPoints rows).rows weights.entries >>= validated) = .error e ↔
      FirstFailure (.filled :: .counts :: Check.ofWeights) (Violates points weights) e := by
  by_cases hne : rows = []
  · subst hne
    refine error_eq_error_iff_firstFailure fun f => ⟨fun hf => by cases hf; rfl, fun hf => ?_⟩
    exact hf ▸ .filled hcount
  · have hn : rows.length ≠ 0 := mt List.length_eq_zero_iff.mp hne
    rw [firstFailure_cons_of_passes (not_violates_filled hcount hn)]
    by_cases hl : weights.size = rows.length
    · rw [firstFailure_cons_of_passes (not_violates_counts hcount hl), pair_ofPoints hne hl,
        ok_bind, validated_eq_error_iff, ← checkWeights_eq_error_iff, Quadrature.weights,
        map_weight_zipWith hl]
    · rw [pair_of_counts hne hl]
      refine error_eq_error_iff_firstFailure fun f => ⟨fun hf => ?_, fun hf => ?_⟩
      · cases hf with
        | counts counted =>
          rw [Option.some.inj (hcount.symm.trans counted)]
          rfl
      · exact hf ▸ .counts hcount hl

theorem build_eq_error_iff : build points weights true = .error e ↔
    FirstFailure Check.all (Violates points weights) e := by
  have hsplit : build points weights true = readPoints points >>= fun m =>
      readWeights weights >>= fun ws => pair m.rows ws >>= validated := by
    rw [build, ofArrays]
    simp only [bind_assoc]
    rfl
  rw [hsplit]
  refine bind_eq_error_iff_firstFailure (fun _ => readPoints_eq_error_iff) fun m hm => ?_
  refine bind_eq_error_iff_firstFailure (fun _ => readWeights_eq_error_iff) fun ws hws => ?_
  obtain ⟨d, rows, hshape, -, rfl⟩ := readPoints_eq_ok hm
  obtain ⟨-, rfl⟩ := readWeights_eq_ok hws
  exact pair_eq_error_iff (Tensor.pointCount?_of_shape hshape)

end Steps

/-- As many weights as points, which are numbers and partition one. -/
structure Partitions (points weights : Tensor Extended) (n : Nat) (ws : List ℚ) : Prop where
  points_shape : points.shape = [n] ∨ ∃ d, points.shape = [n, d]
  weights_shape : weights.shape = [n]
  filled : 1 ≤ n
  numbers : weights.entries = ws.map .finite
  nonneg : ∀ w ∈ ws, 0 ≤ w
  total : |ws.sum - 1| < 1 / 10 ^ 10

/-- The samples are the rows of the points, each with its weight. Points of one extent are read as
points of one coordinate. -/
structure Reads (points weights : Tensor Extended) (q : Quadrature Extended) : Prop where
  shape : points.shape = [q.size] ∧ q.spacedim = 1 ∨ points.shape = [q.size, q.spacedim]
  points_eq : q.points.entries = points.entries
  weights_eq : q.weights = weights.entries

structure Anchored (q : Quadrature Extended) : Prop where
  balanced : Weighted.unbalanced q.weights = false
  average_eq : ∃ s rest, q.samples = s :: rest ∧ averageItems q.points (.ofList q.weights) =
    .ok (.ofVector (Vector.zipWith (· + ·) s.point (.ofFn fun k =>
      Weighted.total (column (q.samples.map (Sample.relativeTo s.point)) k))))

section Acceptance

variable {points weights : Tensor Extended} {q : Quadrature Extended}

/-- Of the points only the extents are looked at. -/
theorem Violates.of_shape {points' : Tensor Extended} (h : points'.shape = points.shape) {s : Check}
    {e : Fault Extended} (hv : Violates points weights s e) : Violates points' weights s e := by
  cases hv with
  | pointsShape uncounted =>
    rw [← h]
    exact .pointsShape (h ▸ uncounted)
  | weightsShape deep => exact .weightsShape deep
  | filled none => exact .filled (h ▸ none)
  | counts counted other => exact .counts (h ▸ counted) other
  | finite listed special => exact .finite listed special
  | sign listed below => exact .sign listed below
  | total numbers off => exact .total numbers off

theorem Partitions.not_violates {n : Nat} {ws : List ℚ} (h : Partitions points weights n ws)
    (s : Check) (e : Fault Extended) : ¬ Violates points weights s e := by
  have hcount : Tensor.pointCount? points.shape = some n :=
    Tensor.pointCount?_eq_some_iff.mpr h.points_shape
  have hn : n ≠ 0 := Nat.one_le_iff_ne_zero.mp h.filled
  have hsize : weights.size = n := by
    rw [Tensor.size, weights.size_eq, h.weights_shape]
    simp
  cases s with
  | pointsShape => exact not_violates_pointsShape hcount e
  | weightsShape => exact not_violates_weightsShape h.weights_shape e
  | filled => exact not_violates_filled hcount hn e
  | counts => exact not_violates_counts hcount hsize e
  | finite => exact not_violates_finite h.numbers e
  | sign => exact not_violates_sign h.numbers h.nonneg e
  | total => exact not_violates_total h.numbers h.total e

theorem exists_partitions (h : ∀ s e, ¬ Violates points weights s e) :
    ∃ n ws, Partitions points weights n ws := by
  obtain ⟨n, hn⟩ := Option.ne_none_iff_exists'.mp fun hnone => h _ _ (.pointsShape hnone)
  obtain ⟨m, hm⟩ : ∃ m, weights.shape = [m] := by
    by_contra hdeep
    exact h _ _ (.weightsShape (not_exists.mp hdeep))
  have hsize : weights.size = n := by
    by_contra hother
    exact h _ _ (.counts hn hother)
  have hmn : m = n := by
    rw [← hsize, Tensor.size, weights.size_eq, hm]
    simp
  obtain ⟨ws, hws⟩ : ∃ ws : List ℚ, weights.entries = ws.map .finite := by
    rw [Extended.exists_map_finite]
    intro w hw
    rw [Extended.isFinite_iff]
    by_contra hspecial
    exact h _ _ (.finite hw (not_exists.mp hspecial))
  refine ⟨n, ws, Tensor.pointCount?_eq_some_iff.mp hn, hmn ▸ hm, ?_, hws, fun w hw => ?_, ?_⟩
  · refine Nat.one_le_iff_ne_zero.mpr fun hzero => ?_
    exact h _ _ (.filled (hzero ▸ hn))
  · by_contra hneg
    exact h _ _ (.sign (hws ▸ List.mem_map_of_mem hw) (not_le.mp hneg))
  · by_contra hoff
    exact h _ _ (.total hws (not_lt.mp hoff))

theorem exists_build_iff :
    (∃ q, build points weights true = .ok q) ↔ ∃ n ws, Partitions points weights n ws := by
  rw [exists_eq_ok_iff fun _ => build_eq_error_iff]
  constructor
  · intro h
    exact exists_partitions fun s => h s (Check.mem_all s)
  · rintro ⟨n, ws, h⟩ s -
    exact h.not_violates s

theorem build_true_eq (points weights : Tensor Extended) : build points weights true =
    build points weights false >>= fun q =>
      q.validate weightSumTolerance >>= fun _ => .ok q := by
  simp only [build, bind_assoc]
  rfl

theorem exists_rows_of_build (h : build points weights false = .ok q) :
    ∃ (d : Nat) (rows : List (Vector Extended d)) (hne : rows ≠ [])
      (hl : weights.entries.length = rows.length),
      (points.shape = [rows.length] ∧ d = 1 ∨ points.shape = [rows.length, d]) ∧
      points.entries = rows.flatMap Vector.toList ∧
      q = ⟨d, List.zipWith Sample.mk rows weights.entries, zipWith_mk_ne_nil hne hl⟩ := by
  have hread : ofArrays points weights = .ok q := by
    rw [← h, build]
    exact (bind_pure _).symm
  obtain ⟨m, hm, hrest⟩ := bind_eq_ok_iff.mp hread
  obtain ⟨ws, hws, hpair⟩ := bind_eq_ok_iff.mp hrest
  obtain ⟨d, rows, hshape, hentries, rfl⟩ := readPoints_eq_ok hm
  obtain ⟨-, rfl⟩ := readWeights_eq_ok hws
  by_cases hne : rows = []
  · subst hne
    cases hpair
  · by_cases hl : weights.entries.length = rows.length
    · rw [pair_ofPoints hne hl] at hpair
      exact ⟨d, rows, hne, hl, hshape, hentries, (Except.ok.inj hpair).symm⟩
    · rw [pair_of_counts hne hl] at hpair
      cases hpair

theorem reads_of_build (h : build points weights false = .ok q) : Reads points weights q := by
  obtain ⟨d, rows, hne, hl, hshape, hentries, rfl⟩ := exists_rows_of_build h
  have hsize : (List.zipWith Sample.mk rows weights.entries).length = rows.length := by
    rw [List.length_zipWith, hl, Nat.min_self]
  refine ⟨?_, ?_, map_weight_zipWith hl⟩
  · rwa [size, hsize]
  · rw [points_eq_ofPoints, map_point_zipWith hl]
    exact hentries.symm

theorem anchored_of_partition
    (h : checkWeights q.weights weightSumTolerance = .ok ()) : Anchored q := by
  have hbalanced : Weighted.unbalanced q.weights = false := by
    obtain ⟨-, -, h⟩ := bind_eq_ok_iff.mp h
    split at h
    · next hlt => exact decide_eq_false (Extended.lt_asymm hlt)
    · cases h
  obtain ⟨d, samples, hne⟩ := q
  cases samples with
  | nil => exact absurd rfl hne
  | cons s rest =>
    refine ⟨hbalanced, s, rest, rfl, ?_⟩
    rw [averageItems_points, average_of_balanced]
    exact Bool.eq_false_iff.mp hbalanced

/-- The arrays that are accepted are those whose weights partition one, whatever the points are.
Other arrays fail by the first check that they violate, and checking at once is reading and then
checking. The average of what is accepted is taken relative to its first sample. -/
theorem build_accepts_partitions (points weights : Tensor Extended) :
    ((∃ q, build points weights true = .ok q) ↔ ∃ n ws, Partitions points weights n ws) ∧
    (∀ e, build points weights true = .error e ↔
      FirstFailure Check.all (Violates points weights) e) ∧
    (build points weights true = build points weights false >>= fun q =>
      q.validate weightSumTolerance >>= fun _ => .ok q) ∧
    (∀ points' : Tensor Extended, points'.shape = points.shape → ∀ e,
      build points' weights true = .error e ↔ build points weights true = .error e) ∧
    ∀ q, build points weights true = .ok q → Reads points weights q ∧ Anchored q := by
  refine ⟨exists_build_iff, fun e => build_eq_error_iff, build_true_eq points weights,
    fun points' hshape e => ?_, fun q hq => ?_⟩
  · rw [build_eq_error_iff, build_eq_error_iff]
    exact firstFailure_congr fun s _ f => ⟨.of_shape hshape.symm, .of_shape hshape⟩
  · rw [build_true_eq] at hq
    obtain ⟨q', hread, hrest⟩ := bind_eq_ok_iff.mp hq
    obtain ⟨⟨⟩, hvalid, hok⟩ := bind_eq_ok_iff.mp hrest
    cases hok
    exact ⟨reads_of_build hread, anchored_of_partition hvalid⟩

end Acceptance

def specialPoints : Tensor Extended := .ofList [.undefined, .infinite true]

theorem build_accepts_partitions_special :
    (∃ q, build specialPoints (.ofList [.finite (1 / 4), .finite (3 / 4)]) true = .ok q ∧
      q.spacedim = 1 ∧ Anchored q) ∧
    build specialPoints (.ofList [.infinite false, .infinite true]) true =
      .error (.quadrature .infiniteWeight) ∧
    build ⟨[0, 3], [], rfl⟩ (.ofList [Extended.undefined]) true = .error (.quadrature .empty) := by
  refine ⟨?_, ?_, ?_⟩
  · obtain ⟨hok, -, -, -, hread⟩ :=
      build_accepts_partitions specialPoints (.ofList [.finite (1 / 4), .finite (3 / 4)])
    have hpartitions : Partitions specialPoints (.ofList [.finite (1 / 4), .finite (3 / 4)]) 2
        [1 / 4, 3 / 4] := ⟨.inl rfl, rfl, by norm_num, rfl, by norm_num, by norm_num⟩
    obtain ⟨q, hq⟩ := hok.mpr ⟨2, _, hpartitions⟩
    obtain ⟨hreads, hanchored⟩ := hread q hq
    rcases hreads.shape with ⟨-, hd⟩ | hshape
    · exact ⟨q, hq, hd, hanchored⟩
    · exact absurd (congrArg List.length hshape) (by simp [specialPoints, Tensor.ofList])
  · refine ((build_accepts_partitions _ _).2.1 _).mpr
      ⟨[.pointsShape, .weightsShape, .filled, .counts], .finite, _, rfl, ?_, ?_⟩
    · simp only [List.forall_mem_cons]
      exact ⟨not_violates_pointsShape rfl, not_violates_weightsShape rfl,
        not_violates_filled rfl (by decide), not_violates_counts rfl rfl, by simp⟩
    · exact .finite (w := .infinite false) (by simp [Tensor.ofList]) (by simp)
  · refine ((build_accepts_partitions _ _).2.1 _).mpr
      ⟨[.pointsShape, .weightsShape], .filled, _, rfl, ?_, .filled rfl⟩
    simp only [List.forall_mem_cons]
    exact ⟨not_violates_pointsShape rfl, not_violates_weightsShape rfl, by simp⟩

end Quadrature

end VertexPlacement
