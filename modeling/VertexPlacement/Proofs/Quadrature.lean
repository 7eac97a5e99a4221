import VertexPlacement.Proofs.Exact
import VertexPlacement.Proofs.Lookup

namespace VertexPlacement

variable {α : Type} {d : Nat}

theorem ext_get {p q : Vector α d} (h : ∀ k, p.get k = q.get k) : p = q :=
  Vector.ext fun i hi => h ⟨i, hi⟩

theorem get_zipWith {β γ : Type} (f : α → β → γ) (u : Vector α d) (v : Vector β d)
    (k : Fin d) : (Vector.zipWith f u v).get k = f (u.get k) (v.get k) := by
  simp [Vector.get_eq_getElem]

namespace Tensor

section

variable {β γ : Type}

theorem map_ofVector (f : α → β) (v : Vector α d) : (ofVector v).map f = ofVector (v.map f) := by
  simp [map, ofVector, Vector.toList_map]

theorem ofVector_injective : Function.Injective (ofVector : Vector α d → Tensor α) := by
  intro u v h
  exact Vector.toList_inj.mp (congrArg entries h)

theorem zip?_ofVector (f : α → β → γ) (u : Vector α d) (v : Vector β d) :
    zip? f (ofVector u) (ofVector v) = some (ofVector (Vector.zipWith f u v)) := by
  simp [zip?, ofVector]

theorem combine?_ofVector (f : α → β → γ) (u : Vector α d) (v : Vector β d) :
    combine? f (ofVector u) (ofVector v) = some (ofVector (Vector.zipWith f u v)) :=
  (if_pos rfl).trans (zip?_ofVector f u v)

end

theorem getElem?_flatMap_toList (rows : List (Vector α d)) {i j : Nat} (hi : i < rows.length)
    (hj : j < d) : (rows.flatMap Vector.toList)[i * d + j]? = some rows[i][j] := by
  induction rows generalizing i with
  | nil => simp at hi
  | cons row rest ih =>
    cases i with
    | zero => simp [List.getElem?_append_left, hj]
    | succ i =>
      have hlen : row.toList.length ≤ (i + 1) * d + j := by
        rw [Vector.length_toList, Nat.succ_mul]
        omega
      have hsub : (i + 1) * d + j - row.toList.length = i * d + j := by
        rw [Vector.length_toList, Nat.succ_mul]
        omega
      rw [List.flatMap_cons, List.getElem?_append_right hlen, hsub, ih (by simpa using hi)]
      rfl

theorem take_drop_flatMap_toList (rows : List (Vector α d)) {i : Nat} (hi : i < rows.length) :
    ((rows.flatMap Vector.toList).drop (i * d)).take d = rows[i].toList := by
  refine List.ext_getElem? fun j => ?_
  by_cases hj : j < d
  · rw [List.getElem?_take_of_lt hj, List.getElem?_drop, getElem?_flatMap_toList rows hi hj]
    simp [hj]
  · rw [List.getElem?_take_eq_none (Nat.not_lt.mp hj), List.getElem?_eq_none (by simpa using hj)]

@[simp] theorem ofList_toList (v : Vector α d) : ofList v.toList = ofVector v := by
  simp [ofList, ofVector]

theorem length_flatMap_toList (points : List (Vector α d)) :
    (points.flatMap Vector.toList).length = entryCount [points.length, d] := by
  simp [List.length_flatMap]

def ofPoints (points : List (Vector α d)) : Tensor α :=
  ⟨[points.length, d], points.flatMap Vector.toList, length_flatMap_toList points⟩

theorem stack?_map_ofVector {points : List (Vector α d)} (hne : points ≠ []) :
    stack? (points.map ofVector) = some (ofPoints points) := by
  cases points with
  | nil => exact absurd rfl hne
  | cons p rest =>
    have hs : ∀ u ∈ ofVector p :: rest.map ofVector, u.shape = (ofVector p).shape := by
      intro u hu
      obtain ⟨v, -, rfl⟩ := List.mem_map.mp (List.map_cons (f := ofVector) ▸ hu)
      rfl
    rw [List.map_cons, stack?, dif_pos hs]
    simp [ofPoints, ofVector, List.flatMap_map]

def Matrix.ofPoints (points : List (Vector α d)) : Matrix α :=
  ⟨points.length, d, ⟨points.toArray, by simp⟩⟩

theorem matrix?_ofPoints (points : List (Vector α d)) :
    matrix? (ofPoints points) = some (Matrix.ofPoints points) := by
  have hrows : (Vector.ofFn fun i : Fin points.length => Vector.ofFn fun j : Fin d =>
      (points.flatMap Vector.toList).get ⟨i.val * d + j.val, by
        rw [length_flatMap_toList]; simpa using entry_lt i.isLt j.isLt⟩) =
      (⟨points.toArray, by simp⟩ : Vector (Vector α d) points.length) := by
    ext i hi j hj
    have h := getElem?_flatMap_toList points hi hj
    simpa using (List.getElem?_eq_some_iff.mp h).2
  exact congrArg (fun rows => some (Matrix.mk points.length d rows)) hrows

end Tensor

theorem asPoint_eq_ok_iff {t : Tensor α} {quote : String} {v : Vector α d} :
    asPoint t d quote = .ok v ↔ t.entries = v.toList := by
  unfold asPoint
  split
  · rw [Except.ok.injEq, ← Vector.toList_inj]
    exact ⟨fun h => h, fun h => h⟩
  · next hl => exact ⟨nofun, fun h => absurd (by rw [h, Vector.length_toList]) hl⟩

theorem asPoint_ofVector (v : Vector α d) (quote : String) :
    asPoint (.ofVector v) d quote = .ok v := asPoint_eq_ok_iff.mpr rfl

def Sample.map {e : Nat} (g : Vector α d → Vector α e) (s : Sample α d) : Sample α e :=
  ⟨g s.point, s.weight⟩

section Samples

variable {e : Nat} (g : Vector α d → Vector α e) (samples : List (Sample α d))

@[simp] theorem map_weight_map :
    (samples.map (Sample.map g)).map Sample.weight = samples.map Sample.weight := by
  rw [List.map_map]
  rfl

@[simp] theorem map_point_map :
    (samples.map (Sample.map g)).map Sample.point = (samples.map Sample.point).map g := by
  rw [List.map_map, List.map_map]
  rfl

end Samples

namespace Quadrature

/-- Samples at the points that a map gives, with the weights that they had. -/
def Mapped {e : Nat} (f : Vector α d → Except (Fault α) (Vector α e)) :
    List (Sample α d) → List (Sample α e) → Prop :=
  List.Forall₂ fun s u => f s.point = .ok u.point ∧ u.weight = s.weight

theorem Mapped.ne_nil {e : Nat} {f : Vector α d → Except (Fault α) (Vector α e)}
    {samples : List (Sample α d)} {us : List (Sample α e)} (h : Mapped f samples us)
    (hne : samples ≠ []) : us ≠ [] := fun hus =>
  hne (List.length_eq_zero_iff.mp (h.length_eq.trans (List.length_eq_zero_iff.mpr hus)))

theorem mapPoints_eq_ok_iff {e : Nat} {samples : List (Sample α d)} (hne : samples ≠ [])
    {f : Vector α d → Except (Fault α) (Vector α e)} {q : Quadrature α} :
    (mk d samples hne).mapPoints f = .ok q ↔
      ∃ us hus, q = ⟨e, us, hus⟩ ∧ Mapped f samples us := by
  have hone (s : Sample α d) (u : Sample α e) :
      (f s.point).map (Sample.mk · s.weight) = .ok u ↔
        f s.point = .ok u.point ∧ u.weight = s.weight := by
    obtain ⟨p, w⟩ := u
    cases f s.point with
    | error _ => exact ⟨nofun, nofun⟩
    | ok p' => simp [Except.map, eq_comm]
  have hall (us : List (Sample α e)) :
      samples.mapM (fun s => (f s.point).map (Sample.mk · s.weight)) = .ok us ↔
        Mapped f samples us := by
    simp only [mapM_eq_ok_iff, hone, Mapped]
  unfold mapPoints
  split
  · next he =>
    refine ⟨nofun, fun ⟨us, _, _, hus⟩ => ?_⟩
    cases he.symm.trans ((hall us).mpr hus)
  · next us hus =>
    constructor
    · intro h
      cases h
      exact ⟨us, _, rfl, (hall us).mp hus⟩
    · rintro ⟨vs, _, rfl, hvs⟩
      cases hus.symm.trans ((hall vs).mpr hvs)
      rfl

theorem map_weight_zipWith {points : List (Vector α d)} {ws : List α}
    (hl : ws.length = points.length) :
    (List.zipWith Sample.mk points ws).map Sample.weight = ws := by
  induction points generalizing ws with
  | nil => simpa using (List.length_eq_zero_iff.mp hl).symm
  | cons p rest ih =>
    cases ws with
    | nil => simp at hl
    | cons w ws => simpa using ih (by simpa using hl)

theorem map_point_zipWith {points : List (Vector α d)} {ws : List α}
    (hl : ws.length = points.length) :
    (List.zipWith Sample.mk points ws).map Sample.point = points := by
  rw [← List.map_uncurry_zip_eq_zipWith, List.map_map]
  exact List.map_fst_zip hl.ge

theorem zipWith_mk_ne_nil {points : List (Vector α d)} {ws : List α} (hne : points ≠ [])
    (hl : ws.length = points.length) : List.zipWith Sample.mk points ws ≠ [] := by
  intro h
  have hlen := congrArg List.length (map_weight_zipWith hl)
  rw [h, hl] at hlen
  exact hne (List.length_eq_zero_iff.mp hlen.symm)

theorem pair_ofPoints {points : List (Vector α d)} {ws : List α} (hne : points ≠ [])
    (hl : ws.length = points.length) :
    pair (Tensor.Matrix.ofPoints points).rows ws =
      .ok ⟨d, List.zipWith Sample.mk points ws, zipWith_mk_ne_nil hne hl⟩ := by
  have hn : (Tensor.Matrix.ofPoints points).height ≠ 0 :=
    fun h => hne (List.length_eq_zero_iff.mp h)
  have hw : ws.length = (Tensor.Matrix.ofPoints points).height := hl
  rw [pair, dif_neg hn, dif_pos hw]
  rfl

theorem stackRows?_points {points : List (Vector α d)} (hne : points ≠ []) :
    stackRows? (points.map Vector.toList) = some (.ofPoints points) := by
  rw [stackRows?, List.map_map, ← Tensor.stack?_map_ofVector hne]
  congr 1
  exact List.map_congr_left fun v _ => Tensor.ofList_toList v

theorem ofArrays_ofPoints {points : List (Vector α d)} {ws : List α} (hne : points ≠ [])
    (hl : ws.length = points.length) : ofArrays (.ofPoints points) (.ofList ws) =
      .ok ⟨d, List.zipWith Sample.mk points ws, zipWith_mk_ne_nil hne hl⟩ := by
  rw [← pair_ofPoints hne hl, ofArrays, readPoints, Tensor.matrix?_ofPoints]
  rfl

variable [Scalar α]

/-- As many weights as points, which partition one. -/
structure Weighing (points : List (Vector α d)) (ws : List α) : Prop where
  ne_nil : points ≠ []
  length_eq : ws.length = points.length
  partition : checkWeights ws weightSumTolerance = .ok ()

namespace Weighing

variable {points : List (Vector α d)} {ws : List α} (h : Weighing points ws)

include h in
theorem samples_ne_nil : List.zipWith Sample.mk points ws ≠ [] :=
  zipWith_mk_ne_nil h.ne_nil h.length_eq

def quadrature : Quadrature α := ⟨d, List.zipWith Sample.mk points ws, h.samples_ne_nil⟩

theorem validate_quadrature : h.quadrature.validate weightSumTolerance = .ok () := by
  rw [validate, weights, quadrature, map_weight_zipWith h.length_eq, h.partition]

theorem ofRows_eq : ofRows (points.map Vector.toList) ws = .ok h.quadrature := by
  rw [ofRows, stackRows?_points h.ne_nil]
  change build _ _ true = _
  rw [build, ofArrays_ofPoints h.ne_nil h.length_eq]
  change validated h.quadrature = _
  rw [validated, h.validate_quadrature]
  rfl

end Weighing

end Quadrature

end VertexPlacement
