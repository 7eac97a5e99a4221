import VertexPlacement.Proofs.Flat
import VertexPlacement.Proofs.Quadrature

namespace VertexPlacement

namespace Tensor

variable {α : Type} {d : Nat}

theorem foldlM_zip?_ofVector (f : α → α → α) (v : Vector α d) (rest : List (Vector α d)) :
    (rest.map ofVector).foldlM (zip? f) (ofVector v) =
      some (ofVector (rest.foldl (Vector.zipWith f) v)) := by
  induction rest generalizing v with
  | nil => rfl
  | cons u rest ih =>
    rw [List.map_cons, List.foldlM_cons, zip?_ofVector]
    exact ih (Vector.zipWith f v u)

end Tensor

theorem toList_of_one {α : Type} (v : Vector α 1) : v.toList = [v.get 0] := by
  refine List.ext_getElem (by simp) fun i hi _ => ?_
  obtain rfl : i = 0 := by simpa using hi
  rfl

theorem get_foldl_zipWith_add {d : Nat} (v : Vector ℚ d) (rest : List (Vector ℚ d)) (k : Fin d) :
    (rest.foldl (Vector.zipWith (· + ·)) v).get k = ((v :: rest).map (·.get k)).sum := by
  induction rest generalizing v with
  | nil => simp
  | cons u rest ih => simp [ih, get_zipWith, add_assoc]

theorem mean_mem_Ico {xs : List ℚ} (hne : xs ≠ []) {a b : ℚ} (h : ∀ x ∈ xs, x ∈ Set.Ico a b) :
    xs.sum / xs.length ∈ Set.Ico a b := by
  have hpos : (0 : ℚ) < xs.length := by
    exact_mod_cast List.length_pos_iff.mpr hne
  have hlow := List.card_nsmul_le_sum xs a fun x hx => (h x hx).1
  have hhigh := List.sum_lt_sum_of_ne_nil hne id (fun _ => b) fun x hx => (h x hx).2
  rw [nsmul_eq_mul] at hlow
  rw [List.map_id, List.map_const', List.sum_replicate, nsmul_eq_mul] at hhigh
  exact ⟨(le_div_iff₀ hpos).mpr (by linarith), (div_lt_iff₀ hpos).mpr (by linarith)⟩

namespace Entity

section

variable {α : Type} [Scalar α] {d : Nat}

/-- Points with a single coordinate are summed as one list, and all others one after the other. -/
theorem exists_total?_ofVector (v : Vector α d) (rest : List (Vector α d)) :
    ∃ s : Vector α d, total? (.ofVector v) (rest.map .ofVector) = some (.ofVector s) ∧
      ((∀ k : Fin d, s.get k = Scalar.sum ((v :: rest).map (·.get k))) ∨
        s = rest.foldl (Vector.zipWith (· + ·)) v) := by
  by_cases h : (Tensor.ofVector v).entries.length = 1 ∧
      ∀ u ∈ rest.map Tensor.ofVector, u.shape = (Tensor.ofVector v).shape
  · obtain rfl : d = 1 := by simpa [Tensor.ofVector] using h.1
    have hentries : ((v :: rest).map Tensor.ofVector).flatMap Tensor.entries =
        (v :: rest).map (·.get 0) := by
      rw [List.flatMap_map, List.map_eq_flatMap]
      exact List.flatMap_congr fun u _ => toList_of_one u
    refine ⟨#v[Scalar.sum (((v :: rest).map Tensor.ofVector).flatMap Tensor.entries)],
      dif_pos h, .inl fun k => ?_⟩
    rw [hentries, Fin.fin_one_eq_zero k]
    rfl
  · exact ⟨_, (dif_neg h).trans (Tensor.foldlM_zip?_ofVector _ v rest), .inr rfl⟩

theorem center_of_total? {e : Entity α} {v s : Vector α d} {rest : List (Vector α d)}
    (hv : e.vertices = (v :: rest).map .ofVector)
    (hs : total? (.ofVector v) (rest.map .ofVector) = some (.ofVector s)) :
    e.center = .ok (.ofVector (s.map (· / ((v :: rest).length : α)))) := by
  rw [center, hv, List.map_cons]
  simp only [hs, Fault.fitted]
  exact congrArg Except.ok (by simp [Tensor.map_ofVector])

theorem exists_center_ofVector {e : Entity α} {vs : List (Vector α d)}
    (hv : e.vertices = vs.map .ofVector) (hne : vs ≠ []) :
    ∃ c : Vector α d, e.center = .ok (.ofVector c) := by
  cases vs with
  | nil => exact absurd rfl hne
  | cons v rest =>
    obtain ⟨s, hs, -⟩ := exists_total?_ofVector v rest
    exact ⟨_, center_of_total? hv hs⟩

theorem halfway_ofVector (p q : Vector α d) : halfway (.ofVector p) (.ofVector q) =
    .ok (.ofVector ((Vector.zipWith (· + ·) p q).map Scalar.half)) := by
  rw [halfway, Tensor.combine?_ofVector, ← Tensor.map_ofVector]
  rfl

end

def mean {d : Nat} (points : List (Vector ℚ d)) : Vector ℚ d :=
  Vector.ofFn fun k => (points.map (·.get k)).sum / points.length

theorem get_mean {d : Nat} (points : List (Vector ℚ d)) (k : Fin d) :
    (mean points).get k = (points.map (·.get k)).sum / points.length := by
  simp [mean]

theorem center_eq_mean {d : Nat} {e : Entity ℚ} {vs : List (Vector ℚ d)}
    (hv : e.vertices = vs.map .ofVector) (hne : vs ≠ []) :
    e.center = .ok (.ofVector (mean vs)) := by
  cases vs with
  | nil => exact absurd rfl hne
  | cons v rest =>
    obtain ⟨s, htotal, hs⟩ := exists_total?_ofVector v rest
    have hsum (k : Fin d) : s.get k = ((v :: rest).map (·.get k)).sum := by
      rcases hs with h | rfl
      · rw [h, Scalar.sum_eq]
      · exact get_foldl_zipWith_add v rest k
    have hmean : s.map (· / ((v :: rest).length : ℚ)) = mean (v :: rest) := by
      ext k hk
      have hget := get_mean (v :: rest) ⟨k, hk⟩
      rw [← hsum] at hget
      simpa [Vector.get_eq_getElem] using hget.symm
    rw [center_of_total? hv htotal, hmean]

end Entity

namespace FlatSpace

variable (m : FlatSpace ℚ)

def Inside (t : Tensor ℚ) : Prop := ∃ p, m.InBox p ∧ t = .ofVector p

variable {m}

theorem exists_map_ofVector {ts : List (Tensor ℚ)} (h : ∀ t ∈ ts, m.Inside t) :
    ∃ points : List (Vector ℚ m.frame.spacedim), ts = points.map .ofVector ∧
      ∀ p ∈ points, m.InBox p := by
  induction ts with
  | nil => exact ⟨[], rfl, by simp⟩
  | cons t rest ih =>
    obtain ⟨p, hp, rfl⟩ := h t (by simp)
    obtain ⟨points, rfl, hpoints⟩ := ih fun u hu => h u (by simp [hu])
    exact ⟨p :: points, rfl, List.forall_mem_cons.mpr ⟨hp, hpoints⟩⟩

theorem center_inside {e : Entity ℚ} (hne : e.vertices ≠ []) (h : ∀ t ∈ e.vertices, m.Inside t) :
    ∃ c, e.center = .ok c ∧ m.Inside c := by
  obtain ⟨points, hvs, hpoints⟩ := exists_map_ofVector h
  have hpne : points ≠ [] := fun hp => hne (by rw [hvs, hp, List.map_nil])
  refine ⟨_, Entity.center_eq_mean hvs hpne, Entity.mean points, fun k hL => ?_, rfl⟩
  have hmem : ∀ x ∈ points.map (·.get k), x ∈ Set.Ico 0 (m.periods.get k) := by
    intro x hx
    obtain ⟨q, hq, rfl⟩ := List.mem_map.mp hx
    exact hpoints q hq k hL
  have hmean := mean_mem_Ico (mt List.map_eq_nil_iff.mp hpne) hmem
  rwa [List.length_map, ← Entity.get_mean] at hmean

theorem halfway_inside {a b : Tensor ℚ} (ha : m.Inside a) (hb : m.Inside b) :
    ∃ c, Entity.halfway a b = .ok c ∧ m.Inside c := by
  obtain ⟨p, hp, rfl⟩ := ha
  obtain ⟨q, hq, rfl⟩ := hb
  refine ⟨_, Entity.halfway_ofVector p q, _, fun k hL => ?_, rfl⟩
  obtain ⟨hp0, hp1⟩ := hp k hL
  obtain ⟨hq0, hq1⟩ := hq k hL
  have hk : ((Vector.zipWith (· + ·) p q).map Scalar.half).get k = (p.get k + q.get k) / 2 := by
    simp [Scalar.half_eq, get_zipWith]
  rw [hk]
  exact ⟨by linarith, by linarith⟩

end FlatSpace

end VertexPlacement
