import VertexPlacement.Proofs.Exact
import VertexPlacement.Average

namespace VertexPlacement.Weighted

section

variable {α : Type} [Scalar α]

theorem average_of_unbalanced {column : List (Weighted α)}
    (h : unbalanced (column.map weight) = true) : average column = total column := by
  cases column with
  | nil => rfl
  | cons s rest => exact if_pos h

theorem average_of_balanced {s : Weighted α} {rest : List (Weighted α)}
    (h : ¬ unbalanced ((s :: rest).map weight) = true) :
    average (s :: rest) = s.value + total (relativeTo s.value (s :: rest)) := if_neg h

end

def combination (weights values : List ℚ) : ℚ := (List.zipWith (· * ·) weights values).sum

/-- The weights whose first one has been changed so that they sum to one. -/
def anchored : List ℚ → List ℚ
  | [] => []
  | w :: rest => (w + 1 - (w :: rest).sum) :: rest

@[simp] theorem combination_cons (w x : ℚ) (ws xs : List ℚ) :
    combination (w :: ws) (x :: xs) = w * x + combination ws xs := rfl

theorem length_anchored (ws : List ℚ) : (anchored ws).length = ws.length := by
  cases ws <;> rfl

theorem sum_anchored {ws : List ℚ} (hne : ws ≠ []) : (anchored ws).sum = 1 := by
  cases ws with
  | nil => exact absurd rfl hne
  | cons w rest =>
    rw [anchored, List.sum_cons, List.sum_cons]
    ring

theorem anchored_of_sum_eq_one {ws : List ℚ} (h : ws.sum = 1) : anchored ws = ws := by
  cases ws with
  | nil => rfl
  | cons w rest => rw [anchored, h, add_sub_cancel_right]

theorem combination_anchored (w x : ℚ) (ws xs : List ℚ) :
    combination (anchored (w :: ws)) (x :: xs) =
      combination (w :: ws) (x :: xs) + (1 - (w :: ws).sum) * x := by
  simp only [anchored, combination_cons]
  ring

theorem combination_add_left (c : ℚ) {ws xs : List ℚ} (h : ws.length = xs.length) :
    combination ws (xs.map (c + ·)) = c * ws.sum + combination ws xs := by
  induction ws generalizing xs with
  | nil =>
    have hx : xs = [] := List.length_eq_zero_iff.mp h.symm
    simp [hx, combination]
  | cons w ws ih =>
    cases xs with
    | nil => simp at h
    | cons x xs =>
      have hlen : ws.length = xs.length := by simpa using h
      have ht := ih hlen
      simp only [List.map_cons, combination_cons, ht, List.sum_cons]
      ring

theorem combination_append {ws xs : List ℚ} (h : ws.length = xs.length) (ws' xs' : List ℚ) :
    combination (ws ++ ws') (xs ++ xs') = combination ws xs + combination ws' xs' := by
  rw [combination, List.zipWith_append h, List.sum_append, combination, combination]

theorem combination_replicate (w : ℚ) (xs : List ℚ) :
    combination (List.replicate xs.length w) xs = w * xs.sum := by
  induction xs with
  | nil => simp [combination]
  | cons x rest ih =>
    rw [List.length_cons, List.replicate_succ, combination_cons, ih, List.sum_cons, mul_add]

theorem combination_map {β : Type} (f g : β → ℚ) (items : List β) :
    combination (items.map f) (items.map g) = (items.map fun x => f x * g x).sum := by
  rw [combination, List.zipWith_map, List.zipWith_self]

section Range

variable {a b : ℚ}

theorem combination_mem_Icc {ws xs : List ℚ} (hl : ws.length = xs.length)
    (hw : ∀ w ∈ ws, 0 ≤ w) (hx : ∀ x ∈ xs, x ∈ Set.Icc a b) :
    combination ws xs ∈ Set.Icc (a * ws.sum) (b * ws.sum) := by
  induction ws generalizing xs with
  | nil => simp [combination]
  | cons w ws ih =>
    cases xs with
    | nil => simp at hl
    | cons x xs =>
      have hlen : ws.length = xs.length := by simpa using hl
      obtain ⟨hlo, hhi⟩ := ih hlen
        (fun v hv => hw v (by simp [hv])) (fun y hy => hx y (by simp [hy]))
      obtain ⟨hax, hxb⟩ := hx x (by simp)
      have hw0 : 0 ≤ w := hw w (by simp)
      have h1 := mul_le_mul_of_nonneg_left hax hw0
      have h2 := mul_le_mul_of_nonneg_left hxb hw0
      rw [combination_cons, List.sum_cons]
      constructor <;> linarith

/-- An anchored combination leaves the range of the values by at most the imbalance of the weights
times the length of the range. -/
theorem combination_anchored_mem_Icc {ws xs : List ℚ} (hne : xs ≠ [])
    (hl : ws.length = xs.length) (hw : ∀ w ∈ ws, 0 ≤ w) (hx : ∀ x ∈ xs, x ∈ Set.Icc a b) :
    combination (anchored ws) xs ∈
      Set.Icc (a - |ws.sum - 1| * (b - a)) (b + |ws.sum - 1| * (b - a)) := by
  cases xs with
  | nil => exact absurd rfl hne
  | cons x xs =>
    cases ws with
    | nil => simp at hl
    | cons w ws =>
      obtain ⟨hlo, hhi⟩ := combination_mem_Icc hl hw hx
      obtain ⟨hax, hxb⟩ := hx x (by simp)
      rw [combination_anchored]
      generalize (w :: ws).sum = s at *
      have hup : (1 - s) * (x - b) ≤ |s - 1| * (b - a) := by
        rw [← neg_sub s 1, ← neg_sub b x, neg_mul_neg]
        exact mul_le_mul (le_abs_self _) (by linarith) (by linarith) (abs_nonneg _)
      have hdown : (s - 1) * (x - a) ≤ |s - 1| * (b - a) :=
        mul_le_mul (le_abs_self _) (by linarith) (by linarith) (abs_nonneg _)
      constructor <;> linarith

end Range

theorem total_eq (column : List (Weighted ℚ)) :
    total column = combination (column.map weight) (column.map value) := by
  have h (acc : ℚ) : column.foldl (fun acc s => acc + s.weight * s.value) acc =
      acc + combination (column.map weight) (column.map value) := by
    induction column generalizing acc with
    | nil => simp [combination]
    | cons s rest ih =>
      simp only [List.foldl_cons, List.map_cons, combination_cons, ih, add_assoc]
  exact (h 0).trans (zero_add _)

theorem unbalanced_eq_false_iff (ws : List ℚ) :
    unbalanced ws = false ↔ |ws.sum - 1| ≤ 1 / 10 ^ 10 := by
  rw [unbalanced, decide_eq_false_iff_not, Quadrature.weightError_eq,
    Quadrature.weightSumTolerance_eq]
  exact not_lt

theorem total_relativeTo (r : ℚ) (column : List (Weighted ℚ)) :
    total (relativeTo r column) =
      combination (column.map weight) (column.map value) - r * (column.map weight).sum := by
  have hv : (relativeTo r column).map value = (column.map value).map (-r + ·) := by
    rw [relativeTo, List.map_map, List.map_map]
    exact List.map_congr_left fun s _ => (neg_add_eq_sub r s.value).symm
  have hw : (relativeTo r column).map weight = column.map weight := by
    rw [relativeTo, List.map_map]
    rfl
  rw [total_eq, hv, hw, combination_add_left _ (by simp)]
  ring

theorem average_eq_combination {column : List (Weighted ℚ)}
    (h : |(column.map weight).sum - 1| ≤ 1 / 10 ^ 10) :
    average column = combination (anchored (column.map weight)) (column.map value) := by
  cases column with
  | nil => rfl
  | cons s rest =>
    have hb := Bool.eq_false_iff.mp ((unbalanced_eq_false_iff _).mpr h)
    have hc := combination_anchored s.weight s.value (rest.map weight) (rest.map value)
    rw [average_of_balanced hb, total_relativeTo]
    simp only [List.map_cons, hc]
    ring

theorem average_of_sum_eq_one {column : List (Weighted ℚ)} (h : (column.map weight).sum = 1) :
    average column = combination (column.map weight) (column.map value) := by
  rw [average_eq_combination (by rw [h]; norm_num), anchored_of_sum_eq_one h]

end VertexPlacement.Weighted
