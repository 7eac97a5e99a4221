import VertexPlacement.Proofs.Average
import VertexPlacement.Periodic

namespace VertexPlacement.Periodic

open Weighted

variable {L : ℚ}

theorem outside_eq_false_iff (L x : ℚ) :
    outside L x = false ↔ x ∈ Set.Ico (-(1 / 10 ^ 10)) L := by
  have ht : (boxTolerance : ℚ) = 1 / 10 ^ 10 := Quadrature.weightSumTolerance_eq
  rw [outside, Bool.or_eq_false_iff, decide_eq_false_iff_not, decide_eq_false_iff_not, ht]
  exact and_congr not_lt not_le

theorem isLeast_foldl_least (x : ℚ) (xs : List ℚ) :
    IsLeast {y | y ∈ x :: xs} (xs.foldl Scalar.least x) := by
  induction xs generalizing x with
  | nil => simp [IsLeast, lowerBounds]
  | cons y rest ih =>
    obtain ⟨hm, hl⟩ := ih (Scalar.least x y)
    rw [Scalar.least_eq] at hm hl
    simp only [List.foldl_cons, Scalar.least_eq]
    constructor
    · rcases List.mem_cons.mp hm with he | he
      · rw [he]
        rcases min_choice x y with hc | hc <;> simp [hc]
      · simp [he]
    · intro z hz
      have hmin : List.foldl Scalar.least (min x y) rest ≤ min x y := hl (by simp)
      rcases List.mem_cons.mp hz with rfl | hz
      · exact hmin.trans (min_le_left _ _)
      · rcases List.mem_cons.mp hz with rfl | hz
        · exact hmin.trans (min_le_right _ _)
        · exact hl (by simp [hz])

theorem isLeast_lowest {xs : List ℚ} (h : xs ≠ []) : IsLeast {y | y ∈ xs} (lowest xs) := by
  cases xs with
  | nil => exact absurd rfl h
  | cons x rest => exact isLeast_foldl_least x rest

/-- A coordinate less than one and a half periods above a low one is moved to its representative
nearest to the low one. Of two it is the upper one. -/
theorem wraps_eq_toIocMod (hL : 0 < L) {low x : ℚ} (hlow : low ≤ x) (hx : x < low + 3 * L / 2) :
    (if wraps L low x then x - L else x) = toIocMod hL (low - L / 2) x := by
  symm
  rw [toIocMod_eq_iff]
  by_cases h : L / 2 < x - low
  · have hw : wraps L low x = true := decide_eq_true h
    rw [if_pos hw]
    refine ⟨⟨by linarith, by linarith⟩, 1, by simp⟩
  · have hw : ¬ wraps L low x = true := fun hw => h (of_decide_eq_true hw)
    rw [if_neg hw]
    refine ⟨⟨by linarith, by linarith⟩, 0, by simp⟩

theorem map_weight_unwrap (L : ℚ) (column : List (Weighted ℚ)) :
    (unwrap L column).map weight = column.map weight := by
  rw [unwrap, List.map_map]
  refine List.map_congr_left fun s _ => ?_
  by_cases h : wraps L (lowestOf column) s.value <;> simp [h]

theorem map_value_unwrap (hL : 0 < L) {column : List (Weighted ℚ)} (hne : column ≠ [])
    (hx : ∀ x ∈ column.map value, x < lowestOf column + 3 * L / 2) :
    (unwrap L column).map value =
      (column.map value).map (toIocMod hL (lowestOf column - L / 2)) := by
  have hleast : IsLeast {x | x ∈ column.map value} (lowestOf column) :=
    isLeast_lowest (by simpa using hne)
  rw [unwrap, List.map_map, List.map_map]
  refine List.map_congr_left fun s hs => ?_
  have hm : s.value ∈ column.map value := List.mem_map_of_mem hs
  rw [Function.comp_apply, Function.comp_apply,
    ← wraps_eq_toIocMod hL (hleast.2 hm) (hx _ hm)]
  split <;> rfl

/-- One step is enough for numbers less than one period away from the box. -/
theorem fold_eq_toIcoMod (hL : 0 < L) {x : ℚ} (hlo : -L ≤ x) (hhi : x < 2 * L) :
    fold L x = toIcoMod hL 0 x := by
  have hf : fold L x =
      if L ≤ (if x < 0 then x + L else x) then (if x < 0 then x + L else x) - L
      else if x < 0 then x + L else x := rfl
  symm
  rw [toIcoMod_eq_iff, zero_add, hf]
  by_cases hn : x < 0
  · rw [if_pos hn, if_neg (by linarith)]
    exact ⟨⟨by linarith, by linarith⟩, -1, by simp⟩
  · rw [if_neg hn]
    by_cases hp : L ≤ x
    · rw [if_pos hp]
      exact ⟨⟨by linarith, by linarith⟩, 1, by simp⟩
    · rw [if_neg hp]
      exact ⟨⟨not_lt.mp hn, not_le.mp hp⟩, 0, by simp⟩

/-- The periodic average in closed form. The coordinates may lie a little below the box, and the
weights may miss one by the tolerance of validation. -/
theorem average_eq_toIcoMod (hL : 0 < L) {column : List (Weighted ℚ)} (hne : column ≠ [])
    (hw : ∀ w ∈ column.map weight, 0 ≤ w) (hs : |(column.map weight).sum - 1| ≤ 1 / 10 ^ 10)
    (hx : ∀ x ∈ column.map value, x ∈ Set.Ico (-(L / 4)) L) :
    average L column = toIcoMod hL 0 (combination (anchored (column.map weight))
      ((column.map value).map (toIocMod hL (lowestOf column - L / 2)))) := by
  have hleast : IsLeast {x | x ∈ column.map value} (lowestOf column) :=
    isLeast_lowest (by simpa using hne)
  obtain ⟨hlo, hhi⟩ := hx _ hleast.1
  have hv := map_value_unwrap hL hne fun x hm => by linarith [(hx x hm).2]
  have hmem : ∀ y ∈ (column.map value).map (toIocMod hL (lowestOf column - L / 2)),
      y ∈ Set.Icc (lowestOf column - L / 2) (lowestOf column + L / 2) := by
    intro y hy
    obtain ⟨x, -, rfl⟩ := List.mem_map.mp hy
    obtain ⟨h1, h2⟩ := toIocMod_mem_Ioc hL (lowestOf column - L / 2) x
    exact ⟨h1.le, by linarith⟩
  obtain ⟨ha, hb⟩ := combination_anchored_mem_Icc (by simpa using hne) (by simp) hw hmem
  -- The average may leave the range of the representatives by what the weights miss of one.
  have hd : |(column.map weight).sum - 1| * L ≤ 1 / 10 ^ 10 * L :=
    mul_le_mul_of_nonneg_right hs hL.le
  rw [average, average_eq_combination (by rwa [map_weight_unwrap]), map_weight_unwrap, hv]
  exact fold_eq_toIcoMod hL (by linarith) (by linarith)

end VertexPlacement.Periodic
