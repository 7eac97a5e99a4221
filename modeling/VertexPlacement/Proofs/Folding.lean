import VertexPlacement.Proofs.Copies

namespace VertexPlacement

variable {K : Type} [Field K] [LinearOrder K] {R : Rounding K}

namespace Periodic

/-- A coordinate that an average along a periodic axis may have. It is not farther below the box
than a period, nor farther above it than half a period. -/
structure Foldable (L x : Rounded R) : Prop where
  pos : 0 < L
  period : L.Representable
  half : (⟨L.value / 2⟩ : Rounded R).Representable
  lower : -L.value ≤ x.value
  upper : x.value ≤ 3 * L.value / 2

section Steps

variable {L x : Rounded R}

theorem fold_of_neg (hx : x < 0) : fold L x = if L ≤ x + L then x + L - L else x + L := by
  simp only [fold, if_pos hx]

theorem fold_of_ge (hL : 0 < L) (hx : L ≤ x) : fold L x = x - L := by
  have hn : ¬ x < 0 := Rounded.not_lt.mpr (hL.le.trans hx)
  simp only [fold, if_neg hn, if_pos hx]

theorem fold_of_lifted (hx : x < 0) (h : x + L = L) : fold L x = 0 := by
  rw [fold_of_neg hx, h, if_pos (Rounded.le_refl L), Rounded.sub_self]

end Steps

variable [IsStrictOrderedRing K]

namespace Foldable

variable {L x : Rounded R} (h : Foldable L x) (hR : Monotone R.round)

include h hR

/-- A sum of exact numbers that lies in the closed box is rounded to a number in it. -/
theorem lifted_mem (hx : x < 0) : 0 ≤ x + L ∧ x + L ≤ L := by
  have hneg : x.value < 0 := hx
  constructor
  · have hround : R.round 0 ≤ R.round (x.value + L.value) := hR (by linarith [h.lower])
    rwa [R.round_zero] at hround
  · have hround : R.round (x.value + L.value) ≤ R.round L.value := hR (by linarith)
    rwa [h.period] at hround

/-- The difference is at most half a period, and rounding does not lift it above that. -/
theorem lowered_mem (hx : L ≤ x) : 0 ≤ x - L ∧ x - L < L := by
  have hpos : 0 < L.value := h.pos
  have hle : L.value ≤ x.value := hx
  constructor
  · have hround : R.round 0 ≤ R.round (x.value - L.value) := hR (by linarith)
    rwa [R.round_zero] at hround
  · have hround : R.round (x.value - L.value) ≤ R.round (L.value / 2) :=
      hR (by linarith [h.upper])
    have hhalf : R.round (L.value / 2) = L.value / 2 := h.half
    change R.round (x.value - L.value) < L.value
    linarith

theorem fold_of_unlifted (hx : x < 0) (hsum : x + L ≠ L) : fold L x = x + L := by
  have hge : ¬ L ≤ x + L := fun hge =>
    hsum (Rounded.ext (le_antisymm (α := K) (h.lifted_mem hR hx).2 hge))
  rw [fold_of_neg hx, if_neg hge]

theorem fold_mem : 0 ≤ fold L x ∧ fold L x < L := by
  by_cases hx : x < 0
  · by_cases hsum : x + L = L
    · rw [fold_of_lifted hx hsum]
      exact ⟨Rounded.le_refl 0, h.pos⟩
    · obtain ⟨h0, hle⟩ := h.lifted_mem hR hx
      rw [h.fold_of_unlifted hR hx hsum]
      exact ⟨h0, lt_of_le_of_ne (α := K) hle (mt Rounded.ext hsum)⟩
  · have h0 : 0 ≤ x := Rounded.not_lt.mp hx
    by_cases hL : L ≤ x
    · rw [fold_of_ge h.pos hL]
      exact h.lowered_mem hR hL
    · have hlt : x < L := Rounded.not_le.mp hL
      rw [fold_of_mem h0 hlt]
      exact ⟨h0, hlt⟩

theorem value_fold_of_neg (hx : x < 0) : (fold L x).value =
    if R.round (x.value + L.value) = L.value then 0 else R.round (x.value + L.value) := by
  by_cases hsum : R.round (x.value + L.value) = L.value
  · rw [fold_of_lifted hx (Rounded.ext hsum), if_pos hsum]
    rfl
  · have hne : x + L ≠ L := fun heq => hsum (congrArg Rounded.value heq)
    rw [h.fold_of_unlifted hR hx hne, if_neg hsum]
    rfl

theorem outside_fold : outside L (fold L x) = false := by
  obtain ⟨h0, hlt⟩ := h.fold_mem hR
  rw [outside, Bool.or_eq_false_iff, decide_eq_false_iff_not, decide_eq_false_iff_not]
  exact ⟨Rounded.not_lt.mpr (Rounded.neg_boxTolerance_le h0), Rounded.not_le.mpr hlt⟩

end Foldable

end Periodic

namespace FlatSpace

variable {m : FlatSpace (Rounded R)} {samples : List (Sample (Rounded R) m.frame.spacedim)}

variable (m) in
def Folded (p : Vector (Rounded R) m.frame.spacedim) : Prop :=
  ∀ k, 0 < m.periods.get k → ∃ x, Periodic.Foldable (m.periods.get k) x ∧
    p.get k = Periodic.fold (m.periods.get k) x

theorem get_place_of_periodic {k : Fin m.frame.spacedim} (hk : 0 < m.periods.get k) :
    (m.place samples).get k = Periodic.fold (m.periods.get k)
      (Weighted.average (Periodic.unwrap (m.periods.get k) (column samples k))) := by
  rw [get_place, averageAlong, if_pos ((m.wraps_iff k).mpr hk), Periodic.average]

variable [IsStrictOrderedRing K]

theorem Folded.within (hR : Monotone R.round) {p : Vector (Rounded R) m.frame.spacedim}
    (h : m.Folded p) : m.Within p := by
  intro k hk
  obtain ⟨x, hx, hp⟩ := h k hk
  rw [hp]
  exact hx.fold_mem hR

end FlatSpace

namespace Periodic

/-- However sums and differences round, as long as larger ones are not rounded to smaller numbers,
folding ends in the half-open box and is done once and for all. So points that have been folded are
accepted as samples, and along the periodic axes the average of such samples is folded in turn. -/
theorem fold_half_open [IsStrictOrderedRing K] {R : Rounding K} (hR : Monotone R.round) :
    (∀ L x : Rounded R, Foldable L x →
      (0 ≤ fold L x ∧ fold L x < L) ∧
      fold L (fold L x) = fold L x ∧
      (0 ≤ x → x < L → fold L x = x) ∧
      (L ≤ x → (fold L x).value = R.round (x.value - L.value)) ∧
      (x < 0 → (fold L x).value =
        if R.round (x.value + L.value) = L.value then 0 else R.round (x.value + L.value)) ∧
      outside L (fold L x) = false) ∧
    ∀ (m : FlatSpace (Rounded R)) (samples : List (Sample (Rounded R) m.frame.spacedim))
      (hne : samples ≠ []), (∀ s ∈ samples, m.Folded s.point) →
        ∃ p, m.newPoint ⟨m.frame.spacedim, samples, hne⟩ = .ok p ∧
          ∀ k, 0 < m.periods.get k → p.get k = fold (m.periods.get k)
            (Weighted.average (unwrap (m.periods.get k) (column samples k))) := by
  refine ⟨fun L x h => ?_, fun m samples hne hfolded => ?_⟩
  · obtain ⟨h0, hlt⟩ := h.fold_mem hR
    refine ⟨⟨h0, hlt⟩, fold_of_mem h0 hlt, fold_of_mem, fun hx => ?_, h.value_fold_of_neg hR,
      h.outside_fold hR⟩
    rw [fold_of_ge h.pos hx]
    rfl
  · have hwithin := fun s hs => (hfolded s hs).within hR
    exact ⟨m.place samples, FlatSpace.newPoint_of_within hne hwithin,
      fun k hk => FlatSpace.get_place_of_periodic hk⟩

/-- Sixty-fourths up to one half, and eighths above. What lies between is rounded up. -/
def binades : Rounding ℚ :=
  { decimals with
    round := fun x => if x ≤ 1 / 2 then ⌈64 * x⌉ / 64 else ⌈8 * x⌉ / 8
    round_zero := by simp }

theorem monotone_binades : Monotone binades.round := by
  intro x y hxy
  change (if x ≤ 1 / 2 then (⌈64 * x⌉ : ℚ) / 64 else ⌈8 * x⌉ / 8) ≤
    if y ≤ 1 / 2 then (⌈64 * y⌉ : ℚ) / 64 else ⌈8 * y⌉ / 8
  by_cases hy : y ≤ 1 / 2
  · rw [if_pos hy, if_pos (hxy.trans hy)]
    gcongr
  · rw [if_neg hy]
    by_cases hx : x ≤ 1 / 2
    · have hceil : ⌈64 * x⌉ ≤ 32 := Int.ceil_le.mpr (by push_cast; linarith)
      have hfine : (⌈64 * x⌉ : ℚ) ≤ 32 := by exact_mod_cast hceil
      have hcoarse : 8 * y ≤ ⌈8 * y⌉ := Int.le_ceil (8 * y)
      rw [if_pos hx]
      linarith
    · rw [if_neg hx]
      gcongr

def binadeStrip : FlatSpace (Rounded binades) :=
  ⟨FlatSpace.strip.frame, #v[⟨1⟩, ⟨0⟩], by decide⟩

def belowSeam : List (Rounded binades) := [⟨-1 / 64⟩, ⟨-1 / 4⟩]

def aroundSeam : List (Sample (Rounded binades) binadeStrip.frame.spacedim) :=
  belowSeam.map fun x => ⟨#v[fold ⟨1⟩ x, ⟨3⟩], ⟨1 / 2⟩⟩

theorem fold_half_open_binades :
    Monotone binades.round ∧
    fold (⟨1⟩ : Rounded binades) ⟨-1 / 64⟩ = 0 ∧
    fold (⟨1⟩ : Rounded binades) ⟨5 / 4⟩ = ⟨1 / 4⟩ ∧
    ∃ p, binadeStrip.newPoint ⟨binadeStrip.frame.spacedim, aroundSeam, List.cons_ne_nil _ _⟩ =
      .ok p ∧ p.get ⟨0, by decide⟩ = ⟨7 / 8⟩ := by
  have hfoldable {x : ℚ} (hx : -1 ≤ x ∧ x ≤ 3 * 1 / 2) : Foldable (⟨1⟩ : Rounded binades) ⟨x⟩ :=
    ⟨one_pos (α := ℚ), by decide +kernel, by decide +kernel, hx.1, hx.2⟩
  obtain ⟨hfold, hnew⟩ := fold_half_open monotone_binades
  obtain ⟨-, -, -, -, hlifted, -⟩ := hfold ⟨1⟩ ⟨-1 / 64⟩ (hfoldable (by decide +kernel))
  obtain ⟨-, -, -, hlowered, -⟩ := hfold ⟨1⟩ ⟨5 / 4⟩ (hfoldable (by decide +kernel))
  have hfolded : ∀ s ∈ aroundSeam, binadeStrip.Folded s.point := by
    refine List.forall_mem_map.mpr fun x hx => Fin.forall_fin_two.mpr
      ⟨fun _ => ⟨x, ?_, rfl⟩, fun hk => absurd hk (lt_irrefl (0 : ℚ))⟩
    rcases List.mem_pair.mp hx with rfl | rfl
    · exact hfoldable (by decide +kernel)
    · exact hfoldable (by decide +kernel)
  obtain ⟨p, hp, haxes⟩ := hnew binadeStrip aroundSeam (List.cons_ne_nil _ _) hfolded
  refine ⟨monotone_binades, Rounded.ext ?_, Rounded.ext ?_, p, hp, ?_⟩
  · refine (hlifted (by decide +kernel)).trans ?_
    decide +kernel
  · refine (hlowered (by decide +kernel)).trans ?_
    decide +kernel
  · refine (haxes ⟨0, by decide⟩ (one_pos (α := ℚ))).trans ?_
    exact Rounded.ext (by decide +kernel)

end Periodic

end VertexPlacement
