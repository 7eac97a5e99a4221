import VertexPlacement.Proofs.Quadrature
import VertexPlacement.Proofs.Seam

namespace VertexPlacement

open Weighted

namespace Periodic

variable {L x y t : ℚ}

theorem shortest_eq (L t : ℚ) : shortest L t =
    if (if L / 2 < t then t - L else t) < -(L / 2) then (if L / 2 < t then t - L else t) + L
    else if L / 2 < t then t - L else t := rfl

theorem shortest_of_abs_le (h : |t| ≤ L / 2) : shortest L t = t := by
  obtain ⟨h1, h2⟩ := abs_le.mp h
  rw [shortest_eq, if_neg (not_lt.mpr h2), if_neg (not_lt.mpr h1)]

theorem shortest_of_gt (h : L / 2 < t) : shortest L t = t - L := by
  rw [shortest_eq, if_pos h, if_neg (by linarith)]

theorem shortest_of_lt (hL : 0 < L) (h : t < -(L / 2)) : shortest L t = t + L := by
  have hn : ¬ L / 2 < t := by linarith
  rw [shortest_eq, if_neg hn, if_pos h]

theorem shortest_cases (hL : 0 < L) (t : ℚ) :
    (|t| ≤ L / 2 ∧ shortest L t = t) ∨ (L / 2 < t ∧ shortest L t = t - L) ∨
      (t < -(L / 2) ∧ shortest L t = t + L) := by
  rcases lt_or_ge (L / 2) t with hgt | hle
  · exact .inr (.inl ⟨hgt, shortest_of_gt hgt⟩)
  · rcases lt_or_ge t (-(L / 2)) with hlt | hge
    · exact .inr (.inr ⟨hlt, shortest_of_lt hL hlt⟩)
    · exact .inl ⟨abs_le.mpr ⟨hge, hle⟩, shortest_of_abs_le (abs_le.mpr ⟨hge, hle⟩)⟩

theorem shortest_neg (hL : 0 < L) (t : ℚ) : shortest L (-t) = -shortest L t := by
  rcases shortest_cases hL t with ⟨h, he⟩ | ⟨h, he⟩ | ⟨h, he⟩
  · rw [he, shortest_of_abs_le (by rwa [abs_neg])]
  · rw [he, shortest_of_lt hL (by linarith)]
    ring
  · rw [he, shortest_of_gt (by linarith)]
    ring

theorem exists_shortest_eq (hL : 0 < L) (t : ℚ) : ∃ z : ℤ, t = shortest L t + z • L := by
  rcases shortest_cases hL t with ⟨-, he⟩ | ⟨-, he⟩ | ⟨-, he⟩
  · exact ⟨0, by simp [he]⟩
  · exact ⟨1, by simp [he]⟩
  · exact ⟨-1, by simp [he]⟩

theorem abs_shortest_le (hL : 0 < L) (h : |t| ≤ L) : |shortest L t| ≤ L / 2 := by
  obtain ⟨h1, h2⟩ := abs_le.mp h
  rcases shortest_cases hL t with ⟨ht, he⟩ | ⟨ht, he⟩ | ⟨ht, he⟩
  · rwa [he]
  · rw [he, abs_le]
    constructor <;> linarith
  · rw [he, abs_le]
    constructor <;> linarith

/-- A difference of less than half a period that is congruent to another is the shorter way of
it. -/
theorem shortest_eq_of_modEq (hL : 0 < L) (h : |t| ≤ L) {d : ℚ} (hd : |d| < L / 2) {z : ℤ}
    (hz : t = d + z • L) : shortest L t = d := by
  obtain ⟨y, hy⟩ := exists_shortest_eq hL t
  have hle := abs_le.mp (abs_shortest_le hL h)
  obtain ⟨h1, h2⟩ := abs_lt.mp hd
  rw [zsmul_eq_mul] at hy hz
  have hdiff : shortest L t - d = ((z - y : ℤ) : ℚ) * L := by
    push_cast
    linarith
  have hlt : |((z - y : ℤ) : ℚ)| * |L| < 1 * |L| := by
    rw [← abs_mul, ← hdiff, one_mul, abs_of_pos hL, abs_lt]
    constructor <;> linarith
  have hzero : z - y = 0 :=
    Int.abs_lt_one_iff.mp (by exact_mod_cast lt_of_mul_lt_mul_right hlt (abs_nonneg L))
  rw [hzero, Int.cast_zero, zero_mul] at hdiff
  linarith

theorem toIocMod_of_near (hL : 0 < L) (h0 : x ≤ y) (h : y - x ≤ L / 2) :
    toIocMod hL (x - L / 2) y = y :=
  (toIocMod_eq_iff hL).mpr ⟨⟨by linarith, by linarith⟩, 0, by simp⟩

theorem toIocMod_of_far (hL : 0 < L) (h : L / 2 < y - x) (h1 : y - x < L) :
    toIocMod hL (x - L / 2) y = y - L :=
  (toIocMod_eq_iff hL).mpr ⟨⟨by linarith, by linarith⟩, 1, by simp⟩

theorem toIcoMod_combination_pair (hL : 0 < L) (hx : x ∈ Set.Ico 0 L) (hy : y ∈ Set.Ico 0 L)
    {low : ℚ} (hlow : IsLeast {z | z ∈ [x, y]} low) (u : ℚ) :
    toIcoMod hL 0 (combination [1 - u, u] ([x, y].map (toIocMod hL (low - L / 2)))) =
      toIcoMod hL 0 (x + u * shortest L (y - x)) := by
  have hmin : low = min x y := by
    refine hlow.unique ⟨?_, ?_⟩
    · rcases min_choice x y with h | h <;> simp [h]
    · intro z hz
      rcases List.mem_cons.mp hz with rfl | hz
      · exact min_le_left _ _
      · simp only [List.mem_singleton] at hz
        exact hz ▸ min_le_right _ _
  have hc (a b : ℚ) : combination [1 - u, u] [a, b] = (1 - u) * a + u * b := by
    simp [combination]
  obtain ⟨hx0, hx1⟩ := hx
  obtain ⟨hy0, hy1⟩ := hy
  rw [List.map_cons, List.map_singleton, hc]
  -- Where the second coordinate is low the first is wrapped, and the average is one period too low.
  rcases shortest_cases hL (y - x) with ⟨h, he⟩ | ⟨h, he⟩ | ⟨h, he⟩
  · obtain ⟨h1, h2⟩ := abs_le.mp h
    have hnear : toIocMod hL (low - L / 2) x = x ∧ toIocMod hL (low - L / 2) y = y := by
      rcases le_total x y with hxy | hyx
      · rw [hmin, min_eq_left hxy]
        exact ⟨toIocMod_of_near hL le_rfl (by linarith), toIocMod_of_near hL hxy h2⟩
      · rw [hmin, min_eq_right hyx]
        exact ⟨toIocMod_of_near hL hyx (by linarith), toIocMod_of_near hL le_rfl (by linarith)⟩
    rw [hnear.1, hnear.2, he]
    congr 1
    ring
  · rw [hmin, min_eq_left (by linarith), toIocMod_of_near hL le_rfl (by linarith),
      toIocMod_of_far hL h (by linarith), he]
    congr 1
    ring
  · have hr : (1 - u) * (x - L) + u * y = x + u * (y - x + L) - L := by ring
    rw [hmin, min_eq_right (by linarith), toIocMod_of_far hL (by linarith) (by linarith),
      toIocMod_of_near hL le_rfl (by linarith), he, hr, toIcoMod_sub]

theorem along_zero (hL : 0 < L) (hx : x ∈ Set.Ico 0 L) (t : ℚ) :
    toIcoMod hL 0 (x + 0 * t) = x := by
  rw [zero_mul, add_zero, toIcoMod_eq_self, zero_add]
  exact hx

theorem along_one (hL : 0 < L) (hy : y ∈ Set.Ico 0 L) (x : ℚ) :
    toIcoMod hL 0 (x + 1 * shortest L (y - x)) = y := by
  obtain ⟨z, hz⟩ := exists_shortest_eq hL (y - x)
  have hsum : x + 1 * shortest L (y - x) = y - z • L := by linarith
  rw [hsum, toIcoMod_sub_zsmul, toIcoMod_eq_self, zero_add]
  exact hy

/-- Along the shorter way from one coordinate to another the shorter way between any two points is
the part of it that joins them. -/
theorem shortest_along (hL : 0 < L) (hx : x ∈ Set.Ico 0 L) (hy : y ∈ Set.Ico 0 L) {a b : ℚ}
    (ha : a ∈ Set.Icc 0 1) (hb : b ∈ Set.Icc 0 1) :
    shortest L (toIcoMod hL 0 (x + b * shortest L (y - x)) -
      toIcoMod hL 0 (x + a * shortest L (y - x))) = (b - a) * shortest L (y - x) := by
  obtain ⟨ha0, ha1⟩ := ha
  obtain ⟨hb0, hb1⟩ := hb
  have hab : |b - a| ≤ 1 := abs_le.mpr ⟨by linarith, by linarith⟩
  -- Only the whole way may be half a period long, and then the ends are the given coordinates.
  rcases lt_or_eq_of_le hab with hlt | heq
  · have hxy : |y - x| ≤ L := abs_le.mpr ⟨by linarith [hx.2, hy.1], by linarith [hx.1, hy.2]⟩
    have hmul : |(b - a) * shortest L (y - x)| < L / 2 := by
      rw [abs_mul]
      calc |b - a| * |shortest L (y - x)| ≤ |b - a| * (L / 2) :=
            mul_le_mul_of_nonneg_left (abs_shortest_le hL hxy) (abs_nonneg _)
        _ < 1 * (L / 2) := mul_lt_mul_of_pos_right hlt (half_pos hL)
        _ = L / 2 := one_mul _
    obtain ⟨hp0, hp1⟩ := toIcoMod_mem_Ico' hL (x + a * shortest L (y - x))
    obtain ⟨hq0, hq1⟩ := toIcoMod_mem_Ico' hL (x + b * shortest L (y - x))
    refine shortest_eq_of_modEq hL (abs_le.mpr ⟨by linarith, by linarith⟩) hmul
      (z := toIcoDiv hL 0 (x + a * shortest L (y - x)) -
        toIcoDiv hL 0 (x + b * shortest L (y - x))) ?_
    rw [toIcoMod, toIcoMod, sub_smul]
    ring
  · rcases (abs_eq zero_le_one).mp heq with h | h
    · obtain ⟨rfl, rfl⟩ : a = 0 ∧ b = 1 := ⟨by linarith, by linarith⟩
      rw [along_zero hL hx, along_one hL hy, sub_zero, one_mul]
    · obtain ⟨rfl, rfl⟩ : a = 1 ∧ b = 0 := ⟨by linarith, by linarith⟩
      rw [along_zero hL hx, along_one hL hy, ← neg_sub y x, shortest_neg hL]
      ring

end Periodic

namespace Manifold

variable (m : Manifold ℚ) {x1 x2 : Tensor ℚ} {u : ℚ}

theorem segmentQuadrature_of_point {a b : Vector ℚ m.spacedim} (h1 : m.frame.point x1 = .ok a)
    (h2 : m.frame.point x2 = .ok b) (hu : u ∈ Set.Icc 0 1) :
    m.segmentQuadrature x1 x2 u =
      .ok ⟨m.spacedim, [⟨a, 1 - u⟩, ⟨b, u⟩], List.cons_ne_nil _ _⟩ := by
  have hw : Quadrature.checkWeights [1 - u, u] Quadrature.weightSumTolerance = .ok () := by
    rw [Quadrature.checkWeights_eq_ok_iff, Quadrature.weightSumTolerance_eq]
    simpa using hu.symm
  have hrows : Quadrature.Weighing [a, b] [1 - u, u] := ⟨List.cons_ne_nil a [b], rfl, hw⟩
  rw [segmentQuadrature, if_pos (Set.mem_Icc.mp hu), h1, h2]
  exact hrows.ofRows_eq

theorem intermediatePoint_eq_ok_iff {r : Tensor ℚ} :
    m.intermediatePoint x1 x2 u = .ok r ↔ u ∈ Set.Icc 0 1 ∧ ∃ a b : Vector ℚ m.spacedim,
      m.frame.point x1 = .ok a ∧ m.frame.point x2 = .ok b ∧
        m.newPoint ⟨m.spacedim, [⟨a, 1 - u⟩, ⟨b, u⟩], List.cons_ne_nil _ _⟩ = .ok r := by
  constructor
  · intro h
    obtain ⟨q, hq, hr⟩ := bind_eq_ok_iff.mp h
    have hu : 0 ≤ u ∧ u ≤ 1 := by
      by_contra hu
      rw [segmentQuadrature, if_neg hu] at hq
      cases hq
    rw [segmentQuadrature, if_pos hu] at hq
    obtain ⟨a, h1, hq⟩ := bind_eq_ok_iff.mp hq
    obtain ⟨b, h2, -⟩ := bind_eq_ok_iff.mp hq
    rw [intermediatePoint, m.segmentQuadrature_of_point h1 h2 hu, ok_bind] at h
    exact ⟨hu, a, b, h1, h2, h⟩
  · rintro ⟨hu, a, b, h1, h2, h⟩
    rw [intermediatePoint, m.segmentQuadrature_of_point h1 h2 hu, ok_bind, h]

theorem differenceTangent_of_point {a r : Vector ℚ m.frame.spacedim}
    (h1 : m.frame.point x1 = .ok a)
    (hr : m.intermediatePoint (.ofVector a) x2 tangentStep = .ok (.ofVector r)) :
    m.differenceTangent x1 x2 =
      .ok (.ofVector ((Vector.zipWith (· - ·) r a).map (· / tangentStep))) := by
  rw [differenceTangent, h1, ok_bind, hr, ok_bind, Tensor.combine?_ofVector,
    ← Tensor.map_ofVector]
  rfl

end Manifold

namespace FlatSpace

open Periodic

variable {m : FlatSpace ℚ} {p q : Vector ℚ m.frame.spacedim} {k : Fin m.frame.spacedim}

theorem point_ofVector (p : Vector ℚ m.frame.spacedim) :
    m.frame.point (.ofVector p) = (.ok p : Except (Fault ℚ) _) := asPoint_ofVector p _

theorem get_tangent_of_periodic (hL : 0 < m.periods.get k) :
    (m.tangent p q).get k = shortest (m.periods.get k) (q.get k - p.get k) := by
  have hw : m.wraps k = true := (m.wraps_iff k).mpr hL
  simp only [tangent, Vector.get_ofFn, hw, if_true]

theorem get_tangent_of_not_periodic (hL : ¬ 0 < m.periods.get k) :
    (m.tangent p q).get k = q.get k - p.get k := by
  have hw : ¬ m.wraps k = true := mt (m.wraps_iff k).mp hL
  simp only [tangent, Vector.get_ofFn, if_neg hw]

variable (m) in
/-- The point at a parameter of the line along the tangent from one point to another. -/
noncomputable def geodesic (p q : Vector ℚ m.frame.spacedim) (s : ℚ) : Vector ℚ m.frame.spacedim :=
  m.translate ((m.tangent p q).map (s * ·)) p

theorem get_geodesic_of_periodic (hL : 0 < m.periods.get k) (s : ℚ) :
    (m.geodesic p q s).get k =
      toIcoMod hL 0 (p.get k + s * shortest (m.periods.get k) (q.get k - p.get k)) := by
  rw [geodesic, get_translate_of_periodic hL, ← get_tangent_of_periodic hL]
  simp

theorem get_geodesic_of_not_periodic (hL : ¬ 0 < m.periods.get k) (s : ℚ) :
    (m.geodesic p q s).get k = p.get k + s * (q.get k - p.get k) := by
  rw [geodesic, get_translate_of_not_periodic hL, ← get_tangent_of_not_periodic hL]
  simp

theorem segmentQuadrature_ofVector (p q : Vector ℚ m.frame.spacedim) {u : ℚ}
    (hu : u ∈ Set.Icc 0 1) :
    m.manifold.segmentQuadrature (.ofVector p) (.ofVector q) u =
      .ok (m.quadrature [⟨p, 1 - u⟩, ⟨q, u⟩] (List.cons_ne_nil _ _)) :=
  m.manifold.segmentQuadrature_of_point (point_ofVector p) (point_ofVector q) hu

theorem geodesic_inBox (p q : Vector ℚ m.frame.spacedim) (s : ℚ) : m.InBox (m.geodesic p q s) := by
  intro k hL
  rw [get_geodesic_of_periodic hL]
  exact toIcoMod_mem_Ico' hL _

theorem intermediatePoint_eq_geodesic (hp : m.InBox p) (hq : m.InBox q) {u : ℚ}
    (hu : u ∈ Set.Icc 0 1) :
    m.manifold.intermediatePoint (.ofVector p) (.ofVector q) u =
      .ok (.ofVector (m.geodesic p q u)) := by
  obtain ⟨hu0, hu1⟩ := hu
  let samples : List (Sample ℚ m.frame.spacedim) := [⟨p, 1 - u⟩, ⟨q, u⟩]
  have hne : samples ≠ [] := List.cons_ne_nil _ _
  have hin : ∀ s ∈ samples, m.InBox s.point := by simp [samples, hp, hq]
  have hw : ∀ w ∈ samples.map Sample.weight, 0 ≤ w := by simp [samples, hu0, hu1]
  have hs : (samples.map Sample.weight).sum = 1 := by simp [samples]
  have hplace : m.place samples = m.geodesic p q u := by
    refine m.ext_axes (fun k hL => ?_) fun k hL => ?_
    · have hleast := isLeast_lowest (coordinates_ne_nil hne k)
      rw [place_of_inBox hne hin hw (by simp [hs]) hL hleast, get_geodesic_of_periodic hL,
        anchored_of_sum_eq_one hs]
      exact toIcoMod_combination_pair hL (hp k hL) (hq k hL) hleast u
    · rw [place_of_not_periodic hL (by simp [hs]), get_geodesic_of_not_periodic hL,
        anchored_of_sum_eq_one hs]
      simp only [samples, coordinates, List.map_cons, List.map_nil, combination_cons]
      simp only [combination, List.zipWith_nil_left, List.sum_nil]
      ring
  rw [Manifold.intermediatePoint, segmentQuadrature_ofVector p q ⟨hu0, hu1⟩, ← hplace]
  exact newPoint_of_inBox hne hin

theorem geodesic_geodesic (hp : m.InBox p) (hq : m.InBox q) {a b : ℚ} (ha : a ∈ Set.Icc 0 1)
    (hb : b ∈ Set.Icc 0 1) (u : ℚ) :
    m.geodesic (m.geodesic p q a) (m.geodesic p q b) u = m.geodesic p q (a + u * (b - a)) := by
  refine m.ext_axes (fun k hL => ?_) fun k hL => ?_
  · rw [get_geodesic_of_periodic hL, get_geodesic_of_periodic hL,
      get_geodesic_of_periodic hL, get_geodesic_of_periodic hL,
      shortest_along hL (hp k hL) (hq k hL) ha hb, toIcoMod_toIcoMod_add]
    congr 1
    ring
  · rw [get_geodesic_of_not_periodic hL, get_geodesic_of_not_periodic hL,
      get_geodesic_of_not_periodic hL, get_geodesic_of_not_periodic hL]
    ring

theorem geodesic_zero (hp : m.InBox p) (q : Vector ℚ m.frame.spacedim) : m.geodesic p q 0 = p := by
  refine m.ext_axes (fun k hL => ?_) fun k hL => ?_
  · rw [get_geodesic_of_periodic hL, along_zero hL (hp k hL)]
  · rw [get_geodesic_of_not_periodic hL]
    ring

theorem geodesic_one (p : Vector ℚ m.frame.spacedim) (hq : m.InBox q) : m.geodesic p q 1 = q := by
  refine m.ext_axes (fun k hL => ?_) fun k hL => ?_
  · rw [get_geodesic_of_periodic hL, along_one hL (hq k hL)]
  · rw [get_geodesic_of_not_periodic hL]
    ring

theorem intermediatePoint_of_point {x1 x2 : Tensor ℚ} (h1 : m.frame.point x1 = .ok p)
    (h2 : m.frame.point x2 = .ok q) (u : ℚ) :
    m.manifold.intermediatePoint x1 x2 u =
      m.manifold.intermediatePoint (.ofVector p) (.ofVector q) u := by
  have hpoints : m.manifold.segmentQuadrature x1 x2 u =
      m.manifold.segmentQuadrature (.ofVector p) (.ofVector q) u := by
    simp only [Manifold.segmentQuadrature, Manifold.frame, h1, h2, point_ofVector]
  rw [Manifold.intermediatePoint, hpoints, Manifold.intermediatePoint]

theorem tangent_of_point {x1 x2 : Tensor ℚ} (h1 : m.frame.point x1 = .ok p)
    (h2 : m.frame.point x2 = .ok q) :
    m.manifold.tangent x1 x2 = .ok (.ofVector (m.tangent p q)) := by
  simp only [Manifold.tangent, h1, h2]
  rfl

/-- The point at a fraction of the way lies at this fraction of the tangent, which is brought back
into the box along periodic axes. The fractions zero and one are the two points themselves. -/
theorem intermediatePoint_along_tangent (m : FlatSpace ℚ) {p q : Vector ℚ m.frame.spacedim}
    (hp : m.InBox p) (hq : m.InBox q) {x1 x2 : Tensor ℚ} (h1 : m.frame.point x1 = .ok p)
    (h2 : m.frame.point x2 = .ok q) :
    ∃ t : Vector ℚ m.frame.spacedim, m.manifold.tangent x1 x2 = .ok (.ofVector t) ∧
      (∀ u ∈ Set.Icc 0 1, ∃ r : Vector ℚ m.frame.spacedim,
        m.manifold.intermediatePoint x1 x2 u = .ok (.ofVector r) ∧
        ∀ k : Fin m.frame.spacedim,
          (∀ hL : 0 < m.periods.get k, r.get k = toIcoMod hL 0 (p.get k + u * t.get k)) ∧
          (m.periods.get k = 0 → r.get k = p.get k + u * t.get k)) ∧
      m.manifold.intermediatePoint x1 x2 0 = .ok (.ofVector p) ∧
      m.manifold.intermediatePoint x1 x2 1 = .ok (.ofVector q) := by
  refine ⟨m.tangent p q, tangent_of_point h1 h2, fun u hu => ?_, ?_, ?_⟩
  · refine ⟨m.geodesic p q u, ?_, fun k => ⟨fun hL => ?_, fun hk => ?_⟩⟩
    · rw [intermediatePoint_of_point h1 h2, intermediatePoint_eq_geodesic hp hq hu]
    · rw [get_geodesic_of_periodic hL, get_tangent_of_periodic hL]
    · have hL : ¬ 0 < m.periods.get k := by
        rw [hk]
        exact lt_irrefl _
      rw [get_geodesic_of_not_periodic hL, get_tangent_of_not_periodic hL]
  · rw [intermediatePoint_of_point h1 h2, intermediatePoint_eq_geodesic hp hq (by norm_num),
      geodesic_zero hp]
  · rw [intermediatePoint_of_point h1 h2, intermediatePoint_eq_geodesic hp hq (by norm_num),
      geodesic_one p hq]

theorem intermediatePoint_along_tangent_strip :
    strip.InBox #v[3 / 4, 0] ∧ strip.InBox #v[1 / 4, 1] ∧
    ∃ t : Vector ℚ strip.frame.spacedim,
      strip.manifold.tangent (.ofVector #v[3 / 4, 0]) (.ofVector #v[1 / 4, 1]) =
        .ok (.ofVector t) ∧
      ∃ r : Vector ℚ strip.frame.spacedim,
        strip.manifold.intermediatePoint (.ofVector #v[3 / 4, 0]) (.ofVector #v[1 / 4, 1]) (1 / 3) =
          .ok (.ofVector r) ∧
        r.get (0 : Fin 2) = toIcoMod one_pos 0 (3 / 4 + 1 / 3 * t.get (0 : Fin 2)) ∧
        r.get (1 : Fin 2) = 0 + 1 / 3 * t.get (1 : Fin 2) := by
  have hp : strip.InBox #v[3 / 4, 0] := strip_inBox (by norm_num)
  have hq : strip.InBox #v[1 / 4, 1] := strip_inBox (by norm_num)
  obtain ⟨t, ht, halong, -⟩ :=
    intermediatePoint_along_tangent strip hp hq (point_ofVector _) (point_ofVector _)
  obtain ⟨r, hr, haxes⟩ := halong (1 / 3) (by norm_num)
  exact ⟨hp, hq, t, ht, r, hr, (haxes (0 : Fin 2)).1 one_pos, (haxes (1 : Fin 2)).2 rfl⟩

end FlatSpace

end VertexPlacement
