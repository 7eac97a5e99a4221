import VertexPlacement.Proofs.Samples
import VertexPlacement.Proofs.Segment

namespace VertexPlacement

structure Mark where
  point : Tensor ℚ
  parameter : ℚ
  deriving DecidableEq

structure Division where
  start : Nat
  stop : Nat
  fraction : ℚ

/-- Picks among marks of which there are `n` at first, each of which adds one more. -/
def Division.Admissible : Nat → List Division → Prop
  | _, [] => True
  | n, c :: rest =>
    c.start < n ∧ c.stop < n ∧ c.fraction ∈ Set.Icc 0 1 ∧ Division.Admissible (n + 1) rest

namespace Manifold

def extend (m : Manifold ℚ) (pool : List Mark) (c : Division) : Except (Fault ℚ) (List Mark) := do
  let a ← Entity.item pool c.start
  let b ← Entity.item pool c.stop
  let p ← m.intermediatePoint a.point b.point c.fraction
  return pool ++ [⟨p, a.parameter + c.fraction * (b.parameter - a.parameter)⟩]

def subdivide (m : Manifold ℚ) (pool : List Mark) (divisions : List Division) :
    Except (Fault ℚ) (List Mark) := divisions.foldlM m.extend pool

/-- The mark at a fraction of the way between two marks of a pool. -/
def Divides (m : Manifold ℚ) (pool : List Mark) (c : Division) (t : Mark) : Prop :=
  ∃ a b, pool[c.start]? = some a ∧ pool[c.stop]? = some b ∧
    m.intermediatePoint a.point b.point c.fraction = .ok t.point ∧
    t.parameter = a.parameter + c.fraction * (b.parameter - a.parameter)

theorem Divides.append {m : Manifold ℚ} {pool : List Mark} {c : Division} {t : Mark}
    (h : m.Divides pool c t) (later : List Mark) : m.Divides (pool ++ later) c t := by
  obtain ⟨a, b, ha, hb, hpoint⟩ := h
  have hmono {i : Nat} {x : Mark} (hi : pool[i]? = some x) : (pool ++ later)[i]? = some x := by
    rwa [List.getElem?_append_left (List.getElem?_eq_some_iff.mp hi).1]
  exact ⟨a, b, hmono ha, hmono hb, hpoint⟩

theorem extend_eq_ok {m : Manifold ℚ} {pool pool' : List Mark} {c : Division}
    (h : m.extend pool c = .ok pool') : ∃ t, m.Divides pool c t ∧ pool' = pool ++ [t] := by
  obtain ⟨a, ha, h⟩ := bind_eq_ok_iff.mp h
  obtain ⟨b, hb, h⟩ := bind_eq_ok_iff.mp h
  obtain ⟨p, hp, h⟩ := bind_eq_ok_iff.mp h
  cases h
  exact ⟨_, ⟨a, b, Entity.item_eq_ok_iff.mp ha, Entity.item_eq_ok_iff.mp hb, hp, rfl⟩, rfl⟩

theorem subdivide_eq_ok {m : Manifold ℚ} {pool pool' : List Mark} {divisions : List Division}
    (h : m.subdivide pool divisions = .ok pool') :
    ∃ marks, pool' = pool ++ marks ∧ List.Forall₂ (m.Divides pool') divisions marks := by
  induction divisions generalizing pool with
  | nil =>
    cases h
    exact ⟨[], (List.append_nil _).symm, .nil⟩
  | cons c rest ih =>
    rw [subdivide, List.foldlM_cons] at h
    obtain ⟨grown, hstep, hrest⟩ := bind_eq_ok_iff.mp h
    obtain ⟨t, ht, rfl⟩ := extend_eq_ok hstep
    obtain ⟨marks, rfl, hmarks⟩ := ih hrest
    refine ⟨t :: marks, List.append_assoc pool [t] marks, .cons ?_ hmarks⟩
    rw [List.append_assoc]
    exact ht.append _

/-- The vertices along a line that is split at its new point, as its halves are after it, down to a
depth. -/
def bisect (m : Manifold ℚ) : Nat → Entity ℚ → Except (Fault ℚ) (List (Tensor ℚ))
  | 0, line => return line.vertices
  | n + 1, line => do
    let split ← line.refineLine (some (← m.newPointOn .line line))
    let left ← bisect m n (← split.child 0)
    let right ← bisect m n (← split.child 1)
    return left ++ right.tail

end Manifold

namespace FlatSpace

variable {m : FlatSpace ℚ} {p q : Vector ℚ m.frame.spacedim}

variable (m p q) in
def OnLine (a : Mark) : Prop :=
  a.parameter ∈ Set.Icc 0 1 ∧ a.point = .ofVector (m.geodesic p q a.parameter)

theorem extend_onLine (hp : m.InBox p) (hq : m.InBox q) {pool : List Mark} {c : Division}
    (hpool : ∀ a ∈ pool, m.OnLine p q a) (hs : c.start < pool.length) (ht : c.stop < pool.length)
    (hu : c.fraction ∈ Set.Icc 0 1) :
    ∃ a, m.manifold.extend pool c = .ok (pool ++ [a]) ∧ m.OnLine p q a := by
  obtain ⟨⟨ha0, ha1⟩, ha⟩ := hpool _ (List.getElem_mem hs)
  obtain ⟨⟨hb0, hb1⟩, hb⟩ := hpool _ (List.getElem_mem ht)
  obtain ⟨hu0, hu1⟩ := hu
  have hnew := intermediatePoint_eq_geodesic (geodesic_inBox p q pool[c.start].parameter)
    (geodesic_inBox p q pool[c.stop].parameter) ⟨hu0, hu1⟩
  rw [geodesic_geodesic hp hq ⟨ha0, ha1⟩ ⟨hb0, hb1⟩, ← ha, ← hb] at hnew
  let t := pool[c.start].parameter +
    c.fraction * (pool[c.stop].parameter - pool[c.start].parameter)
  refine ⟨⟨.ofVector (m.geodesic p q t), t⟩, ?_, ?_, rfl⟩
  · simp only [Manifold.extend, Entity.item_of_lt hs, Entity.item_of_lt ht]
    change (m.manifold.intermediatePoint _ _ c.fraction >>= _) = _
    rw [hnew]
    rfl
  · have h1 := mul_nonneg hu0 hb0
    have h2 := mul_nonneg (sub_nonneg.mpr hu1) ha0
    have h3 := mul_le_mul_of_nonneg_left hb1 hu0
    have h4 := mul_le_mul_of_nonneg_left ha1 (sub_nonneg.mpr hu1)
    constructor <;> linarith

theorem subdivide_onLine (hp : m.InBox p) (hq : m.InBox q) {pool : List Mark}
    {divisions : List Division} (hpool : ∀ a ∈ pool, m.OnLine p q a)
    (hadm : Division.Admissible pool.length divisions) :
    ∃ pool', m.manifold.subdivide pool divisions = .ok pool' ∧
      pool'.length = pool.length + divisions.length ∧ ∀ a ∈ pool', m.OnLine p q a := by
  induction divisions generalizing pool with
  | nil => exact ⟨pool, rfl, rfl, hpool⟩
  | cons c rest ih =>
    obtain ⟨hs, ht, hu, hrest⟩ := hadm
    obtain ⟨a, hstep, ha⟩ := extend_onLine hp hq hpool hs ht hu
    have hpool' : ∀ b ∈ pool ++ [a], m.OnLine p q b := by
      intro b hb
      rcases List.mem_append.mp hb with hb | hb
      · exact hpool b hb
      · rw [List.mem_singleton.mp hb]
        exact ha
    obtain ⟨pool', hrun, hlen, hmarks⟩ := ih hpool' (by simpa using hrest)
    refine ⟨pool', ?_, ?_, hmarks⟩
    · rw [Manifold.subdivide, List.foldlM_cons, hstep]
      exact hrun
    · rw [hlen, List.length_append, List.length_singleton, List.length_cons]
      omega

theorem newPointOn_line (hp : m.InBox p) (hq : m.InBox q) :
    m.manifold.newPointOn .line (.ofLine (.ofVector p) (.ofVector q)) =
      .ok (.ofVector (m.geodesic p q (1 / 2))) := by
  have hc : (Entity.ofLine (.ofVector p) (.ofVector q) : Entity ℚ).samples.corners 2 =
      .ok ([p, q].map Vector.toList) := rfl
  obtain ⟨h, hquad⟩ := CellSamples.quadrature_line Cell.balanced_rat hc rfl false
  have hmid := intermediatePoint_eq_geodesic hp hq (u := 1 / 2) (by norm_num)
  rw [Manifold.intermediatePoint, segmentQuadrature_ofVector p q (by norm_num)] at hmid
  have hws : List.zipWith Sample.mk [p, q] (Cell.sampleWeights 1 false) =
      [⟨p, 1 - 1 / 2⟩, ⟨q, 1 / 2⟩] := by
    simp only [Cell.sampleWeights, Cell.lineWeights, Cell.Weights.spread, Scalar.ratio_eq]
    norm_num [List.replicate]
  rw [Manifold.newPointOn, Manifold.quadratureOn, hquad, ← hmid]
  simp only [Quadrature.Weighing.quadrature, hws]

theorem bisect_succ (m : Manifold ℚ) (n : Nat) (a b : Tensor ℚ) :
    m.bisect (n + 1) (.ofLine a b) = (do
      let c ← m.newPointOn .line (.ofLine a b)
      let left ← m.bisect n (.ofLine a c)
      let right ← m.bisect n (.ofLine c b)
      return left ++ right.tail) := rfl

theorem bisect_eq (hp : m.InBox p) (hq : m.InBox q) (n : Nat) {a b : ℚ} (ha : a ∈ Set.Icc 0 1)
    (hb : b ∈ Set.Icc 0 1) :
    m.manifold.bisect n (.ofLine (.ofVector (m.geodesic p q a)) (.ofVector (m.geodesic p q b))) =
      .ok ((List.range (2 ^ n + 1)).map fun k : Nat =>
        .ofVector (m.geodesic p q (a + k / 2 ^ n * (b - a)))) := by
  -- A half is bisected between other points of the line, and the ends are those of any part of it.
  induction n generalizing a b with
  | zero => simp [Manifold.bisect, Entity.ofLine, Entity.bare, List.range_succ, pure, Except.pure]
  | succ n ih =>
    obtain ⟨c, hcdef⟩ : ∃ c, c = a + 1 / 2 * (b - a) := ⟨_, rfl⟩
    have hc : c ∈ Set.Icc 0 1 := ⟨by linarith [ha.1, hb.1], by linarith [ha.2, hb.2]⟩
    have hmid := newPointOn_line (geodesic_inBox p q a) (geodesic_inBox p q b)
    rw [geodesic_geodesic hp hq ha hb, ← hcdef] at hmid
    have hrange : List.range (2 ^ (n + 1) + 1) =
        List.range (2 ^ n + 1) ++ (List.range (2 ^ n)).map (2 ^ n + 1 + ·) := by
      rw [← List.range_add, pow_succ, Nat.mul_two, add_right_comm]
    rw [bisect_succ, hmid]
    change (m.manifold.bisect n (.ofLine _ (.ofVector (m.geodesic p q c))) >>= fun left =>
      m.manifold.bisect n (.ofLine (.ofVector (m.geodesic p q c)) _) >>= fun right =>
        .ok (left ++ right.tail)) = _
    rw [ih ha hc, ih hc hb, hrange, List.map_append]
    refine congrArg Except.ok (congrArg₂ (· ++ ·) ?_ ?_)
    · refine List.map_congr_left fun k _ => ?_
      congr 2
      rw [hcdef, pow_succ]
      ring
    · rw [List.range_succ_eq_map, List.map_cons, List.tail_cons, List.map_map, List.map_map]
      refine List.map_congr_left fun k _ => ?_
      simp only [Function.comp_apply]
      congr 2
      rw [hcdef, pow_succ]
      push_cast
      field_simp
      ring

/-- Points found between points that were found before all lie on the line between the two ends, as
the point at the fraction that their parameter is, and so do the vertices of bisected lines. -/
theorem subdivide_geodesic (m : FlatSpace ℚ) {p q : Vector ℚ m.frame.spacedim} (hp : m.InBox p)
    (hq : m.InBox q) :
    (∀ divisions, Division.Admissible 2 divisions → ∃ pool marks,
      m.manifold.subdivide [⟨.ofVector p, 0⟩, ⟨.ofVector q, 1⟩] divisions = .ok pool ∧
      pool = [⟨.ofVector p, 0⟩, ⟨.ofVector q, 1⟩] ++ marks ∧
      List.Forall₂ (m.manifold.Divides pool) divisions marks ∧
      pool.length = divisions.length + 2 ∧
      ∀ a ∈ pool, m.manifold.intermediatePoint (.ofVector p) (.ofVector q) a.parameter =
        .ok a.point) ∧
    ∀ n : Nat, ∃ points, m.manifold.bisect n (.ofLine (.ofVector p) (.ofVector q)) = .ok points ∧
      points.map .ok = (List.range (2 ^ n + 1)).map fun k : Nat =>
        m.manifold.intermediatePoint (.ofVector p) (.ofVector q) (k / 2 ^ n) := by
  constructor
  · intro divisions hadm
    have hends : ∀ a ∈ [Mark.mk (.ofVector p) 0, ⟨.ofVector q, 1⟩], m.OnLine p q a := by
      simp [OnLine, geodesic_zero hp, geodesic_one p hq]
    obtain ⟨pool, hrun, hlen, hmarks⟩ := subdivide_onLine hp hq hends hadm
    obtain ⟨marks, hpool, hdivides⟩ := Manifold.subdivide_eq_ok hrun
    refine ⟨pool, marks, hrun, hpool, hdivides, ?_, ?_⟩
    · rw [hlen, List.length_cons, List.length_singleton, add_comm]
    · intro a ha
      obtain ⟨hparam, hpoint⟩ := hmarks a ha
      rw [hpoint, intermediatePoint_eq_geodesic hp hq hparam]
  · intro n
    have hbis := bisect_eq hp hq n (a := 0) (b := 1) (by norm_num) (by norm_num)
    rw [geodesic_zero hp, geodesic_one p hq] at hbis
    refine ⟨_, hbis, ?_⟩
    rw [List.map_map]
    refine List.map_congr_left fun k hk => ?_
    have hfrac : (k : ℚ) / 2 ^ n ∈ Set.Icc 0 1 := by
      have hle : (k : ℚ) ≤ 2 ^ n := by
        exact_mod_cast Nat.lt_succ_iff.mp (List.mem_range.mp hk)
      exact ⟨by positivity, div_le_one_of_le₀ hle (by positivity)⟩
    rw [intermediatePoint_eq_geodesic hp hq hfrac, Function.comp_apply, sub_zero, mul_one, zero_add]

def stripEnds : List Mark := [⟨.ofVector #v[0, 1 / 10], 0⟩, ⟨.ofVector #v[1 / 2, 1], 1⟩]

def stripDivisions : List Division := [⟨1, 0, 1 / 3⟩, ⟨2, 0, 1 / 2⟩]

theorem subdivide_geodesic_strip :
    ∃ pool, strip.manifold.subdivide stripEnds stripDivisions = .ok pool ∧
      pool = stripEnds ++
        [⟨.ofVector #v[1 / 3, 7 / 10], 2 / 3⟩, ⟨.ofVector #v[1 / 6, 2 / 5], 1 / 3⟩] ∧
      ∀ a ∈ pool, strip.manifold.intermediatePoint (.ofVector #v[0, 1 / 10])
        (.ofVector #v[1 / 2, 1]) a.parameter = .ok a.point := by
  have hp : strip.InBox #v[0, 1 / 10] := strip_inBox (by norm_num)
  have hq : strip.InBox #v[1 / 2, 1] := strip_inBox (by norm_num)
  obtain ⟨pool, _, hrun, -, -, -, hpoints⟩ := (subdivide_geodesic strip hp hq).1 stripDivisions
    (by norm_num [stripDivisions, Division.Admissible])
  have hpool : (strip.manifold.subdivide stripEnds stripDivisions).toOption = some (stripEnds ++
      [⟨.ofVector #v[1 / 3, 7 / 10], 2 / 3⟩, ⟨.ofVector #v[1 / 6, 2 / 5], 1 / 3⟩]) := by
    decide +kernel
  have hrun' : strip.manifold.subdivide stripEnds stripDivisions = .ok pool := hrun
  rw [hrun'] at hpool
  exact ⟨pool, hrun', Option.some.inj hpool, hpoints⟩

end FlatSpace

end VertexPlacement
