import VertexPlacement.Proofs.Chart
import VertexPlacement.Proofs.Segment
import VertexPlacement.Proofs.CellPoint

namespace VertexPlacement

variable {α : Type}

/-- One of the points that a step averages, by its place among those found so far. -/
structure Draw (α : Type) where
  place : Nat
  weight : α

section Runs

variable [Scalar α] {d : Nat}

namespace Draw

structure Admissible (count : Nat) (draws : List (Draw α)) : Prop where
  ne_nil : draws ≠ []
  available : ∀ c ∈ draws, c.place < count
  partition : Quadrature.checkWeights (draws.map weight) Quadrature.weightSumTolerance = .ok ()

def quadrature (pool : List (Vector α d)) (draws : List (Draw α)) :
    Except (Fault α) (Quadrature α) := do
  let points ← draws.mapM fun c => Entity.item pool c.place
  Quadrature.ofRows (points.map Vector.toList) (draws.map weight)

end Draw

abbrev Placing (α : Type) (d : Nat) := Quadrature α → Except (Fault α) (Vector α d)

namespace Placing

variable (newPoint : Placing α d)

def outcome (pool : List (Vector α d)) (draws : List (Draw α)) : Except (Fault α) (Vector α d) :=
  Draw.quadrature pool draws >>= newPoint

/-- The points that later steps may draw. A step that fails adds none. -/
def grown (pool : List (Vector α d)) (draws : List (Draw α)) : List (Vector α d) :=
  pool ++ (newPoint.outcome pool draws).toOption.toList

theorem outcome_of_quadrature {pool : List (Vector α d)} {draws : List (Draw α)} {q : Quadrature α}
    (h : Draw.quadrature pool draws = .ok q) :
    newPoint.outcome pool draws = newPoint q := by
  rw [outcome, h, ok_bind]

theorem grown_of_ok {newPoint : Placing α d} {pool : List (Vector α d)} {draws : List (Draw α)}
    {p : Vector α d} (h : newPoint.outcome pool draws = .ok p) :
    newPoint.grown pool draws = pool ++ [p] := by
  rw [grown, h]
  rfl

theorem grown_of_error {newPoint : Placing α d} {pool : List (Vector α d)} {draws : List (Draw α)}
    {e : Fault α} (h : newPoint.outcome pool draws = .error e) :
    newPoint.grown pool draws = pool := by
  rw [grown, h]
  exact List.append_nil pool

def outcomes : List (Vector α d) → List (List (Draw α)) → List (Except (Fault α) (Vector α d))
  | _, [] => []
  | pool, draws :: rest => newPoint.outcome pool draws :: outcomes (newPoint.grown pool draws) rest

/-- One outcome for each step, which draws from the points at the start and those found before. -/
structure Records (pool : List (Vector α d)) (steps : List (List (Draw α)))
    (results : List (Except (Fault α) (Vector α d))) : Prop where
  length_eq : results.length = steps.length
  outcome_eq : ∀ i draws, steps[i]? = some draws → results[i]? =
    some (newPoint.outcome (pool ++ (results.take i).filterMap Except.toOption) draws)

theorem outcomes_records (pool : List (Vector α d)) (steps : List (List (Draw α))) :
    newPoint.Records pool steps (newPoint.outcomes pool steps) := by
  induction steps generalizing pool with
  | nil => exact ⟨rfl, nofun⟩
  | cons draws rest ih =>
    obtain ⟨hlen, hrest⟩ := ih (newPoint.grown pool draws)
    refine ⟨congrArg (· + 1) hlen, fun i later hi => ?_⟩
    cases i with
    | zero =>
      cases hi
      exact congrArg (fun p => some (newPoint.outcome p draws)) (List.append_nil pool).symm
    | succ i =>
      rw [outcomes, List.getElem?_cons_succ, List.take_succ_cons, filterMap_toOption_cons,
        ← List.append_assoc]
      exact hrest i later hi

def Admissible : List (Vector α d) → List (List (Draw α)) → Prop
  | _, [] => True
  | pool, draws :: rest =>
    Draw.Admissible pool.length draws ∧ Admissible (newPoint.grown pool draws) rest

end Placing

end Runs

section Quadratures

variable {d e : Nat}

theorem mapped_zipWith_mk {f : Vector α d → Except (Fault α) (Vector α e)}
    {us : List (Vector α e)} {ps : List (Vector α d)}
    (h : List.Forall₂ (fun u p => f p = .ok u) us ps) (ws : List α) :
    Quadrature.Mapped f (List.zipWith Sample.mk ps ws) (List.zipWith Sample.mk us ws) := by
  induction h generalizing ws with
  | nil => exact .nil
  | cons hp _ ih =>
    cases ws with
    | nil => exact .nil
    | cons w ws => exact .cons ⟨hp, rfl⟩ (ih ws)

theorem exists_mapM_item {β γ : Type} {R : β → γ → Prop} {us : List β} {ps : List γ}
    (h : List.Forall₂ R us ps) {draws : List (Draw α)} (hlt : ∀ c ∈ draws, c.place < us.length) :
    ∃ xs ys, draws.mapM (fun c => Entity.item us c.place) = (.ok xs : Except (Fault α) _) ∧
      draws.mapM (fun c => Entity.item ps c.place) = (.ok ys : Except (Fault α) _) ∧
      List.Forall₂ R xs ys ∧ xs.length = draws.length := by
  induction draws with
  | nil => exact ⟨[], [], rfl, rfl, .nil, rfl⟩
  | cons c rest ih =>
    obtain ⟨xs, ys, hxs, hys, hR, hlen⟩ := ih fun b hb => hlt b (by simp [hb])
    have hu : c.place < us.length := hlt c (by simp)
    have hp : c.place < ps.length := h.length_eq ▸ hu
    refine ⟨us[c.place] :: xs, ps[c.place] :: ys, ?_, ?_, .cons (h.get hu hp) hR, by simp [hlen]⟩
    · rw [List.mapM_cons, Entity.item_of_lt hu, hxs]
      rfl
    · rw [List.mapM_cons, Entity.item_of_lt hp, hys]
      rfl

end Quadratures

variable [Scalar α]

namespace Chart

variable (c : Chart α)

def newChartPoint : Placing α c.chartdim := c.sub.newPoint

theorem newChartPoint_cases {us : List (Vector α c.chartdim)} {ws : List α}
    (h : Quadrature.Weighing us ws) :
    (∃ u, c.newChartPoint h.quadrature = .ok u) ∨
      ∃ e, c.newChartPoint h.quadrature = .error e ∧ e.kind = .breach .pointOutOfBounds :=
  c.sub.newPoint_cases h.samples_ne_nil

/-- Chart points that are pulled back from their images, and among which flat space finds no others
than such points. -/
structure Faithful (D : Set (Vector α c.chartdim)) : Prop where
  inverse : ∀ u ∈ D, ∃ p, c.toSpace u = .ok p ∧ c.toChart (.ofVector p) = .ok u
  closed : ∀ {points : List (Vector α c.chartdim)} {ws : List α}
    (h : Quadrature.Weighing points ws), (∀ u ∈ points, u ∈ D) →
      ∀ u, c.newChartPoint h.quadrature = .ok u → u ∈ D

/-- A point of the chart and its image, or one and the same fault. -/
inductive Agree : Except (Fault α) (Vector α c.chartdim) →
    Except (Fault α) (Vector α c.frame.spacedim) → Prop
  | fault {e} (outside : e.kind = .breach .pointOutOfBounds) : Agree (.error e) (.error e)
  | point {u p} (push : c.toSpace u = .ok p) (pull : c.toChart (.ofVector p) = .ok u) :
    Agree (.ok u) (.ok p)

variable {c} {D : Set (Vector α c.chartdim)} {us : List (Vector α c.chartdim)}
  {ps : List (Vector α c.frame.spacedim)} {ws : List α}

theorem newPoint_quadrature
    (h : List.Forall₂ (fun u p => c.toChart (.ofVector p) = .ok u) us ps)
    (hu : Quadrature.Weighing us ws) (hp : Quadrature.Weighing ps ws) :
    c.newPoint hp.quadrature = c.newChartPoint hu.quadrature >>= c.toSpace :=
  newPoint_of_pulled (mapped_zipWith_mk h ws) hp.samples_ne_nil hu.samples_ne_nil

variable (c D) in
def Over (u : Vector α c.chartdim) (p : Vector α c.frame.spacedim) : Prop :=
  u ∈ D ∧ c.toSpace u = .ok p ∧ c.toChart (.ofVector p) = .ok u

theorem Faithful.exists_over (hD : c.Faithful D) (hus : ∀ u ∈ us, u ∈ D) :
    ∃ ps, us.mapM c.toSpace = .ok ps ∧ List.Forall₂ (c.Over D) us ps := by
  obtain ⟨ps, hps, hover⟩ := exists_mapM_forall₂ (f := c.toSpace) (g := id) (R := c.Over D)
    fun u hu => by
      obtain ⟨p, hpush, hpull⟩ := hD.inverse u (hus u hu)
      exact ⟨p, hpush, hus u hu, hpush, hpull⟩
  exact ⟨ps, by rwa [List.map_id] at hps, hover⟩

theorem Faithful.outcome (hD : c.Faithful D) (h : List.Forall₂ (c.Over D) us ps)
    {draws : List (Draw α)} (hadm : Draw.Admissible us.length draws) :
    c.Agree (Placing.outcome c.newChartPoint us draws) (Placing.outcome c.newPoint ps draws) ∧
      List.Forall₂ (c.Over D) (Placing.grown c.newChartPoint us draws)
        (Placing.grown c.newPoint ps draws) := by
  obtain ⟨xs, ys, hxs, hys, hxy, hlen⟩ := exists_mapM_item h hadm.available
  have hx : Quadrature.Weighing xs (draws.map Draw.weight) := by
    refine ⟨List.ne_nil_of_length_pos ?_, by simp [hlen], hadm.partition⟩
    rw [hlen]
    exact List.length_pos_iff.mpr hadm.ne_nil
  have hy : Quadrature.Weighing ys (draws.map Draw.weight) :=
    ⟨fun hy => hx.ne_nil (List.length_eq_zero_iff.mp (by rw [hxy.length_eq, hy, List.length_nil])),
      by rw [hx.length_eq, hxy.length_eq], hadm.partition⟩
  have hqx : Draw.quadrature us draws = .ok hx.quadrature := by
    rw [Draw.quadrature, hxs, ok_bind, hx.ofRows_eq]
  have hqy : Draw.quadrature ps draws = .ok hy.quadrature := by
    rw [Draw.quadrature, hys, ok_bind, hy.ofRows_eq]
  have hu := Placing.outcome_of_quadrature c.newChartPoint hqx
  have hp := Placing.outcome_of_quadrature c.newPoint hqy
  obtain ⟨hmem, hmaps⟩ := (List.forall₂_and_left _ _).mp hxy
  rw [newPoint_quadrature (hmaps.imp fun _ _ ho => ho.2) hx hy] at hp
  rcases c.newChartPoint_cases hx with ⟨u, hnew⟩ | ⟨e, hnew, hkind⟩
  · have huD : u ∈ D := hD.closed hx hmem u hnew
    obtain ⟨p, hpush, hpull⟩ := hD.inverse u huD
    replace hu : Placing.outcome c.newChartPoint us draws = .ok u := hu.trans hnew
    replace hp : Placing.outcome c.newPoint ps draws = .ok p := by
      rw [hp, hnew, ok_bind, hpush]
    rw [Placing.grown_of_ok hu, Placing.grown_of_ok hp, hu, hp]
    exact ⟨.point hpush hpull, List.rel_append h (.cons ⟨huD, hpush, hpull⟩ .nil)⟩
  · replace hu : Placing.outcome c.newChartPoint us draws = .error e := hu.trans hnew
    replace hp : Placing.outcome c.newPoint ps draws = .error e := by
      rw [hp, hnew]
      rfl
    rw [Placing.grown_of_error hu, Placing.grown_of_error hp, hu, hp]
    exact ⟨.fault hkind, h⟩

theorem Faithful.outcomes (hD : c.Faithful D) (h : List.Forall₂ (c.Over D) us ps)
    {steps : List (List (Draw α))} (hadm : Placing.Admissible c.newChartPoint us steps) :
    List.Forall₂ c.Agree (Placing.outcomes c.newChartPoint us steps)
      (Placing.outcomes c.newPoint ps steps) := by
  -- The points that a step may draw are those that earlier steps found, so that both pools vary.
  induction steps generalizing us ps with
  | nil => exact .nil
  | cons draws rest ih =>
    obtain ⟨hdraws, hrest⟩ := hadm
    obtain ⟨hagree, hgrown⟩ := hD.outcome h hdraws
    exact .cons hagree (ih hgrown hrest)

/-- A run on the manifold and the run in the chart that draws alike proceed in lockstep. Each step
leaves the box in both of them or in none, and then the new point of the manifold is the image of
the new point of the chart and is pulled back to it. -/
theorem outcomes_agree (c : Chart α) {D : Set (Vector α c.chartdim)} (hD : c.Faithful D)
    {us : List (Vector α c.chartdim)} (hus : ∀ u ∈ us, u ∈ D) {steps : List (List (Draw α))}
    (hadm : Placing.Admissible c.newChartPoint us steps) :
    ∃ ps, us.mapM c.toSpace = .ok ps ∧
      Placing.Records c.newChartPoint us steps (Placing.outcomes c.newChartPoint us steps) ∧
      Placing.Records c.newPoint ps steps (Placing.outcomes c.newPoint ps steps) ∧
      List.Forall₂ c.Agree (Placing.outcomes c.newChartPoint us steps)
        (Placing.outcomes c.newPoint ps steps) := by
  obtain ⟨ps, hps, hover⟩ := hD.exists_over hus
  exact ⟨ps, hps, Placing.outcomes_records c.newChartPoint us steps,
    Placing.outcomes_records c.newPoint ps steps, hD.outcomes hover hadm⟩

/-- In exact arithmetic the average of points of the box is another one, so that maps which undo
each other there need no more than that. -/
theorem faithful_inBox {c : Chart ℚ} (h : ∀ u : Vector ℚ c.chartdim, c.sub.InBox u →
      ∃ p, c.toSpace u = .ok p ∧ c.toChart (.ofVector p) = .ok u) :
    c.Faithful {u | c.sub.InBox u} := by
  refine ⟨h, fun {points ws} hq hpoints u hu => ?_⟩
  obtain ⟨t, ht, p, hp, rfl⟩ := FlatSpace.newPoint_weighing hq hpoints
  have hnew : c.sub.manifold.newPoint hq.quadrature = .ok (.ofVector u) := by
    rw [Manifold.newPoint]
    exact congrArg (· >>= _) hu
  exact Tensor.ofVector_injective (Except.ok.inj (ht.symm.trans hnew)) ▸ hp

def doubledStrip : Chart ℚ where
  frame := FlatSpace.strip.frame
  sub := FlatSpace.strip
  maps :=
    { pullBack := fun t => .ok (t.map (· / 2))
      pushForward := fun t => .ok (t.map (2 * ·))
      gradient := .given fun _ => .ok (.ofRows #v[#v[2, 0], #v[0, 2]])
      traced := false }

theorem doubledStrip_faithful : doubledStrip.Faithful {u | FlatSpace.strip.InBox u} := by
  refine faithful_inBox (c := doubledStrip) fun u _ => ⟨u.map (2 * ·),
    toSpace_of_pushForward (congrArg Except.ok (Tensor.map_ofVector _ u)), toChart_of_pullBack ?_⟩
  have hhalf : (u.map (2 * ·)).map (· / 2) = u := by
    rw [Vector.map_map]
    have hentry : ∀ x ∈ u, (fun x => 2 * x / 2) x = id x :=
      fun x _ => mul_div_cancel_left₀ x two_ne_zero
    exact (Vector.map_congr_left hentry).trans (Vector.map_id u)
  exact congrArg Except.ok ((Tensor.map_ofVector _ _).trans (congrArg Tensor.ofVector hhalf))

def doubledStart : List (Vector ℚ doubledStrip.chartdim) := [#v[7 / 8, 0], #v[1 / 8, 1 / 2]]

def doubledImages : List (Vector ℚ doubledStrip.frame.spacedim) := [#v[7 / 4, 0], #v[1 / 4, 1]]

def doubledSteps : List (List (Draw ℚ)) :=
  [[⟨0, 1 / 2⟩, ⟨1, 1 / 2⟩], [⟨2, 1 / 4⟩, ⟨0, 3 / 4⟩]]

theorem outcomes_agree_doubledStrip :
    doubledStart.mapM doubledStrip.toSpace = .ok doubledImages ∧
    (Placing.outcomes doubledStrip.newChartPoint doubledStart doubledSteps).map Except.toOption =
      ([#v[0, 1 / 4], #v[29 / 32, 1 / 16]] : List (Vector ℚ doubledStrip.chartdim)).map some ∧
    (Placing.outcomes doubledStrip.newPoint doubledImages doubledSteps).map Except.toOption =
      ([#v[0, 1 / 2], #v[29 / 16, 1 / 8]] : List (Vector ℚ doubledStrip.frame.spacedim)).map some ∧
    List.Forall₂ doubledStrip.Agree
      (Placing.outcomes doubledStrip.newChartPoint doubledStart doubledSteps)
      (Placing.outcomes doubledStrip.newPoint doubledImages doubledSteps) := by
  have hin : ∀ u ∈ doubledStart, u ∈ {u | FlatSpace.strip.InBox u} :=
    List.forall_mem_cons.mpr ⟨FlatSpace.strip_inBox (by norm_num),
      List.forall_mem_singleton.mpr (FlatSpace.strip_inBox (by norm_num))⟩
  have hws (v w : ℚ) (hv : 0 ≤ v) (hw : 0 ≤ w) (hs : v + w = 1) :
      Quadrature.checkWeights [v, w] Quadrature.weightSumTolerance = .ok () := by
    rw [Quadrature.checkWeights_eq_ok_iff, Quadrature.weightSumTolerance_eq]
    simp [hv, hw, hs]
  have hadm : Placing.Admissible doubledStrip.newChartPoint doubledStart doubledSteps := by
    refine ⟨⟨List.cons_ne_nil _ _, by decide, ?_⟩, ⟨List.cons_ne_nil _ _, ?_, ?_⟩, trivial⟩
    · exact hws _ _ (by norm_num) (by norm_num) (by norm_num)
    · decide +kernel
    · exact hws _ _ (by norm_num) (by norm_num) (by norm_num)
  obtain ⟨ps, hps, -, -, hagree⟩ := outcomes_agree doubledStrip doubledStrip_faithful hin hadm
  have himages : (doubledStart.mapM doubledStrip.toSpace).toOption = some doubledImages := by
    decide +kernel
  rw [hps] at himages
  obtain rfl := Option.some.inj himages
  exact ⟨hps, by decide +kernel, by decide +kernel, hagree⟩

end Chart

end VertexPlacement
