import VertexPlacement.Proofs.Chart
import VertexPlacement.Proofs.FirstFailure

namespace VertexPlacement

variable {α : Type}

inductive Consultation (α : Type) where
  | pullBack (p : Tensor α)
  | pushForward (u : Tensor α)
  | gradient (u : Tensor α)

theorem Frame.accept_eq_error_iff {f : Frame} {q : Quadrature α} {e : Fault α} :
    f.accept q = .error e ↔ q.spacedim ≠ f.spacedim ∧
      e = .mismatch (.quadrature (toString q.spacedim) f.spacedimQuote) := by
  rw [accept]
  split
  · next h => exact ⟨nofun, fun he => absurd h he.1⟩
  · next h => exact ⟨fun he => by cases he; exact ⟨h, rfl⟩, fun ⟨_, he⟩ => by rw [he]⟩

theorem Frame.point_eq_error_iff {f : Frame} {t : Tensor α} {e : Fault α} :
    f.point t = .error e ↔ t.size ≠ f.spacedim ∧
      e = .mismatch (.point t.size f.spacedimQuote) := by
  rw [point, asPoint]
  split
  · next h => exact ⟨nofun, fun he => absurd h he.1⟩
  · next h => exact ⟨fun he => by cases he; exact ⟨h, rfl⟩, fun ⟨_, he⟩ => by rw [he]; rfl⟩

theorem Quadrature.mapPoints_eq_error_iff {d e : Nat} {samples : List (Sample α d)}
    (hne : samples ≠ []) {f : Vector α d → Except (Fault α) (Vector α e)} {fault : Fault α} :
    (mk d samples hne).mapPoints f = .error fault ↔
      FirstFailure samples (fun s fault => f s.point = .error fault) fault := by
  have hone (s : Sample α d) (fault : Fault α) :
      (f s.point).map (Sample.mk · s.weight) = .error fault ↔ f s.point = .error fault := by
    cases f s.point with
    | error _ => simp [Except.map]
    | ok _ => exact ⟨nofun, nofun⟩
  have hall : samples.mapM (fun s => (f s.point).map (Sample.mk · s.weight)) = .error fault ↔
      FirstFailure samples (fun s fault => f s.point = .error fault) fault :=
    mapM_eq_error_iff.trans (firstFailure_congr fun s _ g => hone s g)
  unfold mapPoints
  split
  · next g hg =>
    rw [← hall, hg]
    simp
  · next us hus =>
    refine ⟨nofun, fun h => ?_⟩
    cases hus.symm.trans (hall.mpr h)

theorem Quadrature.mapped_zipWith {d e : Nat} {f : Vector α d → Except (Fault α) (Vector α e)}
    {samples : List (Sample α d)} {us : List (Vector α e)}
    (h : samples.mapM (fun s => f s.point) = .ok us) :
    Mapped f samples (List.zipWith Sample.mk us (samples.map Sample.weight)) := by
  have hall := mapM_eq_ok_iff.mp h
  clear h
  induction hall with
  | nil => exact .nil
  | cons hs _ ih => exact .cons ⟨hs, rfl⟩ ih

namespace Chart

variable [Scalar α] (c : Chart α)

def consult : Consultation α → Except (Fault α) (Tensor α)
  | .pullBack p => c.maps.pullBack p
  | .pushForward u => c.maps.pushForward u
  | .gradient u => c.gradientAt u

/-- What is wrong with the form of what a map returns. Points may come in any shape, and gradients
have to be matrices. -/
def misfit? : Consultation α → Tensor α → Option Mismatch
  | .pullBack _, t =>
    if t.size = c.chartdim then none else some (.pullBack t.size c.sub.frame.spacedimQuote)
  | .pushForward _, t =>
    if t.size = c.frame.spacedim then none else some (.point t.size c.frame.spacedimQuote)
  | .gradient _, t =>
    if t.shape = [c.frame.spacedim, c.chartdim] then none
    else some (.gradient t.shape c.frame.spacedimQuote c.sub.frame.spacedimQuote)

/-- The fault of a map that raises one or returns something of the wrong form. -/
inductive Blames (k : Consultation α) : Fault α → Prop
  | raised {e} (raises : c.consult k = .error e) : Blames k e
  | misfit {t m} (returns : c.consult k = .ok t) (unfit : c.misfit? k t = some m) :
      Blames k (.mismatch m)

variable {c} {e : Fault α}

theorem bind_eq_error_iff_blames {β : Type} {k : Consultation α}
    {g : Tensor α → Except (Fault α) β}
    (hg : ∀ t, g t = .error e ↔ ∃ m, c.misfit? k t = some m ∧ e = .mismatch m) :
    c.consult k >>= g = .error e ↔ c.Blames k e := by
  rw [bind_eq_error_iff_or]
  constructor
  · rintro (raises | ⟨t, returns, ht⟩)
    · exact .raised raises
    · obtain ⟨m, unfit, rfl⟩ := (hg t).mp ht
      exact .misfit returns unfit
  · intro h
    cases h with
    | raised raises => exact .inl raises
    | misfit returns unfit => exact .inr ⟨_, returns, (hg _).mpr ⟨_, unfit, rfl⟩⟩

theorem toChart_eq_error_iff {p : Tensor α} :
    c.toChart p = .error e ↔ c.Blames (.pullBack p) e := by
  refine bind_eq_error_iff_blames (k := .pullBack p) fun t => ?_
  rw [chartPoint]
  split
  · next hs => simp [misfit?, Tensor.size, hs]
  · next hs => simp [misfit?, Tensor.size, hs, eq_comm]

theorem toSpace_eq_error_iff {u : Vector α c.chartdim} :
    c.toSpace u = .error e ↔ c.Blames (.pushForward (.ofVector u)) e := by
  refine bind_eq_error_iff_blames (k := .pushForward (.ofVector u)) fun t => ?_
  rw [Frame.point_eq_error_iff]
  by_cases hs : t.size = c.frame.spacedim
  · simp [misfit?, hs]
  · simp [misfit?, hs]

section Outcomes

variable (c)

/-- Samples that are refused on their own account. -/
inductive RefusesSamples (q : Quadrature α) : Fault α → Prop
  | dimension (other : q.spacedim ≠ c.frame.spacedim) :
      RefusesSamples q (.mismatch (.quadrature (toString q.spacedim) c.frame.spacedimQuote))
  | outside {us i s k} (space : q.spacedim = c.frame.spacedim)
      (pulled : Quadrature.Mapped (fun p => c.toChart (.ofVector p)) q.samples us)
      (first : c.sub.FirstOffence us i s k) :
      RefusesSamples q (.outsideBox i (s.point.get k) (c.sub.periods.get k))

inductive RefusesEnds (x1 x2 : Tensor α) : Fault α → Prop
  | first (other : x1.size ≠ c.frame.spacedim) :
      RefusesEnds x1 x2 (.mismatch (.point x1.size c.frame.spacedimQuote))
  | second {u} (pulled : c.start x1 = .ok u) (other : x2.size ≠ c.frame.spacedim) :
      RefusesEnds x1 x2 (.mismatch (.point x2.size c.frame.spacedimQuote))

/-- The maps that are consulted to place a new point. Each is reached only if nothing has failed
before. -/
inductive PlacingConsults (q : Quadrature α) : Consultation α → Prop
  | pullBack {before s after} (space : q.spacedim = c.frame.spacedim)
      (split : q.samples = before ++ s :: after)
      (pulled : ∀ b ∈ before, ∃ u, c.toChart (.ofVector b.point) = .ok u) :
      PlacingConsults q (.pullBack (.ofVector s.point))
  | pushForward {us hus u} (space : q.spacedim = c.frame.spacedim)
      (pulled : Quadrature.Mapped (fun p => c.toChart (.ofVector p)) q.samples us)
      (found : c.sub.newPoint ⟨c.chartdim, us, hus⟩ = .ok u) :
      PlacingConsults q (.pushForward (.ofVector u))

inductive ProjectingConsults (p : Tensor α) : Consultation α → Prop
  | pullBack : ProjectingConsults p (.pullBack p)
  | pushForward {u} (pulled : c.toChart p = .ok u) :
      ProjectingConsults p (.pushForward (.ofVector u))

inductive HeadingConsults (x1 x2 : Tensor α) : Consultation α → Prop
  | first {p} (read : c.frame.point x1 = .ok p) : HeadingConsults x1 x2 (.pullBack (.ofVector p))
  | second {u p} (pulled : c.start x1 = .ok u) (read : c.frame.point x2 = .ok p) :
      HeadingConsults x1 x2 (.pullBack (.ofVector p))
  | gradient {u v} (pulled : c.start x1 = .ok u) (pulled' : c.start x2 = .ok v) :
      HeadingConsults x1 x2 (.gradient (.ofVector u))

variable {c}

theorem pulledBack_cases (q : Quadrature α) :
    (q.spacedim ≠ c.frame.spacedim ∧ c.pulledBack q =
      .error (.mismatch (.quadrature (toString q.spacedim) c.frame.spacedimQuote))) ∨
    q.spacedim = c.frame.spacedim ∧
      c.pulledBack q = q.mapPoints fun p => c.toChart (.ofVector p) := by
  by_cases hd : q.spacedim = c.frame.spacedim
  · obtain ⟨d, samples, hne⟩ := q
    change d = _ at hd
    subst hd
    refine .inr ⟨rfl, ?_⟩
    rw [pulledBack, c.frame.accept_eq hne]
    rfl
  · refine .inl ⟨hd, ?_⟩
    rw [pulledBack, Frame.accept_eq_error_iff.mpr ⟨hd, rfl⟩]
    rfl

theorem placing_eq_error_iff {us : List (Sample α c.chartdim)} (hus : us ≠ []) :
    c.sub.newPoint ⟨c.chartdim, us, hus⟩ >>= c.toSpace = .error e ↔
      (∃ i s k, c.sub.FirstOffence us i s k ∧
        e = .outsideBox i (s.point.get k) (c.sub.periods.get k)) ∨
      ∃ u, c.sub.newPoint ⟨c.chartdim, us, hus⟩ = .ok u ∧
        c.Blames (.pushForward (.ofVector u)) e := by
  have hsub : c.sub.newPoint ⟨c.chartdim, us, hus⟩ = .error e ↔ ∃ i s k,
      c.sub.FirstOffence us i s k ∧ e = .outsideBox i (s.point.get k) (c.sub.periods.get k) :=
    (c.sub.newPoint_eq_error_iff hus).trans FlatSpace.boxFault?_eq_some_iff
  refine (bind_eq_error_iff_or (f := c.toSpace)).trans (or_congr hsub ?_)
  exact exists_congr fun u => and_congr_right fun _ => toSpace_eq_error_iff

theorem newPoint_eq_error_iff (q : Quadrature α) : c.newPoint q = .error e ↔
    c.RefusesSamples q e ∨ ∃ k, c.PlacingConsults q k ∧ c.Blames k e := by
  rcases pulledBack_cases (c := c) q with ⟨hd, hq⟩ | ⟨hd, hq⟩
  · have hnew : c.newPoint q =
        .error (.mismatch (.quadrature (toString q.spacedim) c.frame.spacedimQuote)) := by
      rw [newPoint, hq]
      rfl
    rw [hnew]
    constructor
    · intro h
      cases h
      exact .inl (.dimension hd)
    · rintro (h | ⟨k, hk, -⟩)
      · cases h with
        | dimension other => rfl
        | outside space => exact absurd space hd
      · cases hk with
        | pullBack space => exact absurd space hd
        | pushForward space => exact absurd space hd
  · -- Behind the maps only a sample out of the box is left to fail, since what is pulled back
    -- is a quadrature of the flat space.
    rw [newPoint, bind_eq_error_iff_or, hq, Quadrature.mapPoints_eq_error_iff q.nonempty]
    constructor
    · rintro (⟨before, s, after, hsplit, hbefore, hs⟩ | ⟨inner, hinner, hplace⟩)
      · have hpulled : ∀ b ∈ before, ∃ u, c.toChart (.ofVector b.point) = .ok u :=
          fun b hb => exists_eq_ok (hbefore b hb)
        exact .inr ⟨_, .pullBack hd hsplit hpulled, toChart_eq_error_iff.mp hs⟩
      · obtain ⟨us, hus, rfl, hmapped⟩ := (Quadrature.mapPoints_eq_ok_iff q.nonempty).mp hinner
        rcases (placing_eq_error_iff hus).mp hplace with ⟨i, s, k, hfirst, rfl⟩ | ⟨u, hu, hb⟩
        · exact .inl (.outside hd hmapped hfirst)
        · exact .inr ⟨_, .pushForward hd hmapped hu, hb⟩
    · rintro (h | ⟨k, hk, hb⟩)
      · cases h with
        | dimension other => exact absurd hd other
        | @outside us i s k _ pulled first =>
          have hus := pulled.ne_nil q.nonempty
          exact .inr ⟨_, (Quadrature.mapPoints_eq_ok_iff q.nonempty).mpr ⟨us, hus, rfl, pulled⟩,
            (placing_eq_error_iff hus).mpr (.inl ⟨i, s, k, first, rfl⟩)⟩
      · cases hk with
        | @pullBack before s after _ split pulled =>
          refine .inl ⟨before, s, after, split, fun b hb' g hg => ?_, toChart_eq_error_iff.mpr hb⟩
          obtain ⟨u, hu⟩ := pulled b hb'
          cases hu.symm.trans hg
        | @pushForward us hus u _ pulled found =>
          exact .inr ⟨_, (Quadrature.mapPoints_eq_ok_iff q.nonempty).mpr ⟨us, hus, rfl, pulled⟩,
            (placing_eq_error_iff hus).mpr (.inr ⟨u, found, hb⟩)⟩

theorem project_eq_error_iff (p : Tensor α) : c.project p = .error e ↔
    ∃ k, c.ProjectingConsults p k ∧ c.Blames k e := by
  rw [project, bind_eq_error_iff_or, toChart_eq_error_iff]
  constructor
  · rintro (hb | ⟨u, hu, hpush⟩)
    · exact ⟨_, .pullBack, hb⟩
    · exact ⟨_, .pushForward hu, toSpace_eq_error_iff.mp hpush⟩
  · rintro ⟨k, hk, hb⟩
    cases hk with
    | pullBack => exact .inl hb
    | pushForward pulled => exact .inr ⟨_, pulled, toSpace_eq_error_iff.mpr hb⟩

theorem start_eq_error_iff {x : Tensor α} : c.start x = .error e ↔
    (x.size ≠ c.frame.spacedim ∧ e = .mismatch (.point x.size c.frame.spacedimQuote)) ∨
      ∃ p, c.frame.point x = .ok p ∧ c.Blames (.pullBack (.ofVector p)) e := by
  rw [start, bind_eq_error_iff_or, Frame.point_eq_error_iff]
  simp only [toChart_eq_error_iff]

theorem tangentFrom_eq_error_iff {u : Vector α c.chartdim} {x : Tensor α} :
    c.tangentFrom u x = .error e ↔ c.start x = .error e ∨
      ∃ v, c.start x = .ok v ∧ c.Blames (.gradient (.ofVector u)) e := by
  have hsplit : c.tangentFrom u x = c.start x >>= fun v => c.gradientAt (.ofVector u) >>= fun t =>
      if t.shape = [c.frame.spacedim, c.chartdim] then
        .ok (applyMatrix c.frame.spacedim t.entries (c.sub.tangent u v))
      else .error (.mismatch
        (.gradient t.shape c.frame.spacedimQuote c.sub.frame.spacedimQuote)) := by
    rw [start, bind_assoc]
    rfl
  rw [hsplit, bind_eq_error_iff_or]
  refine or_congr_right (exists_congr fun v => and_congr_right fun _ => ?_)
  refine bind_eq_error_iff_blames (k := .gradient (.ofVector u)) fun t => ?_
  by_cases hs : t.shape = [c.frame.spacedim, c.chartdim]
  · simp [misfit?, hs]
  · simp [misfit?, hs, eq_comm]

theorem tangent_eq_error_iff (x1 x2 : Tensor α) : c.tangent x1 x2 = .error e ↔
    c.RefusesEnds x1 x2 e ∨ ∃ k, c.HeadingConsults x1 x2 k ∧ c.Blames k e := by
  rw [tangent, bind_eq_error_iff_or, start_eq_error_iff]
  simp only [tangentFrom_eq_error_iff, start_eq_error_iff]
  constructor
  · rintro ((⟨hx, rfl⟩ | ⟨p, hp, hb⟩) |
      ⟨u, hu, (⟨hx, rfl⟩ | ⟨p, hp, hb⟩) | ⟨v, hv, hb⟩⟩)
    · exact .inl (.first hx)
    · exact .inr ⟨_, .first hp, hb⟩
    · exact .inl (.second hu hx)
    · exact .inr ⟨_, .second hu hp, hb⟩
    · exact .inr ⟨_, .gradient hu hv, hb⟩
  · rintro (h | ⟨k, hk, hb⟩)
    · cases h with
      | first other => exact .inl (.inl ⟨other, rfl⟩)
      | second pulled other => exact .inr ⟨_, pulled, .inl (.inl ⟨other, rfl⟩)⟩
    · cases hk with
      | first read => exact .inl (.inr ⟨_, read, hb⟩)
      | second pulled read => exact .inr ⟨_, pulled, .inl (.inr ⟨_, read, hb⟩)⟩
      | gradient pulled pulled' => exact .inr ⟨_, pulled, .inr ⟨_, pulled', hb⟩⟩

end Outcomes

/-- The samples of a quadrature as they are made up again in the chart: their points are stacked to
a matrix, and its rows get the weights, which are not checked. -/
def stacked (c : Chart α) (us : List (Vector α c.chartdim)) (ws : List α) :
    Except (Fault α) (Quadrature α) := do
  Quadrature.build (← Fault.fitted (Quadrature.stackRows? (us.map Vector.toList))) (.ofList ws)
    false

theorem stacked_eq {us : List (Vector α c.chartdim)} {ws : List α} (hne : us ≠ [])
    (hl : ws.length = us.length) : c.stacked us ws =
      .ok ⟨c.chartdim, List.zipWith Sample.mk us ws, Quadrature.zipWith_mk_ne_nil hne hl⟩ := by
  rw [stacked, Quadrature.stackRows?_points hne]
  change Quadrature.build _ _ false = _
  rw [Quadrature.build, Quadrature.ofArrays_ofPoints hne hl]
  rfl

theorem newPoint_of_mapM {q : Quadrature α} (hd : q.spacedim = c.frame.spacedim)
    {us : List (Vector α c.chartdim)}
    (h : q.samples.mapM (fun s => c.toChart (.ofVector s.point)) = .ok us) :
    ∃ inner samples, c.stacked us q.weights = .ok inner ∧
      c.sub.frame.accept inner = .ok samples ∧
      c.newPoint q = c.sub.newPoint inner >>= c.toSpace := by
  have hmapped := Quadrature.mapped_zipWith (f := fun p => c.toChart (.ofVector p)) h
  have hl : us.length = q.samples.length := Quadrature.length_of_mapM_ok h
  have hne : us ≠ [] := by
    rintro rfl
    exact q.nonempty (List.length_eq_zero_iff.mp hl.symm)
  have hw : q.weights.length = us.length := by rw [hl, Quadrature.weights, List.length_map]
  have hpulled : c.pulledBack q = .ok ⟨c.chartdim, List.zipWith Sample.mk us q.weights,
      Quadrature.zipWith_mk_ne_nil hne hw⟩ := by
    rcases pulledBack_cases (c := c) q with ⟨hother, -⟩ | ⟨-, hq⟩
    · exact absurd hd hother
    · rw [hq]
      exact (Quadrature.mapPoints_eq_ok_iff q.nonempty).mpr ⟨_, _, rfl, hmapped⟩
  refine ⟨_, _, stacked_eq hne hw, c.sub.frame.accept_eq _, ?_⟩
  rw [newPoint, hpulled]
  rfl

/-- The outcomes that are left to an operation: a vector of the space, a refusal of its arguments,
what a map raises, and a mismatch for what a map returns in the wrong form. -/
structure Contains (c : Chart α) (refuses : Fault α → Prop) (consults : Consultation α → Prop)
    (kinds : List FaultKind) (r : Except (Fault α) (Tensor α)) : Prop where
  point : ∀ t, r = .ok t → ∃ v : Vector α c.frame.spacedim, t = .ofVector v
  error_iff : ∀ e, r = .error e ↔ refuses e ∨ ∃ k, consults k ∧ c.Blames k e
  attributed : ∀ e, r = .error e → e.kind ∈ kinds ∨ ∃ k, consults k ∧ c.consult k = .error e
  exposed : ∀ k t m, consults k → c.consult k = .ok t → c.misfit? k t = some m →
    r = .error (.mismatch m)

theorem contains_of_error_iff {r : Except (Fault α) (Vector α c.frame.spacedim)}
    {refuses : Fault α → Prop} {consults : Consultation α → Prop} {kinds : List FaultKind}
    (hr : ∀ e, r = .error e ↔ refuses e ∨ ∃ k, consults k ∧ c.Blames k e)
    (hrefuses : ∀ e, refuses e → e.kind ∈ kinds)
    (hmismatch : .breach .dimensionMismatch ∈ kinds) :
    c.Contains refuses consults kinds (r >>= fun v => .ok (.ofVector v)) := by
  have hall (e : Fault α) : (r >>= fun v => .ok (Tensor.ofVector v)) = .error e ↔
      refuses e ∨ ∃ k, consults k ∧ c.Blames k e :=
    (bind_eq_error_iff fun v _ => ⟨.ofVector v, rfl⟩).trans (hr e)
  refine ⟨fun t ht => ?_, hall, fun e he => ?_, fun k t m hk ht hm => ?_⟩
  · obtain ⟨v, -, hv⟩ := bind_eq_ok_iff.mp ht
    exact ⟨v, (Except.ok.inj hv).symm⟩
  · rcases (hall e).mp he with h | ⟨k, hk, hb⟩
    · exact .inl (hrefuses e h)
    · cases hb with
      | raised raises => exact .inr ⟨k, hk, raises⟩
      | misfit => exact .inl hmismatch
  · exact (hall _).mpr (.inr ⟨k, hk, .misfit ht hm⟩)

/-- Whatever the maps of a chart do, its operations return vectors of the space, or fail because of
their arguments or of a map that was reached. Samples that are pulled back make a quadrature again,
and flat space accepts it. -/
theorem contains_maps (c : Chart α) :
    (∀ q, c.Contains (c.RefusesSamples q) (c.PlacingConsults q)
      [.breach .dimensionMismatch, .breach .pointOutOfBounds] ((Manifold.chart c).newPoint q)) ∧
    (∀ samples candidate, c.Contains (fun _ => False) (c.ProjectingConsults candidate)
      [.breach .dimensionMismatch] ((Manifold.chart c).project samples candidate)) ∧
    (∀ x1 x2, c.Contains (c.RefusesEnds x1 x2) (c.HeadingConsults x1 x2)
      [.breach .dimensionMismatch] ((Manifold.chart c).tangent x1 x2)) ∧
    ∀ (q : Quadrature α) (us : List (Vector α c.chartdim)), q.spacedim = c.frame.spacedim →
      q.samples.mapM (fun s => c.toChart (.ofVector s.point)) = .ok us →
      ∃ inner samples, c.stacked us q.weights = .ok inner ∧
        c.sub.frame.accept inner = .ok samples ∧
        c.newPoint q = c.sub.newPoint inner >>= c.toSpace := by
  refine ⟨fun q => ?_, fun samples p => ?_, fun x1 x2 => ?_, fun q us hd h => newPoint_of_mapM hd h⟩
  · refine contains_of_error_iff (fun e => newPoint_eq_error_iff q) (fun e he => ?_) (by simp)
    cases he with
    | dimension => simp [Fault.kind]
    | outside => simp [Fault.kind]
  · refine contains_of_error_iff (fun e => ?_) (fun e => False.elim) (by simp)
    rw [project_eq_error_iff, false_or]
  · refine contains_of_error_iff (fun e => tangent_eq_error_iff x1 x2) (fun e he => ?_) (by simp)
    cases he with
    | first => simp [Fault.kind]
    | second => simp [Fault.kind]

def crumpled : Chart ℚ where
  frame := FlatSpace.strip.frame
  sub := FlatSpace.strip
  maps :=
    { pullBack := fun t =>
        match t.entries with
        | [x, 0] => .ok (.ofList [x, 0])
        | [x, 1] => .ok (.ofList [x, x, x])
        | _ => .error .badKey
      pushForward := fun t => .ok (.ofList (0 :: t.entries.filter (· ≠ 0)))
      gradient := .given fun _ => .ok (.ofList [1])
      traced := false }

def equalSamples (points : List (Vector ℚ 2)) : List (Sample ℚ 2) := points.map fun p => ⟨p, 1⟩

def equally (p : Vector ℚ 2) (rest : List (Vector ℚ 2)) : Quadrature ℚ :=
  ⟨2, equalSamples (p :: rest), List.cons_ne_nil _ _⟩

theorem crumpled_pulled (xs : List ℚ) :
    Quadrature.Mapped (fun p => crumpled.toChart (.ofVector p))
      (equalSamples (xs.map fun x => #v[x, 0])) (equalSamples (xs.map fun x => #v[x, 0])) := by
  induction xs with
  | nil => exact .nil
  | cons x _ ih => exact .cons ⟨rfl, rfl⟩ ih

theorem contains_maps_crumpled :
    (Manifold.chart crumpled).newPoint (equally #v[0, 0] [#v[0, 0]]) =
      .error (.mismatch (.point 1 "2")) ∧
    (Manifold.chart crumpled).newPoint (equally #v[0, 0] [#v[0, 1], #v[0, 2]]) =
      .error (.mismatch (.pullBack 3 "2")) ∧
    (Manifold.chart crumpled).newPoint (equally #v[0, 0] [#v[2, 0]]) =
      .error (.outsideBox 1 2 1) ∧
    (Manifold.chart crumpled).project (.ofList []) (.ofList [7]) = .error .badKey ∧
    (Manifold.chart crumpled).tangent (.ofList [0, 0]) (.ofList [2, 0]) =
      .error (.mismatch (.gradient [1] "2" "2")) ∧
    ∃ v : Vector ℚ 2,
      (Manifold.chart crumpled).project (.ofList []) (.ofList [3, 0]) = .ok (.ofVector v) := by
  obtain ⟨hnew, hproject, htangent, -⟩ := contains_maps crumpled
  refine ⟨?_, ?_, ?_, ?_, ?_, ?_⟩
  · have hin : ∀ k, ¬ crumpled.sub.Offends (.replicate _ 0) k := by decide +kernel
    have hbox : crumpled.sub.boxFault? (equalSamples [#v[0, 0], #v[0, 0]]) = none :=
      FlatSpace.boxFault?_eq_none_iff_offends.mpr
        (List.forall_mem_cons.mpr ⟨hin, List.forall_mem_singleton.mpr hin⟩)
    have hfound : crumpled.sub.newPoint (equally #v[0, 0] [#v[0, 0]]) = .ok #v[0, 0] :=
      (crumpled.sub.newPoint_eq_ok_iff _).mpr ⟨hbox, Vector.toList_inj.mp (by decide +kernel)⟩
    exact (hnew _).exposed _ (.ofList [0]) _
      (.pushForward rfl (crumpled_pulled [0, 0]) hfound) rfl rfl
  · have hbefore : ∀ b ∈ equalSamples [#v[0, 0]], ∃ u,
        crumpled.toChart (.ofVector b.point) = .ok u :=
      List.forall_mem_singleton.mpr ⟨#v[0, 0], rfl⟩
    have hreached : crumpled.PlacingConsults (equally #v[0, 0] [#v[0, 1], #v[0, 2]])
        (.pullBack (.ofVector #v[0, 1])) :=
      .pullBack (q := equally #v[0, 0] [#v[0, 1], #v[0, 2]]) (s := ⟨#v[0, 1], 1⟩) rfl rfl hbefore
    exact (hnew _).exposed _ (.ofList [0, 0, 0]) _ hreached rfl rfl
  · have hfirst : crumpled.sub.FirstOffence (equalSamples [#v[0, 0], #v[2, 0]]) 1 ⟨#v[2, 0], 1⟩
        ⟨0, by decide⟩ := by
      refine ⟨rfl, by decide +kernel, fun j hj t ht => ?_, by decide +kernel⟩
      obtain rfl : j = 0 := Nat.lt_one_iff.mp hj
      cases ht
      decide +kernel
    exact ((hnew _).error_iff _).mpr (.inl (.outside rfl (crumpled_pulled [0, 2]) hfirst))
  · exact ((hproject _ _).error_iff _).mpr (.inr ⟨_, .pullBack, .raised rfl⟩)
  · have hreached : crumpled.HeadingConsults (.ofList [0, 0]) (.ofList [2, 0])
        (.gradient (.ofVector #v[0, 0])) := .gradient (v := #v[2, 0]) rfl rfl
    exact (htangent _ _).exposed _ (.ofList [1]) _ hreached rfl rfl
  · obtain ⟨v, hv⟩ := (hproject (.ofList []) (.ofList [3, 0])).point (.ofList [0, 3]) rfl
    exact ⟨v, congrArg Except.ok hv⟩

end Chart

end VertexPlacement
