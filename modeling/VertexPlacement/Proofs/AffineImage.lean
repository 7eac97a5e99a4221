import VertexPlacement.Proofs.Affine
import VertexPlacement.Proofs.CellPoint

namespace VertexPlacement

namespace Entity

variable {α : Type}

mutual

def mapVertices (g : Tensor α → Tensor α) : Entity α → Entity α
  | ⟨vs, ls, fs, cs⟩ => ⟨vs.map g, mapAll g ls, mapAll g fs, mapAll g cs⟩

def mapAll (g : Tensor α → Tensor α) : List (Entity α) → List (Entity α)
  | [] => []
  | e :: rest => mapVertices g e :: mapAll g rest

end

section

variable (g : Tensor α → Tensor α) (e : Entity α)

theorem mapAll_eq_map (items : List (Entity α)) : mapAll g items = items.map (mapVertices g) := by
  induction items with
  | nil => rfl
  | cons e rest ih => rw [mapAll, ih, List.map_cons]

@[simp] theorem vertices_mapVertices : (e.mapVertices g).vertices = e.vertices.map g := by
  cases e
  rfl

@[simp] theorem parts_mapVertices (p : Part) :
    (e.mapVertices g).parts p = (e.parts p).map (mapVertices g) := by
  cases e
  cases p <;> exact mapAll_eq_map g _

end

/-- An entity all whose vertices, and those of its parts, are points of one space. -/
inductive OfPoints (d : Nat) : Entity α → Prop
  | intro {e} (points : ∃ vs : List (Vector α d), e.vertices = vs.map .ofVector)
      (parts : ∀ p, ∀ x ∈ e.parts p, OfPoints d x) : OfPoints d e

theorem OfPoints.points {d : Nat} {e : Entity α} (h : e.OfPoints d) :
    ∃ vs : List (Vector α d), e.vertices = vs.map .ofVector := by
  cases h with
  | intro points _ => exact points

theorem OfPoints.parts {d : Nat} {e x : Entity α} (h : e.OfPoints d) {p : Part}
    (hx : x ∈ e.parts p) : x.OfPoints d := by
  cases h with
  | intro _ parts => exact parts p x hx

/-- The sides of a cell that its default quadrature asks for samples. -/
def consulted (dim : Nat) (e : Entity α) : List (Entity α) :=
  match dim with
  | 2 => e.lines.take (Cell.lineCount 2)
  | 3 => e.lines.take (Cell.lineCount 3) ++ e.faces.take (Cell.faceCount 3)
  | _ => []

end Entity

namespace Affine

open Entity

variable {d e : Nat} (f : Affine d e)

def onTensor (t : Tensor ℚ) : Tensor ℚ :=
  .ofVector (f.apply (.ofFn fun k => t.entries[k]?.getD 0))

@[simp] theorem onTensor_ofVector (p : Vector ℚ d) :
    f.onTensor (.ofVector p) = .ofVector (f.apply p) := by
  refine congrArg (fun q => Tensor.ofVector (f.apply q)) (ext_get fun k => ?_)
  simp [Tensor.ofVector, Vector.get_eq_getElem]

/-- Where the first computation gives the coordinates of a point, the second gives those of its
image. -/
def Carries (r r' : Except (Fault ℚ) (List ℚ)) : Prop :=
  ∀ row, r = .ok row → ∃ p : Vector ℚ d, row = p.toList ∧ r' = .ok (f.apply p).toList

variable {f} {t : Entity ℚ}

theorem carries_corner (h : t.OfPoints d) (i : Nat) :
    f.Carries (t.corner i) ((t.mapVertices f.onTensor).corner i) := by
  intro row hrow
  obtain ⟨vs, hvs⟩ := h.points
  obtain ⟨x, hx, hrow⟩ := bind_eq_ok_iff.mp hrow
  rw [vertex, hvs] at hx
  obtain ⟨p, hp, rfl⟩ := item_map_eq_ok_iff.mp hx
  cases hrow
  have himage : (t.mapVertices f.onTensor).vertex i = .ok (.ofVector (f.apply p)) := by
    rw [vertex, vertices_mapVertices, hvs, item_eq_ok_iff, List.getElem?_map, List.getElem?_map, hp]
    exact congrArg some (f.onTensor_ofVector p)
  refine ⟨p, rfl, ?_⟩
  rw [corner, himage]
  rfl

theorem carries_center (h : t.OfPoints d) (hne : t.vertices ≠ []) :
    f.Carries (t.center >>= (.ok ·.entries))
      ((t.mapVertices f.onTensor).center >>= (.ok ·.entries)) := by
  intro row hrow
  obtain ⟨vs, hvs⟩ := h.points
  have hvsne : vs ≠ [] := fun hnil => hne (by rw [hvs, hnil, List.map_nil])
  have himage : (t.mapVertices f.onTensor).vertices = (vs.map f.apply).map .ofVector := by
    rw [vertices_mapVertices, hvs, List.map_map, List.map_map]
    exact List.map_congr_left fun p _ => f.onTensor_ofVector p
  rw [center_eq_mean hvs hvsne] at hrow
  cases hrow
  refine ⟨mean vs, rfl, ?_⟩
  rw [center_eq_mean himage (mt List.map_eq_nil_iff.mp hvsne), ← f.apply_mean hvsne]
  rfl

theorem carries_sample (h : t.OfPoints d) (hne : t.children = [] → t.vertices ≠ []) (side : Side) :
    f.Carries (side.sample t) (side.sample (t.mapVertices f.onTensor)) := by
  have himage : (t.mapVertices f.onTensor).children = t.children.map (mapVertices f.onTensor) :=
    parts_mapVertices f.onTensor t .child
  cases hc : t.children with
  | nil =>
    rw [hc, List.map_nil] at himage
    rw [side.sample_of_children_eq_nil hc, side.sample_of_children_eq_nil himage]
    exact carries_center h (hne hc)
  | cons c rest =>
    rw [hc, List.map_cons] at himage
    rw [side.sample_of_children_eq_cons hc, side.sample_of_children_eq_cons himage]
    have hmem : c ∈ t.parts .child := by
      change c ∈ t.children
      rw [hc]
      exact List.mem_cons_self
    exact carries_corner (h.parts hmem) side.middleCorner

theorem carries_item (h : t.OfPoints d) {side : Side} {i : Nat}
    (hne : ∀ l, (t.parts side.part)[i]? = some l → l.children = [] → l.vertices ≠ []) :
    f.Carries (item (t.parts side.part) i >>= side.sample)
      (item ((t.mapVertices f.onTensor).parts side.part) i >>= side.sample) := by
  intro row hrow
  obtain ⟨l, hl, hrow⟩ := bind_eq_ok_iff.mp hrow
  have hi := item_eq_ok_iff.mp hl
  obtain ⟨p, hp, himage⟩ :=
    carries_sample (h.parts (List.mem_of_getElem? hi)) (hne l hi) side row hrow
  have hl' : item ((t.mapVertices f.onTensor).parts side.part) i =
      (.ok (l.mapVertices f.onTensor) : Except (Fault ℚ) _) := by
    rw [parts_mapVertices, item_eq_ok_iff, List.getElem?_map, hi]
    rfl
  exact ⟨p, hp, by rw [hl', ok_bind, himage]⟩

theorem exists_points_of_mapM {β : Type} {g g' : β → Except (Fault ℚ) (List ℚ)} {xs : List β}
    {rows : List (List ℚ)} (h : ∀ x ∈ xs, f.Carries (g x) (g' x)) (hrows : xs.mapM g = .ok rows) :
    ∃ points : List (Vector ℚ d), points.length = xs.length ∧ rows = points.map Vector.toList ∧
      xs.mapM g' = .ok ((points.map f.apply).map Vector.toList) := by
  replace hrows := mapM_eq_ok_iff.mp hrows
  induction hrows with
  | nil => exact ⟨[], rfl, rfl, rfl⟩
  | @cons x row xs rows hrow _ ih =>
    obtain ⟨p, rfl, hp⟩ := h x (by simp) row hrow
    obtain ⟨points, hlen, rfl, hpoints⟩ := ih fun y hy => h y (by simp [hy])
    refine ⟨p :: points, by simp [hlen], rfl, ?_⟩
    rw [List.mapM_cons, hp, hpoints]
    rfl

section Quadratures

variable {rows : List (List ℚ)} {count : Nat}

theorem exists_corners (h : t.OfPoints d) (hrows : t.samples.corners count = .ok rows) :
    ∃ points : List (Vector ℚ d), points.length = count ∧ rows = points.map Vector.toList ∧
      (t.mapVertices f.onTensor).samples.corners count =
        .ok ((points.map f.apply).map Vector.toList) := by
  have hpoints := exists_points_of_mapM (f := f) (fun i _ => carries_corner h i) hrows
  rwa [List.length_range] at hpoints

theorem exists_sides (h : t.OfPoints d) (side : Side)
    (hne : ∀ l ∈ (t.parts side.part).take count, l.children = [] → l.vertices ≠ [])
    (hrows : ((List.range count).mapM fun i => item (t.parts side.part) i >>= side.sample) =
      .ok rows) :
    ∃ points : List (Vector ℚ d), points.length = count ∧ rows = points.map Vector.toList ∧
      ((List.range count).mapM fun i =>
        item ((t.mapVertices f.onTensor).parts side.part) i >>= side.sample) =
          .ok ((points.map f.apply).map Vector.toList) := by
  have hpoints := exists_points_of_mapM (f := f) (fun i hi => carries_item h fun l hl =>
    hne l (List.mem_of_getElem? ((List.getElem?_take_of_lt (List.mem_range.mp hi)).trans hl))) hrows
  rwa [List.length_range] at hpoints

theorem exists_quadrature (h : t.OfPoints d) {dim : Nat}
    (hne : ∀ l ∈ t.consulted dim, l.children = [] → l.vertices ≠ []) {smooth : Bool}
    {q : Quadrature ℚ} (hq : t.samples.quadrature dim smooth = .ok q) :
    ∃ (points : List (Vector ℚ d)) (ws : List ℚ) (hw : Quadrature.Weighing points ws)
      (hw' : Quadrature.Weighing (points.map f.apply) ws), q = hw.quadrature ∧
        (t.mapVertices f.onTensor).samples.quadrature dim smooth = .ok hw'.quadrature := by
  match dim with
  | 0 | _ + 4 => cases hq
  | 1 =>
    obtain ⟨rows, hrows, -⟩ := bind_eq_ok_iff.mp hq
    obtain ⟨cs, hcl, rfl, hcs⟩ := exists_corners (f := f) h hrows
    obtain ⟨hw, hgiven⟩ := CellSamples.quadrature_line Cell.balanced_rat hrows hcl smooth
    obtain ⟨hw', himage⟩ :=
      CellSamples.quadrature_line Cell.balanced_rat hcs ((List.length_map _).trans hcl) smooth
    exact ⟨_, _, hw, hw', Except.ok.inj (hq.symm.trans hgiven), himage⟩
  | 2 =>
    obtain ⟨rows, hrows, hrest⟩ := bind_eq_ok_iff.mp hq
    obtain ⟨rows', hrows', -⟩ := bind_eq_ok_iff.mp hrest
    obtain ⟨cs, hcl, rfl, hcs⟩ := exists_corners (f := f) h hrows
    obtain ⟨ls, hll, rfl, hls⟩ := exists_sides (f := f) h .line hne hrows'
    obtain ⟨hw, hgiven⟩ :=
      CellSamples.quadrature_quad Cell.balanced_rat hrows hcl hrows' hll smooth
    have himage := CellSamples.quadrature_quad Cell.balanced_rat hcs
      ((List.length_map _).trans hcl) hls ((List.length_map _).trans hll) smooth
    rw [← List.map_append] at himage
    obtain ⟨hw', himage⟩ := himage
    exact ⟨_, _, hw, hw', Except.ok.inj (hq.symm.trans hgiven), himage⟩
  | 3 =>
    obtain ⟨rows, hrows, hrest⟩ := bind_eq_ok_iff.mp hq
    obtain ⟨rows', hrows', hrest⟩ := bind_eq_ok_iff.mp hrest
    obtain ⟨rows'', hrows'', -⟩ := bind_eq_ok_iff.mp hrest
    obtain ⟨hnel, hnef⟩ := List.forall_mem_append.mp hne
    obtain ⟨cs, hcl, rfl, hcs⟩ := exists_corners (f := f) h hrows
    obtain ⟨ls, hll, rfl, hls⟩ := exists_sides (f := f) h .line hnel hrows'
    obtain ⟨fs, hfl, rfl, hfs⟩ := exists_sides (f := f) h .face hnef hrows''
    obtain ⟨hw, hgiven⟩ :=
      CellSamples.quadrature_hex Cell.balanced_rat hrows hcl hrows' hll hrows'' hfl smooth
    have himage := CellSamples.quadrature_hex Cell.balanced_rat hcs
      ((List.length_map _).trans hcl) hls ((List.length_map _).trans hll) hfs
      ((List.length_map _).trans hfl) smooth
    rw [← List.map_append, ← List.map_append] at himage
    obtain ⟨hw', himage⟩ := himage
    exact ⟨_, _, hw, hw', Except.ok.inj (hq.symm.trans hgiven), himage⟩

end Quadratures

end Affine

/-- Manifolds without periodic axes that do not move what they average. -/
inductive Manifold.Straight : Manifold ℚ → Prop
  | flat {m : FlatSpace ℚ} (straight : m.isPeriodic = false) : Straight m.manifold
  | projected {p : Projected ℚ} (projector : p.projector = none) : Straight (.projected p)

theorem Manifold.Straight.newPoint_eq {m : Manifold ℚ} (h : m.Straight) {d : Nat}
    (hd : m.spacedim = d) {samples : List (Sample ℚ d)} (hne : samples ≠ []) :
    m.newPoint ⟨d, samples, hne⟩ = .ok (.ofVector (average samples)) := by
  subst hd
  cases h with
  | @flat m straight =>
    exact m.manifold_newPoint_of_ok (FlatSpace.newPoint_of_straight straight hne)
  | @projected p projector =>
    have hproject (t : Tensor ℚ) : p.project t = .ok t := by
      rw [Projected.project, projector]
      rfl
    exact (Projected.newPoint_eq hne).trans (hproject _)

namespace Affine

variable {d e : Nat} (f : Affine d e)

theorem samples_map_apply (points : List (Vector ℚ d)) (ws : List ℚ) :
    List.zipWith Sample.mk (points.map f.apply) ws =
      (List.zipWith Sample.mk points ws).map (Sample.map f.apply) := by
  rw [List.zipWith_map_left, List.map_zipWith]
  rfl

theorem newPoint_image {m m' : Manifold ℚ} (hm : m.Straight) (hm' : m'.Straight)
    {f : Affine m.spacedim m'.spacedim} {points : List (Vector ℚ m.spacedim)} {ws : List ℚ}
    (hw : Quadrature.Weighing points ws) (hw' : Quadrature.Weighing (points.map f.apply) ws) :
    ∃ p, m.newPoint hw.quadrature = .ok (.ofVector p) ∧
      m'.newPoint hw'.quadrature = .ok (.ofVector (f.apply p)) := by
  obtain ⟨-, hs⟩ := (Quadrature.checkWeights_eq_ok_iff ws _).mp hw.partition
  rw [Quadrature.weightSumTolerance_eq, ← Quadrature.map_weight_zipWith hw.length_eq] at hs
  refine ⟨_, hm.newPoint_eq rfl hw.samples_ne_nil, ?_⟩
  rw [f.apply_average hw.samples_ne_nil hs.le, ← samples_map_apply]
  exact hm'.newPoint_eq rfl hw'.samples_ne_nil

/-- Affine maps commute with averages whose weights pass for a partition of one, and so they do with
the placement of new points on entities in straight space, however these were refined. -/
theorem newPointOn_mapVertices :
    (∀ (points : List (Vector ℚ d)) (ws : List ℚ), points ≠ [] → ws.length = points.length →
      |ws.sum - 1| ≤ 1 / 10 ^ 10 →
      ∃ a, averageItems (.ofPoints points) (.ofList ws) = .ok (.ofVector a) ∧
        averageItems (.ofPoints (points.map f.apply)) (.ofList ws) =
          .ok (.ofVector (f.apply a))) ∧
    ∀ m m' : Manifold ℚ, m.Straight → m'.Straight → m.spacedim = d → m'.spacedim = e →
      m'.frame.dim = m.frame.dim → m'.frame.smooth = m.frame.smooth →
      ∀ (site : Manifold.Site) (t : Entity ℚ), t.OfPoints d →
        (∀ l ∈ t.consulted (site.dimension m.frame.dim), l.children = [] → l.vertices ≠ []) →
        ∀ r, m.newPointOn site t = .ok r → ∃ p, r = .ofVector p ∧
          m'.newPointOn site (t.mapVertices f.onTensor) = .ok (.ofVector (f.apply p)) := by
  refine ⟨fun points ws hne hl hs => ?_, ?_⟩
  · refine ⟨_, averageItems_ofPoints hne hl, ?_⟩
    rw [averageItems_ofPoints (by simpa using hne) (by simpa using hl), samples_map_apply,
      f.apply_average (Quadrature.zipWith_mk_ne_nil hne hl)]
    rwa [Quadrature.map_weight_zipWith hl]
  · rintro m m' hm hm' rfl rfl hdim hsmooth site t ht hne r hr
    obtain ⟨q, hq, hr⟩ := bind_eq_ok_iff.mp hr
    obtain ⟨hle, hq⟩ := (m.quadratureOn_eq_ok_iff site _).mp hq
    obtain ⟨points, ws, hw, hw', rfl, himage⟩ := exists_quadrature (f := f) ht hne hq
    obtain ⟨p, hp, hp'⟩ := newPoint_image hm hm' hw hw'
    rw [← hdim, ← hsmooth] at himage
    rw [← hdim] at hle
    have hq' := (m'.quadratureOn_eq_ok_iff site _).mpr ⟨hle, himage⟩
    refine ⟨p, Except.ok.inj (hr.symm.trans hp), ?_⟩
    rw [Manifold.newPointOn, hq', ok_bind, hp']

def plane : FlatSpace ℚ :=
  ⟨{ FlatSpace.strip.frame with label := "plane" }, #v[0, 0], by decide⟩

def sheet : Projected ℚ where
  frame :=
    { FlatSpace.strip.frame with
      label := "sheet", spacedim := 3, spacedimQuote := "3", dim_le_spacedim := by decide }
  projector := none
  name := "sheet"
  wrapped := .nothing

def lift : Affine 2 3 := ⟨!![1, 0; 0, 2; 1, 1], ![1, 0, 3]⟩

def kinked : Entity ℚ where
  vertices := [.ofVector #v[0, 0], .ofVector #v[4, 0], .ofVector #v[0, 1], .ofVector #v[4, 1]]
  lines :=
    [⟨[.ofVector #v[0, 0], .ofVector #v[0, 1]], [], [],
      [.ofLine (.ofVector #v[0, 0]) (.ofVector #v[-1, 1 / 3])]⟩,
      .ofLine (.ofVector #v[4, 0]) (.ofVector #v[4, 1]),
      .ofLine (.ofVector #v[0, 0]) (.ofVector #v[4, 0]),
      .ofLine (.ofVector #v[0, 1]) (.ofVector #v[4, 1])]
  faces := []
  children := []

theorem kinked_ofPoints : kinked.OfPoints 2 := by
  have hline (a b : Vector ℚ 2) : (Entity.ofLine (.ofVector a) (.ofVector b)).OfPoints 2 :=
    .intro ⟨[a, b], rfl⟩ fun p _ hx => by cases p <;> cases hx
  have hchild (p : Entity.Part) : ∀ x ∈ (kinked.lines.head (List.cons_ne_nil _ _)).parts p,
      x.OfPoints 2 := by
    cases p with
    | line | face => exact nofun
    | child => exact List.forall_mem_singleton.mpr (hline _ _)
  refine .intro ⟨[#v[0, 0], #v[4, 0], #v[0, 1], #v[4, 1]], rfl⟩ fun p => ?_
  cases p with
  | line =>
    refine List.forall_mem_cons.mpr ⟨.intro ⟨[#v[0, 0], #v[0, 1]], rfl⟩ hchild, ?_⟩
    simp only [List.forall_mem_cons, hline, List.not_mem_nil, false_imp_iff, implies_true, and_self]
  | face | child => exact nofun

theorem newPointOn_mapVertices_kinked :
    kinked.OfPoints 2 ∧
    ∃ p, plane.manifold.newPointOn .quad kinked = .ok (.ofVector p) ∧
      (Manifold.projected sheet).newPointOn .quad (kinked.mapVertices lift.onTensor) =
        .ok (.ofVector (lift.apply p)) := by
  have hok : (plane.manifold.newPointOn .quad kinked).isOk = true := by decide +kernel
  have hne : ∀ l ∈ kinked.lines, l.vertices ≠ [] := by simp [kinked, Entity.ofLine, Entity.bare]
  cases hr : plane.manifold.newPointOn .quad kinked with
  | error e =>
    rw [hr] at hok
    cases hok
  | ok r =>
    obtain ⟨p, rfl, hp⟩ := (newPointOn_mapVertices lift).2 plane.manifold (.projected sheet)
      (.flat (by decide)) (.projected rfl) rfl rfl rfl rfl .quad kinked kinked_ofPoints
      (fun l hl _ => hne l (List.mem_of_mem_take hl)) r hr
    exact ⟨kinked_ofPoints, p, rfl, hp⟩

end Affine

end VertexPlacement
