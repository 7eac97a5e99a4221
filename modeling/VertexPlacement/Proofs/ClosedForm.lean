import VertexPlacement.Proofs.Affine
import VertexPlacement.Proofs.CellPoint
import VertexPlacement.Proofs.HangingNodes

namespace VertexPlacement

open Weighted

namespace Cell

/-- Of how many sides of one kind a vertex of a quad or a hex is a corner. -/
def incidence : Nat → Side → Nat
  | 2, .line => 2
  | 2, .face => 0
  | _, _ => 3

theorem flatten_sides_perm {dim : Nat} (hdim : dim = 2 ∨ dim = 3) (side : Side) :
    (sides dim side).flatten.Perm
      (List.replicate (incidence dim side) (List.range (vertexCount dim))).flatten := by
  rcases hdim with rfl | rfl <;> cases side <;> decide

section Pick

variable {β : Type}

theorem pick_flatten (items : List β) (rows : List (List Nat)) :
    pick items rows.flatten = (rows.map (pick items)).flatten :=
  List.filterMap_flatten

theorem flatten_pick_sides_perm {dim : Nat} (hdim : dim = 2 ∨ dim = 3) (side : Side)
    {items : List β} (h : items.length = vertexCount dim) :
    ((sides dim side).map (pick items)).flatten.Perm
      (List.replicate (incidence dim side) items).flatten := by
  have hperm := (flatten_sides_perm hdim side).filterMap (items[·]?)
  change (pick items _).Perm (pick items _) at hperm
  have hall : pick items (List.range items.length) = items := filterMap_range_getElem? items
  rwa [pick_flatten, pick_flatten, List.map_replicate, ← h, hall] at hperm

end Pick

def centers {d : Nat} (dim : Nat) (vs : List (Vector ℚ d)) (side : Side) : List (Vector ℚ d) :=
  (sides dim side).map fun corners => Entity.mean (pick vs corners)

/-- The centers of all sides together are a multiple of the vertices. -/
theorem sum_centers {dim d : Nat} (hdim : dim = 2 ∨ dim = 3) (side : Side)
    {vs : List (Vector ℚ d)} (hcount : vs.length = vertexCount dim) (k : Fin d) :
    ((centers dim vs side).map (·.get k)).sum =
      incidence dim side / side.vertexCount * (vs.map (·.get k)).sum := by
  have hmean : ∀ corners ∈ sides dim side, (Entity.mean (pick vs corners)).get k =
      ((pick vs corners).map (·.get k)).sum * (side.vertexCount : ℚ)⁻¹ := by
    intro corners hcorners
    rw [Entity.get_mean, length_pick_of_mem_sides hdim hcount hcorners, div_eq_mul_inv]
  have hrows : ((sides dim side).map fun corners => ((pick vs corners).map (·.get k)).sum).sum =
      incidence dim side * (vs.map (·.get k)).sum := by
    have hsum := ((flatten_pick_sides_perm hdim side hcount).map (·.get k)).sum_eq
    rw [List.map_flatten, List.sum_flatten, List.map_flatten, List.sum_flatten] at hsum
    simpa [Function.comp_def] using hsum
  rw [centers, List.map_map]
  change ((sides dim side).map fun corners => (Entity.mean (pick vs corners)).get k).sum = _
  rw [List.map_congr_left hmean, List.sum_map_mul_right, hrows]
  ring

section Weights

/-- How far the displacement of a line or a face moves the new point of a quad or a hex. -/
def share : Nat → Bool → Side → ℚ
  | 2, false, .line => 1 / 8
  | 2, true, .line => 3 / 16
  | 2, _, .face => 0
  | _, _, .line => 7 / 192
  | _, _, .face => 1 / 12

theorem combination_spread (w : Weights ℚ) (vs ls fs : List ℚ) :
    combination (w.spread vs.length ls.length fs.length) (vs ++ ls ++ fs) =
      w.vertex * vs.sum + w.line * ls.sum + w.face * fs.sum := by
  rw [Weights.spread, combination_append (by simp), combination_append (by simp),
    combination_replicate, combination_replicate, combination_replicate]

/-- What the vertices weigh more or less than in their mean is made up by the sides. -/
theorem exists_sampleWeights_eq_spread {dim : Nat} (hdim : dim = 2 ∨ dim = 3) (smooth : Bool) :
    ∃ w : Weights ℚ, sampleWeights dim smooth =
        w.spread (vertexCount dim) (sides dim .line).length (sides dim .face).length ∧
      w.line = share dim smooth .line ∧ w.face = share dim smooth .face ∧
      w.vertex + w.line * (incidence dim .line / Side.vertexCount .line) +
        w.face * (incidence dim .face / Side.vertexCount .face) = 1 / vertexCount dim := by
  rcases hdim with rfl | rfl
  · refine ⟨quadWeightsFor smooth, rfl, ?_⟩
    cases smooth <;>
      norm_num [quadWeightsFor, quadWeights, smoothQuadWeights, share, Scalar.ratio_eq, incidence,
        Side.vertexCount, vertexCount]
  · refine ⟨hexWeights, rfl, ?_⟩
    norm_num [hexWeights, share, Scalar.ratio_eq, incidence, Side.vertexCount, vertexCount]

end Weights

end Cell

/-- How far samples lie from centers along one axis, all together. -/
def displacement {d : Nat} (samples centers : List (Vector ℚ d)) (k : Fin d) : ℚ :=
  (List.zipWith (fun p c => p.get k - c.get k) samples centers).sum

theorem displacement_eq {d : Nat} {samples centers : List (Vector ℚ d)}
    (h : samples.length = centers.length) (k : Fin d) :
    displacement samples centers k =
      (samples.map (·.get k)).sum - (centers.map (·.get k)).sum := by
  induction samples generalizing centers with
  | nil =>
    obtain rfl := List.length_eq_zero_iff.mp h.symm
    simp [displacement]
  | cons p rest ih =>
    cases centers with
    | nil => simp at h
    | cons c cs =>
      have hrest := ih (show rest.length = cs.length by simpa using h)
      simp only [displacement, List.zipWith_cons_cons, List.map_cons, List.sum_cons] at hrest ⊢
      rw [hrest]
      ring

theorem displacement_self {d : Nat} (samples : List (Vector ℚ d)) (k : Fin d) :
    displacement samples samples k = 0 := by
  rw [displacement_eq rfl, sub_self]

theorem combination_sampleWeights {dim d : Nat} (hdim : dim = 2 ∨ dim = 3) (smooth : Bool)
    {vs : List (Vector ℚ d)} (hcount : vs.length = Cell.vertexCount dim)
    {points : Side → List (Vector ℚ d)}
    (hlen : ∀ side, (points side).length = (Cell.sides dim side).length) (k : Fin d) :
    combination (Cell.sampleWeights dim smooth)
        ((vs ++ points .line ++ points .face).map (·.get k)) =
      (Entity.mean vs).get k +
        Cell.share dim smooth .line * displacement (points .line) (Cell.centers dim vs .line) k +
        Cell.share dim smooth .face *
          displacement (points .face) (Cell.centers dim vs .face) k := by
  obtain ⟨w, hw, hline, hface, hbalance⟩ := Cell.exists_sampleWeights_eq_spread hdim smooth
  have hmoved (side : Side) : displacement (points side) (Cell.centers dim vs side) k =
      ((points side).map (·.get k)).sum -
        Cell.incidence dim side / side.vertexCount * (vs.map (·.get k)).sum := by
    rw [displacement_eq (by rw [hlen, Cell.centers, List.length_map]),
      Cell.sum_centers hdim side hcount]
  have hsum := Cell.combination_spread w (vs.map (·.get k)) ((points .line).map (·.get k))
    ((points .face).map (·.get k))
  rw [List.length_map, List.length_map, List.length_map, hcount, hlen, hlen, ← hw,
    ← List.map_append, ← List.map_append] at hsum
  rw [hsum, hmoved, hmoved, Entity.get_mean, hcount, ← hline, ← hface]
  linear_combination (vs.map (·.get k)).sum * hbalance

namespace Entity

variable {d dim : Nat} {vs : List (Vector ℚ d)} {e e' : Entity ℚ} {history : List (Split ℚ d)}

theorem Follows.centers (h : Follows e history e') (he : Built vs dim e) (side : Side) :
    (e'.parts side.part).mapM center = .ok ((Cell.centers dim vs side).map .ofVector) := by
  obtain ⟨hdim, hcount⟩ := he.dim_cases
  rw [Cell.centers, List.map_map, mapM_eq_ok_iff, List.forall₂_map_right_iff]
  have hcorners : ∀ corners ∈ Cell.sides dim side, Cell.pick vs corners ≠ [] := fun corners hmem =>
    side.ne_nil_of_length (Cell.length_pick_of_mem_sides hdim hcount hmem)
  have hboth := (List.forall₂_and_left _ _).mpr ⟨hcorners, h.side_vertices he side⟩
  exact hboth.flip.imp fun l corners hl => center_eq_mean hl.2 hl.1

end Entity

namespace FlatSpace

variable {m : FlatSpace ℚ}

theorem exists_newPoint_of_straight (hflat : m.isPeriodic = false)
    {points : List (Vector ℚ m.frame.spacedim)} {ws : List ℚ} (h : Quadrature.Weighing points ws)
    (hs : ws.sum = 1) :
    ∃ r : Vector ℚ m.frame.spacedim, m.manifold.newPoint h.quadrature = .ok (.ofVector r) ∧
      ∀ k : Fin m.frame.spacedim, r.get k = combination ws (points.map (·.get k)) := by
  have hweights := Quadrature.map_weight_zipWith h.length_eq
  have hsum : |((List.zipWith Sample.mk points ws).map Sample.weight).sum - 1| ≤ 1 / 10 ^ 10 := by
    rw [hweights, hs]
    norm_num
  refine ⟨average (List.zipWith Sample.mk points ws), ?_, fun k => ?_⟩
  · exact m.manifold_newPoint_of_ok (newPoint_of_straight hflat h.samples_ne_nil)
  · rw [average_eq_blend hsum, get_blend, hweights, anchored_of_sum_eq_one hs,
      Quadrature.map_point_zipWith h.length_eq]

section ClosedForm

variable {dim : Nat} {vs : List (Vector ℚ m.frame.spacedim)} {e e' : Entity ℚ}
  {history : List (Split ℚ m.frame.spacedim)}

theorem newPointOn_of_follows (hflat : m.isPeriodic = false) (h : e.Follows history e')
    (he : Entity.Built vs dim e) (hdim : dim ≤ m.frame.dim)
    {points : Side → List (Vector ℚ m.frame.spacedim)}
    (hpoints : ∀ side : Side,
      (e'.parts side.part).mapM side.sample = .ok ((points side).map Vector.toList)) :
    ∃ r : Vector ℚ m.frame.spacedim,
      m.manifold.newPointOn (.ofDim dim) e' = .ok (.ofVector r) ∧
      ∀ k : Fin m.frame.spacedim, r.get k =
        combination (Cell.sampleWeights dim m.frame.smooth)
          ((vs ++ points .line ++ points .face).map (·.get k)) := by
  obtain ⟨hw, hquadrature⟩ := h.exists_weighing Cell.balanced_rat he hpoints m.frame.smooth
  obtain ⟨r, hr, hget⟩ :=
    exists_newPoint_of_straight hflat hw (Cell.sampleWeights_partition _ _).2
  have hon : m.manifold.quadratureOn (.ofDim dim) e'.samples = .ok hw.quadrature :=
    (m.manifold.quadratureOn_ofDim (.inr he.dim_cases.1) hdim _).trans hquadrature
  refine ⟨r, ?_, hget⟩
  rw [Manifold.newPointOn, hon]
  exact hr

/-- The new point of a quad or a hex is the mean of its vertices, moved by a fixed share of what its
lines and faces are displaced from their centers. -/
theorem newPointOn_eq_mean_add (hflat : m.isPeriodic = false) (he : Entity.Built vs dim e)
    (hdim : dim ≤ m.frame.dim)
    (hhistory : ∀ s ∈ history, s.index < (Cell.sides dim s.side).length) :
    ∃ e', e.refineSides history = .ok e' ∧
      ∃ (samples centers : Side → List (Vector ℚ m.frame.spacedim))
        (r : Vector ℚ m.frame.spacedim),
        (∀ side : Side,
          List.Forall₂ (fun i p => e.sampleAfter history side i = .ok (.ofVector p))
            (List.range (Cell.sides dim side).length) (samples side) ∧
          (e'.parts side.part).mapM side.sample = .ok ((samples side).map Vector.toList) ∧
          (e'.parts side.part).mapM Entity.center = .ok ((centers side).map .ofVector)) ∧
        m.manifold.newPointOn (.ofDim dim) e' = .ok (.ofVector r) ∧
        (∀ k : Fin m.frame.spacedim, r.get k = (Entity.mean vs).get k +
          Cell.share dim m.frame.smooth .line * displacement (samples .line) (centers .line) k +
          Cell.share dim m.frame.smooth .face * displacement (samples .face) (centers .face) k) ∧
        (samples = centers → m.manifold.newPointOn (.ofDim dim) e' = e'.center) := by
  obtain ⟨e', hrun, hfollows⟩ := he.follows_nil.refineSides he hhistory
  rw [List.nil_append] at hfollows
  obtain ⟨hcell, hcount⟩ := he.dim_cases
  choose samples hsamples hafter using fun side => hfollows.exists_samples he side
  obtain ⟨r, hr, hget⟩ := newPointOn_of_follows hflat hfollows he hdim hsamples
  have hlen := hfollows.length_of_samples he hsamples
  have hform (k : Fin m.frame.spacedim) :=
    (hget k).trans (combination_sampleWeights hcell m.frame.smooth hcount hlen k)
  refine ⟨e', hrun, samples, Cell.centers dim vs, r,
    fun side => ⟨hafter side, hsamples side, hfollows.centers he side⟩, hr, hform,
    fun hcenters => ?_⟩
  have hmean : r = Entity.mean vs := by
    ext k hk
    have hk' := hform ⟨k, hk⟩
    rw [hcenters, displacement_self, displacement_self, mul_zero, mul_zero, add_zero,
      add_zero] at hk'
    exact hk'
  rw [hr, hmean, Entity.center_eq_mean (hfollows.vertices_eq.trans he.vertices_eq) he.ne_nil]

end ClosedForm

def space : FlatSpace ℚ :=
  ⟨⟨"space", 3, 3, "3", "3", true, by decide, by decide⟩, #v[0, 0, 0], by decide⟩

def wedge : List (Vector ℚ space.frame.spacedim) :=
  [#v[0, 0, 0], #v[2, 0, 0], #v[0, 1, 0], #v[2, 1, 0],
    #v[0, 0, 1], #v[1, 0, 1], #v[0, 1, 1], #v[1, 1, 2]]

def wedgeMiddle : Vector ℚ space.frame.spacedim := #v[0, 1 / 2, 3 / 2]

def wedgeHistory : List (Split ℚ space.frame.spacedim) :=
  [⟨.line, 4, some wedgeMiddle⟩, ⟨.face, 0, none⟩, ⟨.face, 5, some #v[1 / 2, 1 / 2, 2]⟩]

theorem newPointOn_eq_mean_add_wedge :
    space.isPeriodic = false ∧ ∃ e e' : Entity ℚ,
      Entity.Built wedge 3 e ∧ e.refineSides wedgeHistory = .ok e' ∧
      ∃ (samples centers : Side → List (Vector ℚ space.frame.spacedim))
        (r : Vector ℚ space.frame.spacedim),
        (∀ side : Side,
          List.Forall₂ (fun i p => e.sampleAfter wedgeHistory side i = .ok (.ofVector p))
            (List.range (Cell.sides 3 side).length) (samples side) ∧
          (e'.parts side.part).mapM side.sample = .ok ((samples side).map Vector.toList) ∧
          (e'.parts side.part).mapM Entity.center = .ok ((centers side).map .ofVector)) ∧
        (samples .line)[4]? = some wedgeMiddle ∧
        space.manifold.newPointOn .hex e' = .ok (.ofVector r) ∧
        r = #v[3 / 4, 1 / 2, 271 / 384] ∧
        ∀ k : Fin 3, r.get k = (Entity.mean wedge).get k +
          7 / 192 * displacement (samples .line) (centers .line) k +
          1 / 12 * displacement (samples .face) (centers .face) k := by
  obtain ⟨e, hbuilt⟩ : ∃ e, Entity.ofHex (wedge.map .ofVector) = .ok e := ⟨_, rfl⟩
  have he : Entity.Built wedge 3 e := .hex rfl hbuilt
  obtain ⟨e', hrun, samples, centers, r, hsides, hr, hget, -⟩ :=
    newPointOn_eq_mean_add (m := space) rfl he (by decide)
      (show ∀ s ∈ wedgeHistory, _ by decide)
  have hpoint : (Entity.ofHex (wedge.map .ofVector) >>= (·.refineSides wedgeHistory) >>=
      space.manifold.newPointOn .hex).toOption = some (.ofVector #v[3 / 4, 1 / 2, 271 / 384]) := by
    decide +kernel
  have hr' : space.manifold.newPointOn .hex e' = .ok (.ofVector r) := hr
  rw [hbuilt, ok_bind, hrun, ok_bind, hr'] at hpoint
  have hmiddle : (Entity.ofHex (wedge.map .ofVector) >>=
      (·.sampleAfter wedgeHistory .line 4)).toOption = some (.ofVector wedgeMiddle) := by
    decide +kernel
  obtain ⟨hafter, -⟩ := hsides .line
  have hlt : 4 < (samples .line).length := by
    rw [← hafter.length_eq]
    decide
  have hline : e.sampleAfter wedgeHistory .line 4 = .ok (.ofVector (samples .line)[4]) :=
    hafter.get (by decide) hlt
  rw [hbuilt, ok_bind, hline] at hmiddle
  refine ⟨rfl, e, e', he, hrun, samples, centers, r, hsides, ?_, hr,
    Tensor.ofVector_injective (Option.some.inj hpoint), hget⟩
  rw [List.getElem?_eq_getElem hlt, Tensor.ofVector_injective (Option.some.inj hmiddle)]

end FlatSpace

end VertexPlacement
