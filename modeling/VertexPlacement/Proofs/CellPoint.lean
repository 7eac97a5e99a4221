import VertexPlacement.Proofs.Samples
import VertexPlacement.Proofs.Table

namespace VertexPlacement

def Manifold.Site.ofDim : Nat → Manifold.Site
  | 1 => .line
  | 2 => .quad
  | _ => .hex

theorem Manifold.quadratureOn_ofDim {α : Type} [Scalar α] (m : Manifold α) {dim : Nat}
    (hdim : dim = 1 ∨ dim = 2 ∨ dim = 3) (hle : dim ≤ m.frame.dim) (s : CellSamples α) :
    m.quadratureOn (.ofDim dim) s = s.quadrature dim m.frame.smooth := by
  rcases hdim with rfl | rfl | rfl
  · rfl
  · rw [Site.ofDim, quadratureOn, quadQuadrature, if_neg (not_lt.mpr hle)]
  · have hthree : m.frame.dim = 3 := by
      have hsupported := m.frame.dim_supported
      omega
    change m.hexQuadrature s = _
    rw [hexQuadrature, if_neg (not_not.mpr hthree)]
    rfl

def Manifold.Site.dimension (dim : Nat) : Manifold.Site → Nat
  | .line => 1
  | .quad => 2
  | .hex => 3
  | .face => dim - 1
  | .cell => dim

theorem Manifold.quadratureOn_eq_ok_iff {α : Type} [Scalar α] (m : Manifold α) (site : Site)
    (s : CellSamples α) {q : Quadrature α} :
    m.quadratureOn site s = .ok q ↔ site.dimension m.frame.dim ≤ m.frame.dim ∧
      s.quadrature (site.dimension m.frame.dim) m.frame.smooth = .ok q := by
  rcases m.frame.dim_supported with h | h | h
  all_goals
    cases site <;>
      simp [quadratureOn, quadQuadrature, hexQuadrature, Site.dimension, CellSamples.quadrature, h]

namespace FlatSpace

variable {m : FlatSpace ℚ} {mesh : Mesh ℚ} {n : Node ℚ} {d : Nat}

section Samples

variable (m) in
/-- An entity as its cell sees it, of which only the first child is known. -/
structure Seen (d : Nat) (e : Entity ℚ) : Prop where
  inside : ∀ t ∈ e.vertices, m.Inside t
  count : Cell.vertexCount d ≤ e.vertices.length
  child_inside : ∀ c ∈ e.children, ∀ t ∈ c.vertices, m.Inside t
  child_count : ∀ c ∈ e.children, Cell.vertexCount d ≤ c.vertices.length

theorem Sound.part (h : m.Sound mesh) {place : Nat} (hd : mesh.dimAt place = some d) :
    ∃ e, mesh.part place = .ok e ∧ m.Seen d e := by
  obtain ⟨n, hn, hsound, rfl⟩ := h.exists_node hd
  cases hc : n.children with
  | nil =>
    refine ⟨.bare n.vertices, ?_, hsound.inside, hsound.vertex_count, nofun, nofun⟩
    rw [Mesh.part, Mesh.node_eq_ok hn, ok_bind, hc]
    rfl
  | cons c rest =>
    obtain ⟨k, hk, hsound', hdim⟩ := h.exists_node (hsound.children c (by simp [hc]))
    refine ⟨⟨n.vertices, [], [], [.bare k.vertices]⟩, ?_, hsound.inside, hsound.vertex_count,
      ?_, ?_⟩
    · rw [Mesh.part, Mesh.node_eq_ok hn, ok_bind, hc, List.take_succ_cons, List.take_zero,
        List.mapM_cons, Mesh.bare, Mesh.node_eq_ok hk]
      rfl
    · exact List.forall_mem_singleton.mpr hsound'.inside
    · rw [← hdim]
      exact List.forall_mem_singleton.mpr hsound'.vertex_count

theorem Seen.sample {e : Entity ℚ} (h : m.Seen d e) {k : Nat} (hk : k < Cell.vertexCount d) :
    ∃ t, (if e.hasChildren then e.child 0 >>= (·.vertex k) else e.center) = .ok t ∧ m.Inside t := by
  obtain ⟨vs, ls, fs, cs⟩ := e
  cases cs with
  | nil =>
    have hne : vs ≠ [] :=
      List.ne_nil_of_length_pos (Nat.lt_of_lt_of_le (Nat.zero_lt_of_lt hk) h.count)
    exact center_inside (e := ⟨vs, ls, fs, []⟩) hne h.inside
  | cons c rest =>
    exact exists_vertex (h.child_inside c (by simp))
      (Nat.lt_of_lt_of_le hk (h.child_count c (by simp)))

variable (m) in
def InsideRows (count : Nat) (r : Except (Fault ℚ) (List (List ℚ))) : Prop :=
  ∃ points : List (Vector ℚ m.frame.spacedim), r = .ok (points.map Vector.toList) ∧
    points.length = count ∧ ∀ p ∈ points, m.InBox p

theorem insideRows_of_forall {f : Nat → Except (Fault ℚ) (List ℚ)} {count : Nat}
    (h : ∀ i < count, ∃ t, f i = .ok t.entries ∧ m.Inside t) :
    m.InsideRows count ((List.range count).mapM f) := by
  have hf : ∀ i ∈ List.range count, ∃ p, f i = .ok (Vector.toList p) ∧ m.InBox p := by
    intro i hi
    obtain ⟨_, ht, p, hp, rfl⟩ := h i (List.mem_range.mp hi)
    exact ⟨p, ht, hp⟩
  obtain ⟨points, hmap, hlen, hin⟩ := exists_mapM_eq_ok hf
  exact ⟨points, hmap, hlen.trans List.length_range, hin⟩

theorem corners_inside {place : Nat} (hn : mesh.nodes[place]? = some (some n))
    (hs : m.SoundNode mesh n) :
    m.InsideRows (Cell.vertexCount n.dim)
      ((mesh.samples place).corners (Cell.vertexCount n.dim)) := by
  refine insideRows_of_forall fun i hi => ?_
  obtain ⟨t, ht, hin⟩ := exists_vertex (e := .bare n.vertices) hs.inside
    (Nat.lt_of_lt_of_le hi hs.vertex_count)
  refine ⟨t, ?_, hin⟩
  simp only [Mesh.samples, Mesh.bare, Mesh.node_eq_ok hn, ok_bind, Entity.corner]
  change (Entity.bare n.vertices).vertex i >>= _ = _
  rw [ht]
  rfl

theorem Sound.parts_inside (h : m.Sound mesh) {places : List Nat}
    (hplaces : ∀ place ∈ places, mesh.dimAt place = some d) (side : Side)
    (hside : side.middleCorner < Cell.vertexCount d) {count : Nat}
    (hcount : count ≤ places.length) :
    m.InsideRows count ((List.range count).mapM fun i =>
      Entity.item places i >>= mesh.part >>= side.sample) := by
  refine insideRows_of_forall fun i hi => ?_
  have hlt : i < places.length := Nat.lt_of_lt_of_le hi hcount
  obtain ⟨e, he, hseen⟩ := h.part (hplaces _ (List.getElem_mem hlt))
  obtain ⟨t, ht, hin⟩ := hseen.sample hside
  exact ⟨t, by rw [Entity.item_of_lt hlt, ok_bind, he, ok_bind, side.sample_eq, ht, ok_bind], hin⟩

theorem Sound.lines_inside (h : m.Sound mesh) {place : Nat}
    (hn : mesh.nodes[place]? = some (some n)) (hs : m.SoundNode mesh n) (hd : 1 < n.dim) :
    m.InsideRows (Cell.lineCount n.dim) ((mesh.samples place).lines (Cell.lineCount n.dim)) := by
  have hrows := h.parts_inside hs.lines .line (by decide) (hs.line_count hd)
  simpa only [CellSamples.lines, Mesh.samples, Side.sample, Mesh.node_eq_ok hn, ok_bind,
    bind_assoc] using hrows

theorem Sound.faces_inside (h : m.Sound mesh) {place : Nat}
    (hn : mesh.nodes[place]? = some (some n)) (hs : m.SoundNode mesh n) (hd : 2 < n.dim) :
    m.InsideRows (Cell.faceCount n.dim) ((mesh.samples place).faces (Cell.faceCount n.dim)) := by
  have hrows := h.parts_inside hs.faces .face (by decide) (hs.face_count hd)
  simpa only [CellSamples.faces, Mesh.samples, Side.sample, Mesh.node_eq_ok hn, ok_bind,
    bind_assoc] using hrows

end Samples

theorem newPoint_weighing {points : List (Vector ℚ m.frame.spacedim)} {ws : List ℚ}
    (h : Quadrature.Weighing points ws) (hin : ∀ p ∈ points, m.InBox p) :
    ∃ t, m.manifold.newPoint h.quadrature = .ok t ∧ m.Inside t := by
  have hbox : ∀ s ∈ List.zipWith Sample.mk points ws, m.InBox s.point := by
    intro s hs
    rw [← List.map_uncurry_zip_eq_zipWith] at hs
    obtain ⟨⟨p, w⟩, hp, rfl⟩ := List.mem_map.mp hs
    exact hin p (List.of_mem_zip hp).1
  obtain ⟨hw, hs⟩ := (m.validate_quadrature_iff _ h.samples_ne_nil).mp h.validate_quadrature
  exact ⟨_, newPoint_of_inBox h.samples_ne_nil hbox, _,
    place_inBox h.samples_ne_nil hbox hw hs.le, rfl⟩

theorem Sound.newPoint (h : m.Sound mesh) {place : Nat} (hn : mesh.nodes[place]? = some (some n))
    (hdim : n.dim ≤ m.frame.dim) :
    ∃ t, (m.manifold.quadratureOn (.ofDim n.dim) (mesh.samples place) >>= m.manifold.newPoint) =
      .ok t ∧ m.Inside t := by
  have hs := h.soundNode hn
  obtain ⟨cs, hc, hcl, hcin⟩ := corners_inside hn hs
  have hquadrature : m.manifold.quadratureOn (.ofDim n.dim) (mesh.samples place) =
      (mesh.samples place).quadrature n.dim m.frame.smooth :=
    m.manifold.quadratureOn_ofDim n.dim_cases hdim _
  rcases n.dim_cases with hd | hd | hd
  · rw [hd] at hc hcl hquadrature ⊢
    obtain ⟨hw, hq⟩ := CellSamples.quadrature_line Cell.balanced_rat hc hcl m.frame.smooth
    rw [hquadrature, hq]
    exact newPoint_weighing hw hcin
  · obtain ⟨ls, hl, hll, hlin⟩ := h.lines_inside hn hs (by omega)
    rw [hd] at hc hcl hl hll hquadrature ⊢
    obtain ⟨hw, hq⟩ := CellSamples.quadrature_quad Cell.balanced_rat hc hcl hl hll m.frame.smooth
    rw [hquadrature, hq]
    exact newPoint_weighing hw (List.forall_mem_append.mpr ⟨hcin, hlin⟩)
  · obtain ⟨ls, hl, hll, hlin⟩ := h.lines_inside hn hs (by omega)
    obtain ⟨fs, hf, hfl, hfin⟩ := h.faces_inside hn hs (by omega)
    rw [hd] at hc hcl hl hll hf hfl hquadrature ⊢
    obtain ⟨hw, hq⟩ := CellSamples.quadrature_hex Cell.balanced_rat hc hcl hl hll hf hfl
      m.frame.smooth
    rw [hquadrature, hq]
    exact newPoint_weighing hw
      (List.forall_mem_append.mpr ⟨List.forall_mem_append.mpr ⟨hcin, hlin⟩, hfin⟩)

end FlatSpace

end VertexPlacement
