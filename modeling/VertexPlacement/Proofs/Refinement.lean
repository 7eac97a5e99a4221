import VertexPlacement.Proofs.CellPoint

namespace VertexPlacement

inductive Refining where
  | keep
  | atPoint
  | atCenter

structure Visit where
  place : Nat
  refining : Refining

section Runs

variable {α : Type} [Scalar α]

/-- Refines a line or a quad. Entities of other dimensions are not refined. -/
def Mesh.refineAt (mesh : Mesh α) (place : Nat) (mid : Option (Tensor α)) :
    Except (Fault α) (Mesh α) := do
  match (← mesh.node place).dim with
  | 1 => mesh.refine place (·.refineLine mid)
  | 2 => mesh.refine place (·.refineFace mid)
  | _ => return mesh

namespace Manifold

def pointAt (m : Manifold α) (mesh : Mesh α) (place : Nat) :
    Except (Fault α) (Option (Tensor α)) := do
  let n ← mesh.node place
  if n.dim ≤ m.frame.dim then
    return some (← m.quadratureOn (.ofDim n.dim) (mesh.samples place) >>= m.newPoint)
  else return none

/-- Whether the manifold has new points of what is visited. -/
def Finds (m : Manifold α) (mesh : Mesh α) (v : Visit) : Prop :=
  ∃ d ∈ mesh.dimAt v.place, d ≤ m.frame.dim

instance (m : Manifold α) (mesh : Mesh α) : DecidablePred (m.Finds mesh) :=
  fun v => inferInstanceAs (Decidable (∃ d ∈ mesh.dimAt v.place, d ≤ m.frame.dim))

/-- The new point of what is visited, as its cell sees it at that time. -/
def NewPointAt (m : Manifold α) (mesh : Mesh α) (v : Visit) (t : Tensor α) : Prop :=
  ∃ d ∈ mesh.dimAt v.place,
    (m.quadratureOn (.ofDim d) (mesh.samples v.place) >>= m.newPoint) = .ok t

theorem finds_iff {m : Manifold α} {mesh : Mesh α} {v : Visit} {d : Nat}
    (hd : mesh.dimAt v.place = some d) : m.Finds mesh v ↔ d ≤ m.frame.dim := by
  simp [Finds, hd]

theorem pointAt_eq_ok {m : Manifold α} {mesh : Mesh α} {v : Visit} {point : Option (Tensor α)}
    (h : m.pointAt mesh v.place = .ok point) :
    (point.isSome ↔ m.Finds mesh v) ∧ ∀ t ∈ point, m.NewPointAt mesh v t := by
  obtain ⟨n, hn, h⟩ := bind_eq_ok_iff.mp h
  have hd := Mesh.dimAt_of_node hn
  rw [finds_iff hd]
  by_cases hdim : n.dim ≤ m.frame.dim
  · rw [if_pos hdim] at h
    obtain ⟨t, ht, h⟩ := bind_eq_ok_iff.mp h
    cases h
    exact ⟨iff_of_true rfl hdim, fun _ hu => Option.some_inj.mp hu ▸ ⟨n.dim, hd, ht⟩⟩
  · rw [if_neg hdim] at h
    cases h
    exact ⟨iff_of_false nofun hdim, nofun⟩

def visit (m : Manifold α) (mesh : Mesh α) (v : Visit) :
    Except (Fault α) (Mesh α × Option (Tensor α)) := do
  let point ← m.pointAt mesh v.place
  match v.refining with
  | .keep => return (mesh, point)
  | .atPoint => return (← mesh.refineAt v.place point, point)
  | .atCenter => return (← mesh.refineAt v.place none, point)

def run (m : Manifold α) : Mesh α → List Visit → Except (Fault α) (Mesh α × List (Tensor α))
  | mesh, [] => return (mesh, [])
  | mesh, v :: rest => do
    let (mesh, point) ← m.visit mesh v
    let (mesh, points) ← m.run mesh rest
    return (mesh, point.toList ++ points)

theorem pointAt_of_visit {m : Manifold α} {mesh mesh' : Mesh α} {v : Visit}
    {point : Option (Tensor α)} (h : m.visit mesh v = .ok (mesh', point)) :
    m.pointAt mesh v.place = .ok point := by
  obtain ⟨p, hp, h⟩ := bind_eq_ok_iff.mp h
  cases hv : v.refining with
  | keep =>
    rw [hv] at h
    cases h
    exact hp
  | atPoint | atCenter =>
    rw [hv] at h
    obtain ⟨_, -, h⟩ := bind_eq_ok_iff.mp h
    cases h
    exact hp

/-- What a run finds at a visit comes right after what it found before. -/
theorem run_before {m : Manifold α} {mesh mesh' : Mesh α} {before after : List Visit} {v : Visit}
    {points : List (Tensor α)} (h : m.run mesh (before ++ v :: after) = .ok (mesh', points)) :
    ∃ a found point, m.run mesh before = .ok (a, found) ∧ m.pointAt a v.place = .ok point ∧
      found ++ point.toList <+: points := by
  induction before generalizing mesh points with
  | nil =>
    obtain ⟨⟨b, point⟩, hvisit, h⟩ := bind_eq_ok_iff.mp h
    obtain ⟨⟨c, later⟩, -, h⟩ := bind_eq_ok_iff.mp h
    cases h
    exact ⟨mesh, [], point, rfl, pointAt_of_visit hvisit, List.prefix_append _ _⟩
  | cons u before ih =>
    obtain ⟨⟨b, first⟩, hvisit, h⟩ := bind_eq_ok_iff.mp h
    obtain ⟨⟨c, later⟩, hlater, h⟩ := bind_eq_ok_iff.mp h
    cases h
    obtain ⟨a, found, point, hrun, hpoint, hfound⟩ := ih hlater
    refine ⟨a, first.toList ++ found, point, ?_, hpoint, ?_⟩
    · rw [run, hvisit, ok_bind]
      simp only [hrun, ok_bind]
      rfl
    · rw [List.append_assoc]
      exact (List.prefix_append_right_inj _).mpr hfound

/-- Visits of places that are there when they are visited. -/
def Admissible (m : Manifold α) : Mesh α → List Visit → Prop
  | _, [] => True
  | mesh, v :: rest => v.place < mesh.nodes.length ∧
    match m.visit mesh v with
    | .ok (mesh, _) => m.Admissible mesh rest
    | .error _ => True

instance decidableAdmissible (m : Manifold α) :
    (mesh : Mesh α) → (visits : List Visit) → Decidable (m.Admissible mesh visits)
  | _, [] => isTrue trivial
  | mesh, v :: rest =>
    have : Decidable (match m.visit mesh v with
        | .ok (mesh, _) => m.Admissible mesh rest
        | .error _ => True) :=
      match m.visit mesh v with
      | .ok (mesh, _) => decidableAdmissible m mesh rest
      | .error _ => isTrue trivial
    inferInstanceAs (Decidable (_ ∧ _))

end Manifold

end Runs

namespace FlatSpace

variable {m : FlatSpace ℚ} {mesh mesh' : Mesh ℚ}

theorem Sound.exists_node_of_lt (h : m.Sound mesh) {place : Nat} (hp : place < mesh.nodes.length) :
    ∃ n, mesh.nodes[place]? = some (some n) := by
  obtain ⟨n, hn, -⟩ := h _ (List.getElem_mem hp)
  exact ⟨n, by rw [List.getElem?_eq_getElem hp, hn]⟩

theorem Sound.exists_dim (h : m.Sound mesh) {place : Nat} (hp : place < mesh.nodes.length) :
    ∃ d, mesh.dimAt place = some d := by
  obtain ⟨n, hn⟩ := h.exists_node_of_lt hp
  exact ⟨n.dim, Mesh.dimAt_eq_some_iff.mpr ⟨n, hn, rfl⟩⟩

/-- What is visited has the same dimension when the run is over. -/
theorem Sound.finds_congr (h : m.Sound mesh) (hext : mesh.Extends mesh') {v : Visit}
    (hv : v.place < mesh.nodes.length) :
    m.manifold.Finds mesh' v ↔ m.manifold.Finds mesh v := by
  obtain ⟨d, hd⟩ := h.exists_dim hv
  rw [Manifold.finds_iff hd, Manifold.finds_iff (hext _ _ hd)]

theorem Sound.pointAt (h : m.Sound mesh) {place : Nat} (hp : place < mesh.nodes.length) :
    ∃ point, m.manifold.pointAt mesh place = .ok point ∧ ∀ t ∈ point, m.Inside t := by
  obtain ⟨n, hn⟩ := h.exists_node_of_lt hp
  by_cases hdim : n.dim ≤ m.manifold.frame.dim
  · obtain ⟨t, ht, hin⟩ := h.newPoint hn hdim
    refine ⟨some t, ?_, fun _ hu => Option.some_inj.mp hu ▸ hin⟩
    rw [Manifold.pointAt, Mesh.node_eq_ok hn, ok_bind, if_pos hdim, ht]
    rfl
  · refine ⟨none, ?_, nofun⟩
    rw [Manifold.pointAt, Mesh.node_eq_ok hn, ok_bind, if_neg hdim]
    rfl

theorem Sound.refineAt (h : m.Sound mesh) {place : Nat} (hp : place < mesh.nodes.length)
    {mid : Option (Tensor ℚ)} (hmid : ∀ t ∈ mid, m.Inside t) :
    ∃ mesh', mesh.refineAt place mid = .ok mesh' ∧ m.Sound mesh' ∧ mesh.Extends mesh' := by
  obtain ⟨n, hn⟩ := h.exists_node_of_lt hp
  have hs := h.soundNode hn
  have hcount := hs.vertex_count
  rcases n.dim_cases with hd | hd | hd
  · rw [hd] at hcount
    obtain ⟨e, he, hformed⟩ := refineLine_formed (e := .bare n.vertices) hcount hs.inside hmid
    obtain ⟨b, hb, hsound⟩ := h.refine hn (·.refineLine mid) he (by rwa [hd])
    refine ⟨b, ?_, hsound⟩
    rw [Mesh.refineAt, Mesh.node_eq_ok hn, ok_bind, hd]
    exact hb
  · rw [hd] at hcount
    obtain ⟨e, he, hformed⟩ := refineFace_formed (e := .bare n.vertices) hcount hs.inside hmid
    obtain ⟨b, hb, hsound⟩ := h.refine hn (·.refineFace mid) he (by rwa [hd])
    refine ⟨b, ?_, hsound⟩
    rw [Mesh.refineAt, Mesh.node_eq_ok hn, ok_bind, hd]
    exact hb
  · refine ⟨mesh, ?_, h, .refl mesh⟩
    rw [Mesh.refineAt, Mesh.node_eq_ok hn, ok_bind, hd]
    rfl

/-- One visit keeps a table sound and what is in it, and finds nothing outside the box. -/
theorem Sound.visit (h : m.Sound mesh) {v : Visit} (hv : v.place < mesh.nodes.length) :
    ∃ mesh' point, m.manifold.visit mesh v = .ok (mesh', point) ∧
      (m.Sound mesh' ∧ mesh.Extends mesh') ∧ ∀ t ∈ point, m.Inside t := by
  obtain ⟨point, hpoint, hin⟩ := h.pointAt hv
  rw [Manifold.visit, hpoint, ok_bind]
  cases v.refining with
  | keep => exact ⟨mesh, point, rfl, ⟨h, .refl mesh⟩, hin⟩
  | atPoint =>
    obtain ⟨mesh', hmesh', hsound⟩ := h.refineAt hv hin
    exact ⟨mesh', point, by rw [hmesh']; rfl, hsound, hin⟩
  | atCenter =>
    have hnone : ∀ t ∈ (none : Option (Tensor ℚ)), m.Inside t := nofun
    obtain ⟨mesh', hmesh', hsound⟩ := h.refineAt hv hnone
    exact ⟨mesh', point, by rw [hmesh']; rfl, hsound, hin⟩

theorem Sound.run (h : m.Sound mesh) {visits : List Visit}
    (hadm : m.manifold.Admissible mesh visits) :
    ∃ mesh' points, m.manifold.run mesh visits = .ok (mesh', points) ∧
      (m.Sound mesh' ∧ mesh.Extends mesh') ∧
      points.length = visits.countP (m.manifold.Finds mesh' ·) ∧ ∀ t ∈ points, m.Inside t := by
  -- Later visits go to places that earlier ones made, so that the table varies with the visits.
  induction visits generalizing mesh with
  | nil => exact ⟨mesh, [], rfl, ⟨h, .refl mesh⟩, rfl, by simp⟩
  | cons v rest ih =>
    obtain ⟨hv, hrest⟩ := hadm
    obtain ⟨a, point, hvisit, ⟨ha, hext⟩, hin⟩ := h.visit hv
    have hfinds := (Manifold.pointAt_eq_ok (Manifold.pointAt_of_visit hvisit)).1
    rw [hvisit] at hrest
    obtain ⟨b, points, hrun, ⟨hb, hext'⟩, hcount, hins⟩ := ih ha hrest
    rw [← h.finds_congr (hext.trans hext') hv] at hfinds
    refine ⟨b, point.toList ++ points, ?_, ⟨hb, hext.trans hext'⟩, ?_, ?_⟩
    · rw [Manifold.run, hvisit, ok_bind]
      simp only [hrun, ok_bind]
      rfl
    · rw [List.length_append, hcount, List.countP_cons, add_comm]
      cases point with
      | none => simp [← hfinds]
      | some t => simp [← hfinds]
    · exact List.forall_mem_append.mpr ⟨fun t ht => hin t (Option.mem_toList.mp ht), hins⟩

variable (m) in
inductive IsCell : Entity ℚ → Prop
  | line {a b} (ha : m.Inside a) (hb : m.Inside b) : IsCell (.ofLine a b)
  | quad {vertices e} (inside : ∀ t ∈ vertices, m.Inside t)
      (built : Entity.ofQuad vertices = .ok e) : IsCell e
  | hex {vertices e} (inside : ∀ t ∈ vertices, m.Inside t)
      (built : Entity.ofHex vertices = .ok e) : IsCell e

theorem IsCell.formed {e : Entity ℚ} (he : m.IsCell e) : ∃ d, m.Formed d e := by
  cases he with
  | line ha hb => exact ⟨1, ofLine_formed ha hb⟩
  | quad inside built => exact ⟨2, ofQuad_formed inside built⟩
  | hex inside built => exact ⟨3, ofHex_formed inside built⟩

/-- Refining a cell of points of the box never leaves the box. Every run succeeds. At each visit of
what has a new point it finds that point, and nothing at other visits. All these points lie in the
box, and so do all vertices of all entities of the mesh in the end. -/
theorem run_inside {e : Entity ℚ} (he : m.IsCell e) {visits : List Visit}
    (hadm : m.manifold.Admissible (Mesh.empty.graft e).1 visits) :
    ∃ mesh points, m.manifold.run (Mesh.empty.graft e).1 visits = .ok (mesh, points) ∧
      points.length = visits.countP (m.manifold.Finds mesh ·) ∧
      (∀ before v after, visits = before ++ v :: after → ∃ mesh' found,
        m.manifold.run (Mesh.empty.graft e).1 before = .ok (mesh', found) ∧
        (m.manifold.Finds mesh' v → ∃ t, m.manifold.NewPointAt mesh' v t ∧
          found ++ [t] <+: points)) ∧
      (∀ t ∈ points, m.Inside t) ∧
      ∀ o ∈ mesh.nodes, ∃ n, o = some n ∧ ∀ t ∈ n.vertices, m.Inside t := by
  obtain ⟨d, hformed⟩ := he.formed
  obtain ⟨start, place, hgraft, hstart⟩ := graft_formed hformed .empty empty_sound
  rw [hgraft] at hadm ⊢
  obtain ⟨mesh, points, hrun, ⟨hsound, -⟩, hcount, hin⟩ := hstart.sound.run hadm
  refine ⟨mesh, points, hrun, hcount, ?_, hin, fun o ho => ?_⟩
  · rintro before v after rfl
    obtain ⟨a, found, point, hbefore, hpoint, hfound⟩ := Manifold.run_before hrun
    obtain ⟨hsome, hnew⟩ := Manifold.pointAt_eq_ok hpoint
    refine ⟨a, found, hbefore, fun hfinds => ?_⟩
    obtain ⟨t, rfl⟩ := Option.isSome_iff_exists.mp (hsome.mpr hfinds)
    exact ⟨t, hnew t rfl, hfound⟩
  · obtain ⟨n, hn, hnode⟩ := hsound o ho
    exact ⟨n, hn, hnode.inside⟩

def seamCorners : List (Tensor ℚ) :=
  [.ofVector #v[9 / 10, 0], .ofVector #v[1 / 10, 0], .ofVector #v[9 / 10, 1 / 2],
    .ofVector #v[1 / 10, 1 / 2]]

def seamVisits : List Visit := [⟨0, .atPoint⟩, ⟨4, .atPoint⟩, ⟨11, .atCenter⟩, ⟨5, .keep⟩]

theorem run_inside_strip : ∃ e, Entity.ofQuad seamCorners = .ok e ∧
    ∃ mesh points, strip.manifold.run (Mesh.empty.graft e).1 seamVisits = .ok (mesh, points) ∧
      points = [.ofVector #v[9 / 10, 1 / 4], .ofVector #v[1 / 8, 1 / 4],
        .ofVector #v[17 / 160, 1 / 8], .ofVector #v[9 / 10, 1 / 8]] ∧
      points.length = seamVisits.countP (strip.manifold.Finds mesh ·) ∧
      (∀ t ∈ points, strip.Inside t) ∧
      ∀ o ∈ mesh.nodes, ∃ n, o = some n ∧ ∀ t ∈ n.vertices, strip.Inside t := by
  have hin : ∀ t ∈ seamCorners, strip.Inside t := by
    simp only [seamCorners, List.forall_mem_cons, List.not_mem_nil, false_imp_iff, implies_true,
      and_true]
    exact ⟨⟨_, strip_inBox (by norm_num), rfl⟩, ⟨_, strip_inBox (by norm_num), rfl⟩,
      ⟨_, strip_inBox (by norm_num), rfl⟩, ⟨_, strip_inBox (by norm_num), rfl⟩⟩
  have hpoints : (Entity.ofQuad seamCorners >>= fun e =>
      strip.manifold.run (Mesh.empty.graft e).1 seamVisits).toOption.map Prod.snd =
        some [.ofVector #v[9 / 10, 1 / 4], .ofVector #v[1 / 8, 1 / 4],
          .ofVector #v[17 / 160, 1 / 8], .ofVector #v[9 / 10, 1 / 8]] := by
    decide +kernel
  have hadm (e : Entity ℚ) (he : Entity.ofQuad seamCorners = .ok e) :
      strip.manifold.Admissible (Mesh.empty.graft e).1 seamVisits := by
    obtain rfl : _ = e := Except.ok.inj he
    decide +kernel
  obtain ⟨e, he⟩ : ∃ e, Entity.ofQuad seamCorners = .ok e := ⟨_, rfl⟩
  obtain ⟨mesh, points, hrun, hcount, -, hinside⟩ := run_inside (.quad hin he) (hadm e he)
  rw [he, ok_bind, hrun] at hpoints
  exact ⟨e, he, mesh, points, hrun, Option.some.inj hpoints, hcount, hinside⟩

end FlatSpace

end VertexPlacement
