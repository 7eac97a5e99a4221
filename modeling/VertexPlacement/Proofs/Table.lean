import VertexPlacement.Proofs.Formed
import VertexPlacement.Mesh

namespace VertexPlacement

variable {α : Type}

/-- The dimension of an entity, by the parts that it has. -/
def Node.dim (n : Node α) : Nat := if n.faces ≠ [] then 3 else if n.lines ≠ [] then 2 else 1

theorem Node.dim_of_faces {n : Node α} (h : n.faces ≠ []) : n.dim = 3 := if_pos h

theorem Node.dim_of_lines {n : Node α} (hl : n.lines ≠ []) (hf : n.faces = []) : n.dim = 2 := by
  rw [dim, if_neg (not_not.mpr hf), if_pos hl]

theorem Node.dim_of_bare {n : Node α} (hl : n.lines = []) (hf : n.faces = []) : n.dim = 1 := by
  rw [dim, if_neg (not_not.mpr hf), if_neg (not_not.mpr hl)]

theorem Node.dim_cases (n : Node α) : n.dim = 1 ∨ n.dim = 2 ∨ n.dim = 3 := by
  unfold dim
  split
  · exact .inr (.inr rfl)
  · split
    · exact .inr (.inl rfl)
    · exact .inl rfl

namespace Mesh

def dimAt (mesh : Mesh α) (place : Nat) : Option Nat := mesh.nodes[place]?.join.map Node.dim

/-- What has a dimension in one table has the same one in another. -/
def Extends (a b : Mesh α) : Prop := ∀ place d, a.dimAt place = some d → b.dimAt place = some d

theorem Extends.refl (mesh : Mesh α) : mesh.Extends mesh := fun _ _ h => h

theorem Extends.trans {a b c : Mesh α} (hab : a.Extends b) (hbc : b.Extends c) : a.Extends c :=
  fun place d h => hbc place d (hab place d h)

theorem dimAt_eq_some_iff {mesh : Mesh α} {place d : Nat} :
    mesh.dimAt place = some d ↔ ∃ n, mesh.nodes[place]? = some (some n) ∧ n.dim = d := by
  simp [dimAt, Option.map_eq_some_iff, Option.join_eq_some_iff]

theorem node_eq_ok {mesh : Mesh α} {place : Nat} {n : Node α}
    (h : mesh.nodes[place]? = some (some n)) : mesh.node place = .ok n := by
  rw [node, Entity.item_eq_ok_iff.mpr h]
  rfl

theorem dimAt_of_node {mesh : Mesh α} {place : Nat} {n : Node α} (h : mesh.node place = .ok n) :
    mesh.dimAt place = some n.dim := by
  obtain ⟨o, ho, h⟩ := bind_eq_ok_iff.mp h
  cases o with
  | none => cases h
  | some k =>
    cases h
    exact dimAt_eq_some_iff.mpr ⟨n, Entity.item_eq_ok_iff.mp ho, rfl⟩

theorem extends_add (mesh : Mesh α) (o : Option (Node α)) : mesh.Extends (mesh.add o).1 := by
  intro place d h
  obtain ⟨n, hn, hd⟩ := dimAt_eq_some_iff.mp h
  refine dimAt_eq_some_iff.mpr ⟨n, ?_, hd⟩
  rw [← hn]
  exact List.getElem?_append_left (List.getElem?_eq_some_iff.mp hn).1

theorem dimAt_add (mesh : Mesh α) (n : Node α) :
    (mesh.add (some n)).1.dimAt (mesh.add (some n)).2 = some n.dim :=
  dimAt_eq_some_iff.mpr ⟨n, by simp [add], rfl⟩

theorem extends_set {mesh : Mesh α} {place : Nat} {n : Node α} (h : mesh.dimAt place = some n.dim) :
    mesh.Extends ⟨mesh.nodes.set place (some n)⟩ := by
  intro p d hp
  obtain ⟨k, hk, hd⟩ := dimAt_eq_some_iff.mp hp
  by_cases heq : place = p
  · subst heq
    rw [h] at hp
    have hlt := (List.getElem?_eq_some_iff.mp hk).1
    exact dimAt_eq_some_iff.mpr ⟨n, List.getElem?_set_self hlt, Option.some_inj.mp hp⟩
  · exact dimAt_eq_some_iff.mpr ⟨k, by rw [List.getElem?_set_ne heq, hk], hd⟩

end Mesh

namespace FlatSpace

variable (m : FlatSpace ℚ)

/-- A node of points of the box, with as many parts as its dimension needs. -/
structure SoundNode (mesh : Mesh ℚ) (n : Node ℚ) : Prop where
  inside : ∀ t ∈ n.vertices, m.Inside t
  vertex_count : Cell.vertexCount n.dim ≤ n.vertices.length
  line_count : 1 < n.dim → Cell.lineCount n.dim ≤ n.lines.length
  face_count : 2 < n.dim → Cell.faceCount n.dim ≤ n.faces.length
  lines : ∀ l ∈ n.lines, mesh.dimAt l = some 1
  faces : ∀ f ∈ n.faces, mesh.dimAt f = some 2
  children : ∀ c ∈ n.children, mesh.dimAt c = some n.dim

def Sound (mesh : Mesh ℚ) : Prop := ∀ o ∈ mesh.nodes, ∃ n, o = some n ∧ m.SoundNode mesh n

variable {m} {mesh mesh' : Mesh ℚ} {n : Node ℚ} {d : Nat}

theorem SoundNode.of_dim (hd : n.dim = d) (inside : ∀ t ∈ n.vertices, m.Inside t)
    (vertex_count : Cell.vertexCount d ≤ n.vertices.length)
    (line_count : 1 < d → Cell.lineCount d ≤ n.lines.length)
    (face_count : 2 < d → Cell.faceCount d ≤ n.faces.length)
    (lines : ∀ l ∈ n.lines, mesh.dimAt l = some 1) (faces : ∀ f ∈ n.faces, mesh.dimAt f = some 2)
    (children : ∀ c ∈ n.children, mesh.dimAt c = some d) : m.SoundNode mesh n := by
  subst hd
  exact ⟨inside, vertex_count, line_count, face_count, lines, faces, children⟩

theorem SoundNode.mono (h : m.SoundNode mesh n) (hext : mesh.Extends mesh') :
    m.SoundNode mesh' n :=
  { h with
    lines := fun l hl => hext l 1 (h.lines l hl)
    faces := fun f hf => hext f 2 (h.faces f hf)
    children := fun c hc => hext c n.dim (h.children c hc) }

theorem Sound.soundNode (h : m.Sound mesh) {place : Nat}
    (hn : mesh.nodes[place]? = some (some n)) : m.SoundNode mesh n := by
  obtain ⟨_, heq, hsound⟩ := h _ (List.mem_of_getElem? hn)
  cases heq
  exact hsound

theorem Sound.exists_node (h : m.Sound mesh) {place : Nat} (hd : mesh.dimAt place = some d) :
    ∃ n, mesh.nodes[place]? = some (some n) ∧ m.SoundNode mesh n ∧ n.dim = d := by
  obtain ⟨n, hn, rfl⟩ := Mesh.dimAt_eq_some_iff.mp hd
  exact ⟨n, hn, h.soundNode hn, rfl⟩

theorem empty_sound : m.Sound .empty := by
  intro o ho
  cases ho

theorem Sound.add (h : m.Sound mesh) (hn : m.SoundNode mesh n) :
    m.Sound (mesh.add (some n)).1 := by
  have hext := mesh.extends_add (some n)
  intro o ho
  rcases List.mem_append.mp ho with ho | ho
  · obtain ⟨k, hk, hsound⟩ := h o ho
    exact ⟨k, hk, hsound.mono hext⟩
  · exact ⟨n, List.mem_singleton.mp ho, hn.mono hext⟩

theorem Sound.set (h : m.Sound mesh) {place : Nat} (hd : mesh.dimAt place = some n.dim)
    (hn : m.SoundNode mesh n) : m.Sound ⟨mesh.nodes.set place (some n)⟩ := by
  have hext := Mesh.extends_set hd
  intro o ho
  rcases List.mem_or_eq_of_mem_set ho with ho | rfl
  · obtain ⟨k, hk, hsound⟩ := h o ho
    exact ⟨k, hk, hsound.mono hext⟩
  · exact ⟨n, rfl, hn.mono hext⟩

section Graft

variable (m) in
structure Grafted (a : Mesh ℚ) (d : Nat) (b : Mesh ℚ) (place : Nat) : Prop where
  sound : m.Sound b
  ext : a.Extends b
  dim : b.dimAt place = some d

variable (m) in
structure GraftedAll (a : Mesh ℚ) (d count : Nat) (b : Mesh ℚ) (places : List Nat) : Prop where
  sound : m.Sound b
  ext : a.Extends b
  dim : ∀ place ∈ places, b.dimAt place = some d
  length_eq : places.length = count

theorem Sound.grafted_add (h : m.Sound mesh) (hd : n.dim = d) (hn : m.SoundNode mesh n) :
    ∃ b place, mesh.add (some n) = (b, place) ∧ m.Grafted mesh d b place :=
  ⟨_, _, rfl, h.add hn, mesh.extends_add _, hd ▸ mesh.dimAt_add n⟩

theorem graftAll_of_graft {es : List (Entity ℚ)} (hes : ∀ e ∈ es, ∀ mesh, m.Sound mesh →
      ∃ b place, mesh.graft e = (b, place) ∧ m.Grafted mesh d b place) (h : m.Sound mesh) :
    ∃ b places, mesh.graftAll es = (b, places) ∧ m.GraftedAll mesh d es.length b places := by
  induction es generalizing mesh with
  | nil => exact ⟨mesh, [], rfl, h, .refl mesh, by simp, rfl⟩
  | cons e rest ih =>
    obtain ⟨b, place, hb, hfirst⟩ := hes e (by simp) mesh h
    obtain ⟨c, places, hc, hrest⟩ := ih (fun u hu => hes u (by simp [hu])) hfirst.sound
    refine ⟨c, place :: places, ?_, hrest.sound, hfirst.ext.trans hrest.ext, ?_, ?_⟩
    · simp only [Mesh.graftAll, hb, hc]
    · exact List.forall_mem_cons.mpr ⟨hrest.ext _ _ hfirst.dim, hrest.dim⟩
    · rw [List.length_cons, List.length_cons, hrest.length_eq]

theorem graft_formed {e : Entity ℚ} (he : m.Formed d e) : ∀ mesh, m.Sound mesh →
    ∃ b place, mesh.graft e = (b, place) ∧ m.Grafted mesh d b place := by
  -- Lines and faces are added first, and keep their dimensions when more is added after them.
  induction he with
  | @line vs inside count =>
    intro mesh h
    have hdim : (Node.mk vs [] [] []).dim = 1 := Node.dim_of_bare rfl rfl
    exact h.grafted_add hdim (.of_dim hdim inside count (by simp) (by simp) (by simp) (by simp)
      (by simp))
  | @quad vs ls inside count line_count _ ih =>
    intro mesh h
    obtain ⟨a, ls', hls', hls⟩ := graftAll_of_graft ih h
    rw [← hls.length_eq] at line_count
    have hdim : (Node.mk vs ls' [] []).dim = 2 :=
      Node.dim_of_lines (List.ne_nil_of_length_pos (by simp; omega)) rfl
    obtain ⟨b, place, hb, hadd⟩ := hls.sound.grafted_add hdim (.of_dim hdim inside count
      (fun _ => line_count) (by simp) hls.dim (by simp) (by simp))
    refine ⟨b, place, ?_, { hadd with ext := hls.ext.trans hadd.ext }⟩
    simp only [Mesh.graft, Mesh.graftAll, hls', hb]
  | @hex vs ls fs inside count line_count face_count _ _ ih ih' =>
    intro mesh h
    obtain ⟨a, ls', hls', hls⟩ := graftAll_of_graft ih h
    obtain ⟨b, fs', hfs', hfs⟩ := graftAll_of_graft ih' hls.sound
    rw [← hls.length_eq] at line_count
    rw [← hfs.length_eq] at face_count
    have hdim : (Node.mk vs ls' fs' []).dim = 3 :=
      Node.dim_of_faces (List.ne_nil_of_length_pos (by simp; omega))
    obtain ⟨c, place, hc, hadd⟩ := hfs.sound.grafted_add hdim (.of_dim hdim inside count
      (fun _ => line_count) (fun _ => face_count) (fun l hl => hfs.ext l 1 (hls.dim l hl)) hfs.dim
      (by simp))
    refine ⟨c, place, ?_, { hadd with ext := (hls.ext.trans hfs.ext).trans hadd.ext }⟩
    simp only [Mesh.graft, Mesh.graftAll, hls', hfs', hc]

/-- A refinement adds the new children to the table, and changes nothing but the children of the
node that is refined. -/
theorem Sound.refine (h : m.Sound mesh) {place : Nat} (hn : mesh.nodes[place]? = some (some n))
    (split : Entity ℚ → Except (Fault ℚ) (Entity ℚ)) {e : Entity ℚ}
    (hsplit : split (.bare n.vertices) = .ok e) (he : ∀ x ∈ e.children, m.Formed n.dim x) :
    ∃ b, mesh.refine place split = .ok b ∧ m.Sound b ∧ mesh.Extends b := by
  have hsound := h.soundNode hn
  obtain ⟨a, places, ha, hgraft⟩ := graftAll_of_graft (fun x hx => graft_formed (he x hx)) h
  let n' : Node ℚ := { n with children := places }
  have hplace : a.dimAt place = some n'.dim :=
    hgraft.ext _ _ (Mesh.dimAt_eq_some_iff.mpr ⟨n, hn, rfl⟩)
  have hn' : m.SoundNode a n' := { hsound.mono hgraft.ext with children := hgraft.dim }
  refine ⟨⟨a.nodes.set place (some n')⟩, ?_, hgraft.sound.set hplace hn',
    hgraft.ext.trans (Mesh.extends_set hplace)⟩
  rw [Mesh.refine, Mesh.node_eq_ok hn, ok_bind, hsplit, ok_bind, ha]
  rfl

end Graft

end FlatSpace

end VertexPlacement
