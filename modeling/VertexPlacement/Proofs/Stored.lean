import VertexPlacement.Proofs.HangingNodes
import VertexPlacement.Proofs.Table
import VertexPlacement.Session.Entities

namespace VertexPlacement

variable {α : Type}

namespace Mesh

mutual

/-- Whether an entity stands at a place of the table, and its parts at the places of its parts. -/
def Shows (mesh : Mesh α) : Entity α → Nat → Prop
  | ⟨vertices, lines, faces, children⟩, place => ∃ n, mesh.nodes[place]? = some (some n) ∧
      n.vertices = vertices ∧ ShowsAll mesh lines n.lines ∧ ShowsAll mesh faces n.faces ∧
      ShowsAll mesh children n.children

def ShowsAll (mesh : Mesh α) : List (Entity α) → List Nat → Prop
  | [], places => places = []
  | e :: rest, places => ∃ place tail, places = place :: tail ∧ Shows mesh e place ∧
      ShowsAll mesh rest tail

end

theorem forall₂_of_showsAll {mesh : Mesh α} {es : List (Entity α)} {places : List Nat}
    (h : mesh.ShowsAll es places) : List.Forall₂ mesh.Shows es places := by
  induction es generalizing places with
  | nil =>
    rw [ShowsAll] at h
    subst h
    exact .nil
  | cons e rest ih =>
    rw [ShowsAll] at h
    obtain ⟨place, tail, rfl, he, hrest⟩ := h
    exact .cons he (ih hrest)

section Extension

variable {a b : Mesh α}

theorem getElem?_of_isPrefix (h : a.nodes <+: b.nodes) {place : Nat} {o : Option (Node α)}
    (ho : a.nodes[place]? = some o) : b.nodes[place]? = some o := by
  obtain ⟨added, hadded⟩ := h
  rw [← hadded, List.getElem?_append_left (List.getElem?_eq_some_iff.mp ho).1, ho]

mutual

theorem Shows.mono (h : a.nodes <+: b.nodes) :
    ∀ (e : Entity α) (place : Nat), a.Shows e place → b.Shows e place
  | ⟨_, lines, faces, children⟩, _, hs => by
    rw [Shows] at hs ⊢
    obtain ⟨n, hn, hv, hl, hf, hc⟩ := hs
    exact ⟨n, getElem?_of_isPrefix h hn, hv, ShowsAll.mono h lines _ hl,
      ShowsAll.mono h faces _ hf, ShowsAll.mono h children _ hc⟩

theorem ShowsAll.mono (h : a.nodes <+: b.nodes) :
    ∀ (es : List (Entity α)) (places : List Nat), a.ShowsAll es places → b.ShowsAll es places
  | [], _, hs => by
    rw [ShowsAll] at hs ⊢
    exact hs
  | e :: rest, _, hs => by
    rw [ShowsAll] at hs ⊢
    obtain ⟨place, tail, htail, he, hrest⟩ := hs
    exact ⟨place, tail, htail, Shows.mono h e place he, ShowsAll.mono h rest tail hrest⟩

end

end Extension

mutual

/-- Adding an entity changes nothing that was there. -/
theorem graft_shows : ∀ (mesh : Mesh α) (e : Entity α),
    mesh.nodes <+: (mesh.graft e).1.nodes ∧ (mesh.graft e).1.Shows e (mesh.graft e).2
  | mesh, ⟨vertices, lines, faces, children⟩ => by
    obtain ⟨hkeep, hl⟩ := graftAll_shows mesh lines
    obtain ⟨b, ls, hb⟩ : ∃ b ls, mesh.graftAll lines = (b, ls) := ⟨_, _, rfl⟩
    obtain ⟨hkeep', hf⟩ := graftAll_shows b faces
    obtain ⟨c, fs, hc⟩ : ∃ c fs, b.graftAll faces = (c, fs) := ⟨_, _, rfl⟩
    obtain ⟨hkeep'', hch⟩ := graftAll_shows c children
    obtain ⟨d, cs, hd⟩ : ∃ d cs, c.graftAll children = (d, cs) := ⟨_, _, rfl⟩
    rw [hb] at hkeep hl
    rw [hc] at hkeep' hf
    rw [hd] at hkeep'' hch
    have hadd : d.nodes <+: (d.add (some ⟨vertices, ls, fs, cs⟩)).1.nodes := List.prefix_append _ _
    have hplace : (d.add (some ⟨vertices, ls, fs, cs⟩)).1.nodes[d.nodes.length]? =
        some (some ⟨vertices, ls, fs, cs⟩) := by simp [add]
    simp only [graft, hb, hc, hd]
    rw [Shows]
    exact ⟨((hkeep.trans hkeep').trans hkeep'').trans hadd, _, hplace, rfl,
      ShowsAll.mono ((hkeep'.trans hkeep'').trans hadd) lines _ hl,
      ShowsAll.mono (hkeep''.trans hadd) faces _ hf, ShowsAll.mono hadd children _ hch⟩

theorem graftAll_shows : ∀ (mesh : Mesh α) (es : List (Entity α)),
    mesh.nodes <+: (mesh.graftAll es).1.nodes ∧
      (mesh.graftAll es).1.ShowsAll es (mesh.graftAll es).2
  | mesh, [] => by
    rw [graftAll, ShowsAll]
    exact ⟨List.prefix_rfl, rfl⟩
  | mesh, e :: rest => by
    obtain ⟨hkeep, he⟩ := graft_shows mesh e
    obtain ⟨hkeep', hrest⟩ := graftAll_shows (mesh.graft e).1 rest
    rw [graftAll, ShowsAll]
    exact ⟨hkeep.trans hkeep', _, _, rfl, Shows.mono hkeep' e _ he, hrest⟩

end

section Samples

variable {mesh : Mesh α} {e : Entity α} {place : Nat}

theorem Shows.exists_node (h : mesh.Shows e place) : ∃ n, mesh.node place = .ok n ∧
    n.vertices = e.vertices ∧ mesh.ShowsAll e.children n.children ∧
    ∀ side : Side, List.Forall₂ mesh.Shows (e.parts side.part) (parts n side.part) := by
  obtain ⟨vertices, lines, faces, children⟩ := e
  rw [Shows] at h
  obtain ⟨n, hn, hv, hl, hf, hc⟩ := h
  refine ⟨n, node_eq_ok hn, hv, hc, fun side => ?_⟩
  cases side with
  | line => exact forall₂_of_showsAll hl
  | face => exact forall₂_of_showsAll hf

theorem Shows.bare (h : mesh.Shows e place) : mesh.bare place = .ok (.bare e.vertices) := by
  obtain ⟨n, hn, hv, -⟩ := h.exists_node
  rw [Mesh.bare, hn, ← hv]
  rfl

theorem Shows.part (h : mesh.Shows e place) : ∃ p, mesh.part place = .ok p ∧
    p.vertices = e.vertices ∧ p.children = (e.children.take 1).map fun c => .bare c.vertices := by
  obtain ⟨n, hn, hv, hc, -⟩ := h.exists_node
  have hfirst : (n.children.take 1).mapM mesh.bare =
      .ok ((e.children.take 1).map fun c => Entity.bare c.vertices) := by
    cases hes : e.children with
    | nil =>
      rw [hes, ShowsAll] at hc
      rw [hc]
      rfl
    | cons c rest =>
      rw [hes, ShowsAll] at hc
      obtain ⟨place, tail, hplaces, hcplace, -⟩ := hc
      rw [hplaces, List.take_succ_cons, List.take_zero, List.mapM_cons, hcplace.bare]
      rfl
  refine ⟨⟨n.vertices, [], [], (e.children.take 1).map fun c => .bare c.vertices⟩, ?_, hv, rfl⟩
  rw [Mesh.part, hn, ok_bind, hfirst]
  rfl

variable [Scalar α]

theorem Shows.item_sample (h : mesh.Shows e place) (side : Side) (i : Nat) :
    (do side.sample (← mesh.part (← Entity.item (parts (← mesh.node place) side.part) i))) =
      Entity.item (e.parts side.part) i >>= side.sample := by
  obtain ⟨n, hn, -, -, hparts⟩ := h.exists_node
  have hlen := (hparts side).length_eq
  rw [hn, ok_bind]
  refine Entity.item_bind_congr hlen fun q l hq hl => ?_
  obtain ⟨hi, rfl⟩ := List.getElem?_eq_some_iff.mp hl
  obtain ⟨hi', rfl⟩ := List.getElem?_eq_some_iff.mp hq
  obtain ⟨p, hp, hv, hc⟩ := Shows.part ((hparts side).get hi hi')
  exact (congrArg (· >>= side.sample) hp).trans (side.sample_congr hv hc)

theorem Shows.samples_eq (h : mesh.Shows e place) : mesh.samples place = e.samples := by
  have hcorner : (mesh.samples place).corner = e.corner := by
    funext i
    change mesh.bare place >>= (·.corner i) = _
    rw [h.bare]
    rfl
  exact (CellSamples.mk.injEq ..).mpr
    ⟨hcorner, funext (h.item_sample .line), funext (h.item_sample .face)⟩

/-- A cell finds the same samples in a table that it has been added to as before. -/
theorem samples_graft (mesh : Mesh α) (e : Entity α) :
    (mesh.graft e).1.samples (mesh.graft e).2 = e.samples :=
  (graft_shows mesh e).2.samples_eq

end Samples

end Mesh

namespace Session

variable {d : Nat}

def Refinement.ofSplit (s : Split Float d) : Refinement where
  path := [⟨some s.side.part, .whole s.index⟩]
  asLine := s.side = .line
  middle := (s.middle.map fun c => .array (.ofVector c)).getD .missing

theorem toTensor_ofVector (v : Vector Float d) :
    (Datum.array (.ofVector v)).toTensor = .ok (.ofVector v) := by
  have hlen : (Tensor.ofVector v).entries.length = entryCount [d] := (Tensor.ofVector v).size_eq
  exact dif_pos hlen

theorem split_ofSplit (s : Split Float d) (e : Entity Float) :
    split (Refinement.ofSplit s).asLine (Refinement.ofSplit s).middle e =
      s.side.refine e (s.middle.map .ofVector) := by
  obtain ⟨side, index, middle⟩ := s
  cases middle with
  | none => cases side <;> rfl
  | some c =>
    have hmiddle : middleOf (.array (.ofVector c)) e = .ok (.ofVector c) := toTensor_ofVector c
    cases side with
    | line => exact congrArg e.splitLine hmiddle
    | face => exact congrArg e.splitFace hmiddle

theorem Workspace.refineTree_ofSplit (w : Workspace) (e : Entity Float) (s : Split Float d) :
    w.refineTree e (.ofSplit s) = e.refineSide s := by
  have hmiddle : w.resolve (Refinement.ofSplit s).middle = .ok (Refinement.ofSplit s).middle := by
    obtain ⟨side, index, middle⟩ := s
    cases middle <;> rfl
  rw [Entity.refineSide, ← funext (split_ofSplit s), refineTree]
  simp only [hmiddle, ok_bind]
  rfl

theorem Workspace.foldlM_refineTree (w : Workspace) (e : Entity Float)
    (history : List (Split Float d)) :
    (history.map .ofSplit).foldlM w.refineTree e = e.refineSides history := by
  rw [List.foldlM_map, Entity.refineSides]
  exact congrArg (fun f => history.foldlM f e) (funext₂ w.refineTree_ofSplit)

/-- A cell that is refined and stored by a session has the samples that its tree has after the same
history. -/
theorem Action.run_samples (w : Workspace) (e : Entity Float) (history : List (Split Float d)) :
    (do
      let refined ← refineCell e (history.map .ofSplit)
      let place ← addEntity refined
      return (← get).mesh.samples place : Action (CellSamples Float)).run w = (do
        let refined ← e.refineSides history
        return (refined.samples, { w with mesh := (w.mesh.graft refined).1 })) := by
  have hcell : (refineCell e (history.map .ofSplit)).run w =
      e.refineSides history >>= fun refined => .ok (refined, w) := by
    rw [← w.foldlM_refineTree]
    rfl
  rw [StateT.run_bind, hcell]
  cases e.refineSides history with
  | error fault => rfl
  | ok refined =>
    have hsamples := w.mesh.samples_graft refined
    change Except.ok ((w.mesh.graft refined).1.samples (w.mesh.graft refined).2, _) = _
    rw [hsamples]
    rfl

end Session

end VertexPlacement
