import VertexPlacement.Entity.Path
import VertexPlacement.Entity.Samples
import VertexPlacement.Proofs.Lookup
import VertexPlacement.Proofs.Means

namespace VertexPlacement

variable {α : Type}

inductive Side where
  | line
  | face
  deriving DecidableEq

namespace Side

def part : Side → Entity.Part
  | line => .line
  | face => .face

def vertexCount : Side → Nat
  | line => 2
  | face => 4

/-- The corner of its first child at which a side was refined. -/
def middleCorner : Side → Nat
  | line => 1
  | face => 3

theorem ne_nil_of_length {β : Type} (side : Side) {items : List β}
    (h : items.length = side.vertexCount) : items ≠ [] := by
  refine List.ne_nil_of_length_pos ?_
  rw [h]
  cases side <;> decide

variable [Scalar α]

def refine : Side → Entity α → Option (Tensor α) → Except (Fault α) (Entity α)
  | line => Entity.refineLine
  | face => Entity.refineFace

def sample : Side → Entity α → Except (Fault α) (List α)
  | line => Entity.lineSample
  | face => Entity.faceSample

theorem sample_eq (side : Side) (e : Entity α) : side.sample e =
    (if e.hasChildren then e.child 0 >>= (·.vertex side.middleCorner) else e.center) >>=
      (.ok ·.entries) := by
  by_cases h : e.hasChildren
  · rw [if_pos h, bind_assoc]
    cases side
    · rw [sample, Entity.lineSample, if_pos h]
      rfl
    · rw [sample, Entity.faceSample, if_pos h]
      rfl
  · rw [if_neg h]
    cases side
    · rw [sample, Entity.lineSample, if_neg h]
      rfl
    · rw [sample, Entity.faceSample, if_neg h]
      rfl

theorem sample_of_children_eq_nil (side : Side) {e : Entity α} (h : e.children = []) :
    side.sample e = e.center >>= (.ok ·.entries) := by
  have hn : ¬ e.hasChildren = true := by simp [Entity.hasChildren, h]
  rw [sample_eq, if_neg hn]

theorem sample_of_children_eq_cons (side : Side) {e c : Entity α} {rest : List (Entity α)}
    (h : e.children = c :: rest) :
    side.sample e = c.vertex side.middleCorner >>= (.ok ·.entries) := by
  have hc : e.hasChildren = true := by simp [Entity.hasChildren, h]
  have h0 : e.child 0 = .ok c := by simp [Entity.child, Entity.item, h]
  rw [sample_eq, if_pos hc, h0, ok_bind]

theorem sample_congr (side : Side) {e e' : Entity α} (hv : e'.vertices = e.vertices)
    (hc : e'.children = (e.children.take 1).map fun c => .bare c.vertices) :
    side.sample e' = side.sample e := by
  cases hes : e.children with
  | nil =>
    rw [hes] at hc
    rw [sample_of_children_eq_nil side hes, sample_of_children_eq_nil side hc, Entity.center,
      Entity.center, hv]
  | cons c rest =>
    rw [hes] at hc
    rw [sample_of_children_eq_cons side hes, sample_of_children_eq_cons side hc]
    rfl

end Side

namespace Entity

variable {d : Nat}

theorem vertices_of_ofQuad {vs : List (Tensor α)} {e : Entity α} (h : ofQuad vs = .ok e) :
    e.vertices = vs ∧ e.children = [] ∧ e.faces = [] := by
  obtain ⟨ls, -, he⟩ := bind_eq_ok_iff.mp h
  cases he
  exact ⟨rfl, rfl, rfl⟩

variable [Scalar α]

theorem center_congr {e e' : Entity α} (h : e'.vertices = e.vertices) : e'.center = e.center := by
  rw [center, center, h]

theorem middle_congr {e e' : Entity α} (h : e'.vertices = e.vertices) (mid : Option (Tensor α)) :
    e'.middle mid = e.middle mid := by
  cases mid with
  | none => exact center_congr h
  | some c => rfl

theorem exists_middle_ofVector {e : Entity α} {vs : List (Vector α d)}
    (hv : e.vertices = vs.map .ofVector) (hne : vs ≠ []) (mid : Option (Vector α d)) :
    ∃ c : Vector α d, e.middle (mid.map .ofVector) = .ok (.ofVector c) := by
  cases mid with
  | none => exact exists_center_ofVector hv hne
  | some c => exact ⟨c, rfl⟩

section Refinement

variable {e : Entity α} {mid : Option (Tensor α)} {v0 v1 v2 v3 c left down up right : Tensor α}

theorem refineLine_eq (h0 : e.vertex 0 = .ok v0) (h1 : e.vertex 1 = .ok v1)
    (hc : e.middle mid = .ok c) :
    e.refineLine mid = .ok { e with children := [.ofLine v0 c, .ofLine c v1] } := by
  rw [refineLine, splitLine, h0, h1, hc]
  rfl

theorem refineFace_eq (h0 : e.vertex 0 = .ok v0) (h1 : e.vertex 1 = .ok v1)
    (h2 : e.vertex 2 = .ok v2) (h3 : e.vertex 3 = .ok v3) (hc : e.middle mid = .ok c)
    (hl : halfway v0 v1 = .ok left) (hd : halfway v0 v2 = .ok down) (hu : halfway v1 v3 = .ok up)
    (hr : halfway v2 v3 = .ok right) :
    ∃ c0 c1 c2 c3, ofQuad [v0, left, down, c] = .ok c0 ∧ ofQuad [left, v1, c, up] = .ok c1 ∧
      ofQuad [down, c, v2, right] = .ok c2 ∧ ofQuad [c, up, right, v3] = .ok c3 ∧
      e.refineFace mid = .ok { e with children := [c0, c1, c2, c3] } := by
  refine ⟨_, _, _, _, rfl, rfl, rfl, rfl, ?_⟩
  rw [refineFace, splitFace, hc]
  simp only [h0, h1, h2, h3, hl, hd, hu, hr, ok_bind]
  rfl

end Refinement

end Entity

theorem Side.exists_refine [Scalar α] {d : Nat} (side : Side) {e : Entity α}
    {vs : List (Vector α d)} (hv : e.vertices = vs.map .ofVector)
    (hn : vs.length = side.vertexCount)
    {mid : Option (Tensor α)} {c : Vector α d} (hc : e.middle mid = .ok (.ofVector c)) :
    ∃ e', side.refine e mid = .ok e' ∧ e'.vertices = e.vertices ∧
      side.sample e' = .ok (Tensor.ofVector c).entries := by
  cases side with
  | line =>
    obtain ⟨p, q, rfl⟩ := List.length_eq_two.mp hn
    have h0 : e.vertex 0 = .ok (.ofVector p) := by rw [Entity.vertex, hv]; rfl
    have h1 : e.vertex 1 = .ok (.ofVector q) := by rw [Entity.vertex, hv]; rfl
    exact ⟨_, Entity.refineLine_eq h0 h1 hc, rfl,
      (Side.sample_of_children_eq_cons .line rfl).trans rfl⟩
  | face =>
    match vs, hn with
    | [p0, p1, p2, p3], _ =>
      have h0 : e.vertex 0 = .ok (.ofVector p0) := by rw [Entity.vertex, hv]; rfl
      have h1 : e.vertex 1 = .ok (.ofVector p1) := by rw [Entity.vertex, hv]; rfl
      have h2 : e.vertex 2 = .ok (.ofVector p2) := by rw [Entity.vertex, hv]; rfl
      have h3 : e.vertex 3 = .ok (.ofVector p3) := by rw [Entity.vertex, hv]; rfl
      obtain ⟨c0, c1, c2, c3, hc0, -, -, -, hr⟩ := Entity.refineFace_eq h0 h1 h2 h3 hc
        (Entity.halfway_ofVector _ _) (Entity.halfway_ofVector _ _) (Entity.halfway_ofVector _ _)
        (Entity.halfway_ofVector _ _)
      refine ⟨_, hr, rfl, (Side.sample_of_children_eq_cons .face rfl).trans ?_⟩
      rw [Entity.vertex, (Entity.vertices_of_ofQuad hc0).1]
      rfl

section Cells

def Cell.sides (dim : Nat) : Side → List (List Nat)
  | .line => (if dim = 2 then quadLines else hexLines).map fun ends => [ends.1, ends.2]
  | .face => if dim = 2 then [] else hexFaces

def Cell.pick {β : Type} (items : List β) (corners : List Nat) : List β :=
  corners.filterMap (items[·]?)

theorem Cell.length_pick {β : Type} {items : List β} {corners : List Nat}
    (h : ∀ i ∈ corners, i < items.length) : (pick items corners).length = corners.length := by
  induction corners with
  | nil => rfl
  | cons i rest ih =>
    have hlt : i < items.length := h i (by simp)
    have hi : items[i]? = some items[i] := List.getElem?_eq_getElem hlt
    have hrest := ih fun j hj => h j (by simp [hj])
    rw [pick, List.filterMap_cons, hi]
    exact congrArg (· + 1) hrest

theorem Cell.sides_sound {dim : Nat} (hdim : dim = 2 ∨ dim = 3) (side : Side) :
    ∀ corners ∈ sides dim side,
      corners.length = side.vertexCount ∧ ∀ i ∈ corners, i < vertexCount dim := by
  rcases hdim with rfl | rfl <;> cases side <;> decide

theorem Cell.length_pick_of_mem_sides {β : Type} {dim : Nat} (hdim : dim = 2 ∨ dim = 3)
    {side : Side} {items : List β} (hcount : items.length = vertexCount dim) {corners : List Nat}
    (h : corners ∈ sides dim side) : (pick items corners).length = side.vertexCount := by
  obtain ⟨hlen, hlt⟩ := sides_sound hdim side corners h
  rw [← hcount] at hlt
  exact (length_pick hlt).trans hlen

namespace Entity

variable {d : Nat}

theorem item_map_eq_ok_iff {β γ : Type} {f : β → γ} {items : List β} {i : Nat} {y : γ} :
    (item (items.map f) i : Except (Fault α) γ) = .ok y ↔ ∃ x, items[i]? = some x ∧ f x = y := by
  rw [item_eq_ok_iff, List.getElem?_map, Option.map_eq_some_iff]

theorem mapM_item_eq_ok {β γ : Type} {f : β → γ} {items : List β} {corners : List Nat} {ys : List γ}
    (h : corners.mapM (item (items.map f)) = (.ok ys : Except (Fault α) _)) :
    ys = (Cell.pick items corners).map f := by
  replace h := mapM_eq_ok_iff.mp h
  induction h with
  | nil => rfl
  | @cons i y _ _ hy _ ih =>
    obtain ⟨x, hx, rfl⟩ := item_map_eq_ok_iff.mp hy
    rw [Cell.pick, List.filterMap_cons, hx, ih]
    rfl

/-- A side as it is built with the cell. -/
structure Fresh (points : List (Vector α d)) (e : Entity α) : Prop where
  vertices_eq : e.vertices = points.map .ofVector
  children_eq : e.children = []

inductive Built (vs : List (Vector α d)) : Nat → Entity α → Prop
  | quad {e} (count : vs.length = 4) (built : ofQuad (vs.map .ofVector) = .ok e) : Built vs 2 e
  | hex {e} (count : vs.length = 8) (built : ofHex (vs.map .ofVector) = .ok e) : Built vs 3 e

variable {vs : List (Vector α d)} {dim : Nat} {e : Entity α}

theorem linesAlong_fresh {ends : List (Nat × Nat)} {ls : List (Entity α)}
    (h : linesAlong ends (vs.map .ofVector) = .ok ls) :
    List.Forall₂ (fun corners l => Fresh (Cell.pick vs corners) l)
      (ends.map fun p => [p.1, p.2]) ls := by
  refine List.forall₂_map_left_iff.mpr ((mapM_eq_ok_iff.mp h).imp fun p l hl => ?_)
  obtain ⟨a, ha, hl⟩ := bind_eq_ok_iff.mp hl
  obtain ⟨b, hb, hl⟩ := bind_eq_ok_iff.mp hl
  obtain ⟨x, hx, rfl⟩ := item_map_eq_ok_iff.mp ha
  obtain ⟨y, hy, rfl⟩ := item_map_eq_ok_iff.mp hb
  cases hl
  exact ⟨by simp [Cell.pick, hx, hy, ofLine, bare], rfl⟩

theorem Built.dim_cases (h : Built vs dim e) :
    (dim = 2 ∨ dim = 3) ∧ vs.length = Cell.vertexCount dim := by
  cases h with
  | quad count _ => exact ⟨.inl rfl, count⟩
  | hex count _ => exact ⟨.inr rfl, count⟩

theorem Built.ne_nil (h : Built vs dim e) : vs ≠ [] := by
  cases h with
  | quad count _ => exact Side.face.ne_nil_of_length count
  | hex count _ => exact List.ne_nil_of_length_pos (by rw [count]; decide)

theorem Built.vertices_eq (h : Built vs dim e) : e.vertices = vs.map .ofVector := by
  cases h with
  | quad _ built => exact (vertices_of_ofQuad built).1
  | hex _ built =>
    obtain ⟨ls, -, he⟩ := bind_eq_ok_iff.mp built
    obtain ⟨fs, -, he⟩ := bind_eq_ok_iff.mp he
    cases he
    rfl

theorem Built.fresh (h : Built vs dim e) (side : Side) :
    List.Forall₂ (fun corners l => Fresh (Cell.pick vs corners) l) (Cell.sides dim side)
      (e.parts side.part) := by
  cases h with
  | quad _ built =>
    obtain ⟨ls, hls, he⟩ := bind_eq_ok_iff.mp built
    cases he
    cases side with
    | line => exact linesAlong_fresh hls
    | face => exact .nil
  | hex _ built =>
    obtain ⟨ls, hls, he⟩ := bind_eq_ok_iff.mp built
    obtain ⟨fs, hfs, he⟩ := bind_eq_ok_iff.mp he
    cases he
    cases side with
    | line => exact linesAlong_fresh hls
    | face =>
      refine (mapM_eq_ok_iff.mp hfs).imp fun corners f hf => ?_
      obtain ⟨us, hus, hf⟩ := bind_eq_ok_iff.mp hf
      obtain ⟨hv, hc, -⟩ := vertices_of_ofQuad hf
      exact ⟨hv.trans (mapM_item_eq_ok hus), hc⟩

theorem Built.exists_fresh (h : Built vs dim e) {side : Side} {i : Nat} {l : Entity α}
    (hl : (e.parts side.part)[i]? = some l) :
    ∃ points : List (Vector α d), points.length = side.vertexCount ∧ Fresh points l := by
  obtain ⟨hdim, hcount⟩ := h.dim_cases
  obtain ⟨hi, rfl⟩ := List.getElem?_eq_some_iff.mp hl
  have hfresh := h.fresh side
  have hi' : i < (Cell.sides dim side).length := by rwa [hfresh.length_eq]
  exact ⟨_, Cell.length_pick_of_mem_sides hdim hcount (List.getElem_mem hi'), hfresh.get hi' hi⟩

end Entity

end Cells

end VertexPlacement
