import VertexPlacement.Proofs.FirstFailure
import VertexPlacement.Proofs.Samples
import VertexPlacement.Proofs.Sides

namespace VertexPlacement

variable {α : Type}

section Centers

def SameShape (ts : List (Tensor α)) : Prop := ∃ s, ∀ t ∈ ts, t.shape = s

theorem sameShape_cons {t : Tensor α} {rest : List (Tensor α)} :
    SameShape (t :: rest) ↔ ∀ u ∈ rest, u.shape = t.shape := by
  constructor
  · rintro ⟨s, hs⟩ u hu
    rw [hs u (by simp [hu]), hs t (by simp)]
  · intro h
    exact ⟨t.shape, List.forall_mem_cons.mpr ⟨rfl, h⟩⟩

theorem Tensor.shape_of_zip? {f : α → α → α} {a b t : Tensor α} (h : zip? f a b = some t) :
    b.shape = a.shape ∧ t.shape = a.shape := by
  unfold zip? at h
  split at h
  · next hs =>
    cases h
    exact ⟨hs.symm, rfl⟩
  · cases h

theorem Tensor.shape_of_foldlM_zip? {f : α → α → α} {v t : Tensor α} {rest : List (Tensor α)}
    (h : rest.foldlM (zip? f) v = some t) :
    (∀ u ∈ rest, u.shape = v.shape) ∧ t.shape = v.shape := by
  induction rest generalizing v with
  | nil =>
    cases h
    exact ⟨by simp, rfl⟩
  | cons u rest ih =>
    obtain ⟨w, hw, hrest⟩ := Option.bind_eq_some_iff.mp h
    obtain ⟨hu, hwv⟩ := shape_of_zip? hw
    obtain ⟨hus, ht⟩ := ih hrest
    rw [hwv] at hus ht
    exact ⟨List.forall_mem_cons.mpr ⟨hu, hus⟩, ht⟩

theorem Tensor.exists_foldlM_zip? (f : α → α → α) {v : Tensor α} {rest : List (Tensor α)}
    (h : ∀ u ∈ rest, u.shape = v.shape) : ∃ t, rest.foldlM (zip? f) v = some t := by
  induction rest generalizing v with
  | nil => exact ⟨v, rfl⟩
  | cons u rest ih =>
    obtain ⟨hu, hrest⟩ := List.forall_mem_cons.mp h
    have hzip : ∃ w, zip? f v u = some w ∧ w.shape = v.shape := ⟨_, dif_pos hu.symm, rfl⟩
    obtain ⟨w, hw, hwv⟩ := hzip
    obtain ⟨t, ht⟩ := ih fun x hx => (hrest x hx).trans hwv.symm
    refine ⟨t, ?_⟩
    rw [List.foldlM_cons, hw]
    exact ht

/-- How many coordinates the center of vertices has. Without vertices it is a single number. -/
def centerSize : List (Tensor α) → Nat
  | [] => 1
  | v :: _ => v.size

namespace Entity

variable [Scalar α]

theorem exists_total?_iff {v : Tensor α} {rest : List (Tensor α)} :
    (∃ t, total? v rest = some t) ↔ ∀ u ∈ rest, u.shape = v.shape := by
  unfold total?
  split
  · next h => exact ⟨fun _ => h.2, fun _ => ⟨_, rfl⟩⟩
  · exact ⟨fun ⟨t, ht⟩ => (Tensor.shape_of_foldlM_zip? ht).1, Tensor.exists_foldlM_zip? _⟩

theorem shape_of_total? {v t : Tensor α} {rest : List (Tensor α)} (h : total? v rest = some t) :
    t.shape = v.shape := by
  unfold total? at h
  split at h
  · cases h
    rfl
  · exact (Tensor.shape_of_foldlM_zip? h).2

theorem exists_center {e : Entity α} (h : SameShape e.vertices) :
    ∃ t, e.center = .ok t ∧ t.size = centerSize e.vertices := by
  rw [center]
  cases hv : e.vertices with
  | nil => exact ⟨_, rfl, rfl⟩
  | cons v rest =>
    rw [hv, sameShape_cons] at h
    obtain ⟨t, ht⟩ := exists_total?_iff.mpr h
    have hs : t.shape = v.shape := shape_of_total? ht
    refine ⟨t.map (· / ((v :: rest).length : α)), ?_, Tensor.size_eq_of_shape (t := t.map _) hs⟩
    simp only [ht, Fault.fitted, ok_bind]
    rfl

theorem center_of_uneven {e : Entity α} (h : ¬ SameShape e.vertices) :
    e.center = .error .badValue := by
  rw [center]
  cases hv : e.vertices with
  | nil => exact absurd ⟨[], by simp [hv]⟩ h
  | cons v rest =>
    rw [hv, sameShape_cons, ← exists_total?_iff, not_exists] at h
    simp only [Option.eq_none_iff_forall_ne_some.mpr h]
    rfl

end Entity

end Centers

section Rows

variable [Scalar α] {rows : List (List α)} {ws : List α}

/-- Rows of one length are points, and with weights that partition one they make a quadrature. -/
theorem Quadrature.exists_weighing (hne : rows ≠ []) {d : Nat} (hd : ∀ row ∈ rows, row.length = d)
    (hl : ws.length = rows.length)
    (hp : Quadrature.checkWeights ws Quadrature.weightSumTolerance = .ok ()) :
    ∃ points : List (Vector α d), rows = points.map Vector.toList ∧
      ∃ h : Quadrature.Weighing points ws, Quadrature.ofRows rows ws = .ok h.quadrature := by
  obtain ⟨points, hpoints⟩ : ∃ points : List (Vector α d), rows = points.map Vector.toList := by
    refine ⟨rows.pmap (fun row h => ⟨row.toArray, h⟩) hd, ?_⟩
    simp [List.map_pmap]
  subst hpoints
  have h : Quadrature.Weighing points ws :=
    ⟨mt List.map_eq_nil_iff.mpr hne, by simpa using hl, hp⟩
  exact ⟨points, rfl, h, h.ofRows_eq⟩

theorem Quadrature.ofRows_of_uneven (h : ¬ ∃ d, ∀ row ∈ rows, row.length = d) :
    Quadrature.ofRows rows ws = .error .badValue := by
  have hstack : stackRows? rows = none := by
    cases rows with
    | nil => exact absurd ⟨0, by simp⟩ h
    | cons row rest =>
      rw [stackRows?, List.map_cons, Tensor.stack?]
      refine dif_neg fun hs => h ⟨row.length, fun r hr => ?_⟩
      replace hs : ∀ u ∈ (row :: rest).map Tensor.ofList, u.shape = (Tensor.ofList row).shape := hs
      simpa [Tensor.ofList] using hs _ (List.mem_map_of_mem hr)
  rw [ofRows, hstack]
  rfl

end Rows

inductive Request where
  | corner (i : Nat)
  | side (side : Side) (i : Nat)

namespace Cell

def sideCount : Nat → Side → Nat
  | 2, .line => 4
  | 3, .line => 12
  | 3, .face => 6
  | _, _ => 0

def sampleCount : Nat → Nat
  | 1 => 2
  | 2 => 8
  | _ => 26

def cornerRequests (dim : Nat) : List Request := (List.range (vertexCount dim)).map .corner

def sideRequests (dim : Nat) (side : Side) : List Request :=
  (List.range (sideCount dim side)).map (.side side)

/-- The requests for the samples of a cell, in their order. -/
def requests (dim : Nat) : List Request :=
  cornerRequests dim ++ sideRequests dim .line ++ sideRequests dim .face

variable {dim : Nat}

theorem dim_cases (hdim : dim ∈ supportedDims) : dim = 1 ∨ dim = 2 ∨ dim = 3 := by
  simpa [supportedDims] using hdim

theorem length_requests (hdim : dim ∈ supportedDims) :
    (requests dim).length = sampleCount dim := by
  revert dim
  decide

theorem length_sampleWeights [Scalar α] (hdim : dim ∈ supportedDims) (smooth : Bool) :
    (sampleWeights dim smooth : List α).length = sampleCount dim := by
  rcases dim_cases hdim with rfl | rfl | rfl <;> exact length_spread _ _ _ _

theorem sampleCount_pos (dim : Nat) : 0 < sampleCount dim := by
  unfold sampleCount
  split <;> decide

theorem corner_mem_requests {i : Nat} : .corner i ∈ requests dim ↔ i < vertexCount dim := by
  simp [requests, cornerRequests, sideRequests]

theorem side_mem_requests {side : Side} {i : Nat} :
    .side side i ∈ requests dim ↔ i < sideCount dim side := by
  cases side <;> simp [requests, cornerRequests, sideRequests]

end Cell

namespace Side

variable {side : Side} {l : Entity α} {f : Fault α}

/-- How a side fails to give a sample. One that has been refined has to give a vertex of its first
child, and any other its center. -/
inductive Refuses (side : Side) (l : Entity α) : Fault α → Prop
  | shortChild {c rest} (refined : l.children = c :: rest)
      (short : c.vertices.length < side.vertexCount) : Refuses side l .badIndex
  | unevenVertices (unrefined : l.children = []) (uneven : ¬ SameShape l.vertices) :
      Refuses side l .badValue

def size? (side : Side) (l : Entity α) : Option Nat :=
  match l.children with
  | [] => some (centerSize l.vertices)
  | c :: _ => c.vertices[side.middleCorner]?.map Tensor.size

theorem vertexCount_eq (side : Side) : side.vertexCount = side.middleCorner + 1 := by
  cases side <;> rfl

variable [Scalar α]

theorem sample_eq_error_iff : side.sample l = .error f ↔ side.Refuses l f := by
  cases hc : l.children with
  | nil =>
    rw [sample_of_children_eq_nil side hc]
    by_cases hv : SameShape l.vertices
    · obtain ⟨t, ht, -⟩ := Entity.exists_center hv
      rw [ht]
      refine ⟨fun h => (by cases h), fun h => ?_⟩
      cases h with
      | shortChild hc' => simp [hc] at hc'
      | unevenVertices _ uneven => exact absurd hv uneven
    · rw [Entity.center_of_uneven hv]
      constructor
      · intro h
        cases h
        exact .unevenVertices hc hv
      · intro h
        cases h with
        | shortChild hc' => simp [hc] at hc'
        | unevenVertices => rfl
  | cons c rest =>
    rw [sample_of_children_eq_cons side hc, Entity.vertex]
    by_cases hn : c.vertices.length ≤ side.middleCorner
    · rw [Entity.item_of_le hn]
      constructor
      · intro h
        cases h
        exact .shortChild hc (by rw [vertexCount_eq]; omega)
      · intro h
        cases h with
        | shortChild => rfl
        | unevenVertices hc' => simp [hc] at hc'
    · rw [Entity.item_of_lt (Nat.not_le.mp hn)]
      refine ⟨fun h => (by cases h), fun h => ?_⟩
      cases h with
      | shortChild hc' short =>
        obtain ⟨rfl, rfl⟩ := List.cons.inj (hc.symm.trans hc')
        rw [vertexCount_eq] at short
        omega
      | unevenVertices hc' => simp [hc] at hc'

theorem size?_of_sample {xs : List α} (h : side.sample l = .ok xs) :
    side.size? l = some xs.length := by
  rw [size?]
  cases hc : l.children with
  | nil =>
    rw [sample_of_children_eq_nil side hc] at h
    obtain ⟨t, ht, hx⟩ := bind_eq_ok_iff.mp h
    cases hx
    by_cases hv : SameShape l.vertices
    · obtain ⟨u, hu, hsize⟩ := Entity.exists_center hv
      cases hu.symm.trans ht
      exact congrArg some hsize.symm
    · rw [Entity.center_of_uneven hv] at ht
      cases ht
  | cons c rest =>
    rw [sample_of_children_eq_cons side hc, Entity.vertex] at h
    obtain ⟨t, ht, hx⟩ := bind_eq_ok_iff.mp h
    cases hx
    exact congrArg (Option.map Tensor.size) (Entity.item_eq_ok_iff.mp ht)

end Side

namespace Entity

variable {e : Entity α} {dim : Nat} {smooth : Bool} {r : Request} {f : Fault α}

inductive Refuses (e : Entity α) : Request → Fault α → Prop
  | noCorner {i} (missing : e.vertices.length ≤ i) : Refuses e (.corner i) .badIndex
  | noSide {side i} (missing : (e.parts side.part).length ≤ i) :
      Refuses e (.side side i) .badIndex
  | badSide {side i l f} (part : (e.parts side.part)[i]? = some l) (refuses : side.Refuses l f) :
      Refuses e (.side side i) f

theorem Refuses.cases_fault {r : Request} (h : e.Refuses r f) : f = .badIndex ∨ f = .badValue := by
  cases h with
  | noCorner | noSide => exact .inl rfl
  | badSide _ refuses =>
    cases refuses with
    | shortChild => exact .inl rfl
    | unevenVertices => exact .inr rfl

def size? (e : Entity α) : Request → Option Nat
  | .corner i => e.vertices[i]?.map Tensor.size
  | .side side i => (e.parts side.part)[i]?.bind side.size?

def Even (e : Entity α) (dim : Nat) : Prop :=
  ∃ d, ∀ r ∈ Cell.requests dim, ∀ n ∈ e.size? r, n = d

section Answers

variable [Scalar α]

def answer (e : Entity α) : Request → Except (Fault α) (List α)
  | .corner i => e.corner i
  | .side side i => item (e.parts side.part) i >>= side.sample

theorem answer_eq_error_iff : e.answer r = .error f ↔ e.Refuses r f := by
  cases r with
  | corner i =>
    rw [answer, corner, vertex]
    by_cases hi : e.vertices.length ≤ i
    · rw [item_of_le hi]
      constructor
      · intro h
        cases h
        exact .noCorner hi
      · intro h
        cases h
        rfl
    · rw [item_of_lt (Nat.not_le.mp hi)]
      refine ⟨fun h => (by cases h), fun h => ?_⟩
      cases h with
      | noCorner missing => exact absurd missing hi
  | side side i =>
    rw [answer]
    by_cases hi : (e.parts side.part).length ≤ i
    · rw [item_of_le hi]
      constructor
      · intro h
        cases h
        exact .noSide hi
      · intro h
        cases h with
        | noSide => rfl
        | badSide part => simp [List.getElem?_eq_none hi] at part
    · have hl := List.getElem?_eq_getElem (Nat.not_le.mp hi)
      rw [item_of_lt (Nat.not_le.mp hi), ok_bind, Side.sample_eq_error_iff]
      refine ⟨.badSide hl, fun h => ?_⟩
      cases h with
      | noSide missing => exact absurd missing hi
      | badSide part refuses =>
        cases hl.symm.trans part
        exact refuses

theorem size?_of_answer {xs : List α} (h : e.answer r = .ok xs) : e.size? r = some xs.length := by
  cases r with
  | corner i =>
    obtain ⟨t, ht, hx⟩ := bind_eq_ok_iff.mp h
    cases hx
    rw [size?, item_eq_ok_iff.mp ht]
    rfl
  | side side i =>
    obtain ⟨l, hl, hx⟩ := bind_eq_ok_iff.mp h
    rw [size?, item_eq_ok_iff.mp hl]
    exact Side.size?_of_sample hx

/-- The default quadrature stacks the answers to all requests. -/
theorem defaultQuadrature_eq (hdim : dim ∈ Cell.supportedDims) :
    e.defaultQuadrature dim smooth = (Cell.requests dim).mapM e.answer >>= fun rows =>
      Quadrature.ofRows rows (Cell.sampleWeights dim smooth) := by
  have hcorners (n : Nat) : ((List.range n).map Request.corner).mapM e.answer =
      e.samples.corners n := List.mapM_map
  have hlines (n : Nat) : ((List.range n).map (Request.side .line)).mapM e.answer =
      e.samples.lines n := List.mapM_map
  have hfaces (n : Nat) : ((List.range n).map (Request.side .face)).mapM e.answer =
      e.samples.faces n := List.mapM_map
  rw [Cell.requests, Cell.cornerRequests, Cell.sideRequests, Cell.sideRequests, List.mapM_append,
    List.mapM_append, hcorners, hlines, hfaces]
  rcases Cell.dim_cases hdim with rfl | rfl | rfl
  · have hl : e.samples.lines (Cell.sideCount 1 .line) = .ok [] := rfl
    have hf : e.samples.faces (Cell.sideCount 1 .face) = .ok [] := rfl
    simp only [hl, hf, ok_bind, bind_assoc, pure_bind, List.append_nil]
    rfl
  · have hf : e.samples.faces (Cell.sideCount 2 .face) = .ok [] := rfl
    simp only [hf, ok_bind, bind_assoc, pure_bind, List.append_nil]
    cases smooth <;> rfl
  · simp only [bind_assoc, pure_bind]
    rfl

end Answers

end Entity

end VertexPlacement
