import VertexPlacement.Proofs.Samples
import VertexPlacement.Proofs.Sides
import VertexPlacement.Manifold

namespace VertexPlacement

variable {α : Type} {d : Nat}

/-- A refinement of one side of a cell, at a vertex if one is given. -/
structure Split (α : Type) (d : Nat) where
  side : Side
  index : Nat
  middle : Option (Vector α d)

def lastMiddle (history : List (Split α d)) (side : Side) (index : Nat) : Option (Vector α d) :=
  (history.filter fun s => s.side = side ∧ s.index = index).getLast?.bind Split.middle

theorem lastMiddle_concat (history : List (Split α d)) (s : Split α d) (side : Side) (index : Nat) :
    lastMiddle (history ++ [s]) side index =
      if s.side = side ∧ s.index = index then s.middle else lastMiddle history side index := by
  by_cases h : s.side = side ∧ s.index = index
  · simp [lastMiddle, h]
  · simp [lastMiddle, h]

theorem lastMiddle_eq_none {history : List (Split α d)} (h : ∀ s ∈ history, s.middle = none)
    (side : Side) (index : Nat) : lastMiddle history side index = none := by
  rw [lastMiddle, Option.bind_eq_none_iff]
  intro s hs
  exact h s (List.mem_filter.mp (List.mem_of_getLast? hs)).1

namespace Entity

variable {vs : List (Vector α d)} {dim : Nat} {e e' l l' : Entity α} {history : List (Split α d)}

section Parts

theorem modifyAt_part {f : Entity α → Except (Fault α) (Entity α)} {p : Part} {i : Nat}
    (hl : (e.parts p)[i]? = some l) (hf : f l = .ok l') :
    modifyAt f [⟨p, i⟩] e = .ok (e.withParts ((e.parts p).set i l') p) := by
  have hplace : Tensor.place? (e.parts p).length (i : Int) = some i := by
    have hi : i < (e.parts p).length := (List.getElem?_eq_some_iff.mp hl).1
    have hsign : ¬ (i : Int) < 0 := by omega
    have hrange : (0 : Int) ≤ i ∧ (i : Int) < (e.parts p).length := by omega
    rw [Tensor.place?, if_neg hsign, if_pos hrange]
    rfl
  simp only [modifyAt, hplace, item_eq_ok_iff.mpr hl, ok_bind, hf]
  rfl

theorem vertices_withParts (e : Entity α) (items : List (Entity α)) (p : Part) :
    (e.withParts items p).vertices = e.vertices := by
  cases p <;> rfl

theorem parts_withParts_self (e : Entity α) (items : List (Entity α)) (p : Part) :
    (e.withParts items p).parts p = items := by
  cases p <;> rfl

theorem parts_withParts_of_ne (e : Entity α) (items : List (Entity α)) {side side' : Side}
    (h : side' ≠ side) : (e.withParts items side'.part).parts side.part = e.parts side.part := by
  cases side <;> cases side' <;> first | rfl | exact absurd rfl h

theorem length_parts_set (e x : Entity α) (side side' : Side) (j : Nat) :
    ((e.withParts ((e.parts side'.part).set j x) side'.part).parts side.part).length =
      (e.parts side.part).length := by
  by_cases hside : side' = side
  · subst hside
    rw [parts_withParts_self, List.length_set]
  · rw [parts_withParts_of_ne _ _ hside]

theorem getElem?_parts_set (e x : Entity α) (side side' : Side) {j : Nat}
    (hj : j < (e.parts side'.part).length) (i : Nat) :
    ((e.withParts ((e.parts side'.part).set j x) side'.part).parts side.part)[i]? =
      if side' = side ∧ j = i then some x else (e.parts side.part)[i]? := by
  by_cases hside : side' = side
  · subst hside
    rw [parts_withParts_self]
    by_cases hi : j = i
    · subst hi
      rw [List.getElem?_set_self hj, if_pos ⟨rfl, rfl⟩]
    · rw [List.getElem?_set_ne hi, if_neg fun h => hi h.2]
  · rw [parts_withParts_of_ne _ _ hside, if_neg fun h => hside h.1]

end Parts

variable [Scalar α]

def refineSide (e : Entity α) (s : Split α d) : Except (Fault α) (Entity α) :=
  modifyAt (s.side.refine · (s.middle.map .ofVector)) [⟨s.side.part, s.index⟩] e

def refineSides (e : Entity α) (history : List (Split α d)) : Except (Fault α) (Entity α) :=
  history.foldlM refineSide e

/-- The vertex that a side gives to its cell after a history: the one at which it was last refined,
or else its center. -/
def sampleAfter (e : Entity α) (history : List (Split α d)) (side : Side) (index : Nat) :
    Except (Fault α) (Tensor α) := do
  (← item (e.parts side.part) index).middle ((lastMiddle history side index).map .ofVector)

/-- How a cell is seen after a history: its vertices, and those of its sides, are what they were,
and its sides give what they were last refined at. -/
structure Follows (e : Entity α) (history : List (Split α d)) (e' : Entity α) : Prop where
  vertices_eq : e'.vertices = e.vertices
  length_eq : ∀ side : Side, (e'.parts side.part).length = (e.parts side.part).length
  side_eq : ∀ (side : Side) (i : Nat) (l l' : Entity α), (e.parts side.part)[i]? = some l →
    (e'.parts side.part)[i]? = some l' → l'.vertices = l.vertices ∧
      side.sample l' =
        l.middle ((lastMiddle history side i).map .ofVector) >>= (.ok ·.entries)

theorem Built.follows_nil (he : Built vs dim e) : Follows e ([] : List (Split α d)) e := by
  refine ⟨rfl, fun _ => rfl, fun side i l l' hl hl' => ?_⟩
  obtain rfl : l = l' := Option.some.inj (hl.symm.trans hl')
  obtain ⟨points, -, hfresh⟩ := he.exists_fresh hl
  exact ⟨rfl, side.sample_of_children_eq_nil hfresh.children_eq⟩

/-- One refinement changes what one side gives, and nothing else. -/
theorem Follows.refineSide (h : Follows e history e') (he : Built vs dim e) (s : Split α d)
    (hs : s.index < (e.parts s.side.part).length) :
    ∃ e'', e'.refineSide s = .ok e'' ∧ Follows e (history ++ [s]) e'' := by
  have hl : (e.parts s.side.part)[s.index]? = some (e.parts s.side.part)[s.index] :=
    List.getElem?_eq_getElem hs
  have hs' : s.index < (e'.parts s.side.part).length := by rwa [h.length_eq]
  have hl' : (e'.parts s.side.part)[s.index]? = some (e'.parts s.side.part)[s.index] :=
    List.getElem?_eq_getElem hs'
  obtain ⟨points, hlen, hfresh⟩ := he.exists_fresh hl
  obtain ⟨hvert, -⟩ := h.side_eq _ _ _ _ hl hl'
  obtain ⟨c, hc⟩ :=
    exists_middle_ofVector hfresh.vertices_eq (s.side.ne_nil_of_length hlen) s.middle
  obtain ⟨x, hr, hv, hsample⟩ := s.side.exists_refine (hvert.trans hfresh.vertices_eq) hlen
    ((middle_congr hvert _).trans hc)
  refine ⟨_, modifyAt_part hl' hr, (vertices_withParts _ _ _).trans h.vertices_eq,
    fun side => (length_parts_set _ _ _ _ _).trans (h.length_eq side), fun side i k k' hk hk' => ?_⟩
  rw [getElem?_parts_set _ _ _ _ hs'] at hk'
  rw [lastMiddle_concat]
  by_cases hat : s.side = side ∧ s.index = i
  · rw [if_pos hat] at hk' ⊢
    obtain ⟨rfl, rfl⟩ := hat
    obtain rfl : _ = k := Option.some.inj (hl.symm.trans hk)
    obtain rfl : x = k' := Option.some.inj hk'
    rw [hc]
    exact ⟨hv.trans hvert, hsample⟩
  · rw [if_neg hat] at hk' ⊢
    exact h.side_eq side i k k' hk hk'

theorem Follows.refineSides (h : Follows e history e') (he : Built vs dim e)
    {rest : List (Split α d)} (hrest : ∀ s ∈ rest, s.index < (Cell.sides dim s.side).length) :
    ∃ e'', e'.refineSides rest = .ok e'' ∧ Follows e (history ++ rest) e'' := by
  induction rest generalizing history e' with
  | nil => exact ⟨e', rfl, by rwa [List.append_nil]⟩
  | cons s rest ih =>
    have hs := hrest s (by simp)
    rw [(he.fresh s.side).length_eq] at hs
    obtain ⟨x, hx, hfollows⟩ := h.refineSide he s hs
    obtain ⟨y, hy, hfollows'⟩ := ih hfollows fun t ht => hrest t (by simp [ht])
    refine ⟨y, ?_, by rwa [List.append_assoc] at hfollows'⟩
    rw [Entity.refineSides, List.foldlM_cons, hx]
    exact hy

theorem Follows.item_sample (h : Follows e history e') (side : Side) (i : Nat) :
    (item (e'.parts side.part) i >>= side.sample) =
      e.sampleAfter history side i >>= (.ok ·.entries) := by
  rw [sampleAfter, bind_assoc]
  exact item_bind_congr (h.length_eq side).symm fun l' l hl' hl => (h.side_eq side i l l' hl hl').2

/-- A side that is refined at no vertex of its own goes on giving its center. -/
theorem Follows.samples_eq (h : Follows e history e') (he : Built vs dim e)
    (hnone : ∀ s ∈ history, s.middle = none) : e'.samples = e.samples := by
  have hcorner : e'.corner = e.corner := by
    funext i
    rw [corner, corner, vertex, vertex, h.vertices_eq]
  have hitem (side : Side) (i : Nat) : (item (e'.parts side.part) i >>= side.sample) =
      item (e.parts side.part) i >>= side.sample := by
    have hlast : lastMiddle history side i = lastMiddle ([] : List (Split α d)) side i :=
      lastMiddle_eq_none hnone side i
    rw [h.item_sample, (he.follows_nil (d := d)).item_sample, sampleAfter, sampleAfter, hlast]
  exact (CellSamples.mk.injEq ..).mpr ⟨hcorner, funext (hitem .line), funext (hitem .face)⟩

theorem Built.exists_sampleAfter (he : Built vs dim e) (history : List (Split α d)) (side : Side)
    {i : Nat} (hi : i < (Cell.sides dim side).length) :
    ∃ p : Vector α d, e.sampleAfter history side i = .ok (.ofVector p) := by
  rw [(he.fresh side).length_eq] at hi
  obtain ⟨points, hlen, hfresh⟩ := he.exists_fresh (List.getElem?_eq_getElem hi)
  rw [sampleAfter, item_of_lt hi]
  exact exists_middle_ofVector hfresh.vertices_eq (side.ne_nil_of_length hlen) _

theorem Follows.exists_samples (h : Follows e history e') (he : Built vs dim e) (side : Side) :
    ∃ points : List (Vector α d),
      (e'.parts side.part).mapM side.sample = .ok (points.map Vector.toList) ∧
      List.Forall₂ (fun i p => e.sampleAfter history side i = .ok (.ofVector p))
        (List.range (Cell.sides dim side).length) points := by
  rw [← mapM_range_item, h.length_eq, ← (he.fresh side).length_eq]
  refine exists_mapM_forall₂ fun i hi => ?_
  obtain ⟨p, hp⟩ := he.exists_sampleAfter history side (List.mem_range.mp hi)
  exact ⟨p, by rw [h.item_sample, hp]; rfl, hp⟩

theorem Follows.side_vertices (h : Follows e history e') (he : Built vs dim e) (side : Side) :
    List.Forall₂ (fun corners l => l.vertices = (Cell.pick vs corners).map .ofVector)
      (Cell.sides dim side) (e'.parts side.part) := by
  have hfresh := he.fresh side
  have hlen := hfresh.length_eq.trans (h.length_eq side).symm
  refine List.forall₂_iff_get.mpr ⟨hlen, fun i hi hi' => ?_⟩
  have hi₀ : i < (e.parts side.part).length := by rwa [← hfresh.length_eq]
  obtain ⟨hv, -⟩ :=
    h.side_eq side i _ _ (List.getElem?_eq_getElem hi₀) (List.getElem?_eq_getElem hi')
  exact hv.trans (hfresh.get hi hi₀).vertices_eq

theorem corners_ofVector (hv : e.vertices = vs.map .ofVector) :
    e.samples.corners vs.length = .ok (vs.map Vector.toList) := by
  have hlen : e.vertices.length = vs.length := by rw [hv, List.length_map]
  have hrows : e.vertices.mapM (fun t => (.ok t.entries : Except (Fault α) _)) =
      .ok (vs.map Vector.toList) := by
    rw [hv, List.mapM_map]
    exact List.mapM_pure
  rw [← hlen, ← hrows]
  exact mapM_range_item _ _

theorem Follows.length_of_samples (h : Follows e history e') (he : Built vs dim e)
    {points : Side → List (Vector α d)} (hpoints : ∀ side : Side,
      (e'.parts side.part).mapM side.sample = .ok ((points side).map Vector.toList))
    (side : Side) : (points side).length = (Cell.sides dim side).length := by
  rw [(he.fresh side).length_eq, ← h.length_eq, ← Quadrature.length_of_mapM_ok (hpoints side),
    List.length_map]

theorem Follows.exists_weighing (hb : Cell.Balanced α) (h : Follows e history e')
    (he : Built vs dim e) {points : Side → List (Vector α d)}
    (hpoints : ∀ side : Side,
      (e'.parts side.part).mapM side.sample = .ok ((points side).map Vector.toList))
    (smooth : Bool) :
    ∃ hw : Quadrature.Weighing (vs ++ points .line ++ points .face) (Cell.sampleWeights dim smooth),
      e'.defaultQuadrature dim smooth = .ok hw.quadrature := by
  have hcorners := corners_ofVector (h.vertices_eq.trans he.vertices_eq)
  have hlen := h.length_of_samples he hpoints
  have hlines := (mapM_range_item _ _).trans (hpoints .line)
  have hfaces := (mapM_range_item _ _).trans (hpoints .face)
  rw [h.length_eq, ← (he.fresh _).length_eq] at hlines hfaces
  cases he with
  | quad hcount _ =>
    have hnil : points .face = [] := List.length_eq_zero_iff.mp (hlen .face)
    rw [hcount] at hcorners
    rw [hnil, List.append_nil]
    exact CellSamples.quadrature_quad hb hcorners hcount hlines (hlen .line) smooth
  | hex hcount _ =>
    rw [hcount] at hcorners
    exact CellSamples.quadrature_hex hb hcorners hcount hlines (hlen .line) hfaces (hlen .face)
      smooth

/-- Whatever sides of a cell were refined, in any order and however often, its quadrature has the
vertices and then, for each side, the vertex at which the side was last refined or else its center,
with weights that the history does not change. Without vertices of their own the refinements are
not seen by the cell at all. -/
theorem defaultQuadrature_refineSides (hb : Cell.Balanced α) (he : Built vs dim e)
    (hhistory : ∀ s ∈ history, s.index < (Cell.sides dim s.side).length) :
    ∃ e', e.refineSides history = .ok e' ∧
      (∃ points : Side → List (Vector α d),
        (∀ side, List.Forall₂ (fun i p => e.sampleAfter history side i = .ok (.ofVector p))
          (List.range (Cell.sides dim side).length) (points side)) ∧
        ∀ smooth, ∃ h : Quadrature.Weighing (vs ++ points .line ++ points .face)
            (Cell.sampleWeights dim smooth),
          e'.defaultQuadrature dim smooth = .ok h.quadrature) ∧
      ((∀ s ∈ history, s.middle = none) →
        (∀ smooth, e'.defaultQuadrature dim smooth = e.defaultQuadrature dim smooth) ∧
        ∀ m : Manifold α, m.newPointOn .cell e' = m.newPointOn .cell e) := by
  obtain ⟨e', hrun, hfollows⟩ := he.follows_nil.refineSides he hhistory
  rw [List.nil_append] at hfollows
  choose points hpoints hsamples using fun side => hfollows.exists_samples he side
  refine ⟨e', hrun, ⟨points, hsamples, hfollows.exists_weighing hb he hpoints⟩, fun hnone => ?_⟩
  have hsamples := hfollows.samples_eq he hnone
  refine ⟨fun smooth => ?_, fun m => ?_⟩
  · rw [defaultQuadrature, defaultQuadrature, hsamples]
  · rw [Manifold.newPointOn, Manifold.newPointOn, hsamples]

def unitCube : List (Vector Float 3) :=
  [#v[0, 0, 0], #v[1, 0, 0], #v[0, 1, 0], #v[1, 1, 0],
    #v[0, 0, 1], #v[1, 0, 1], #v[0, 1, 1], #v[1, 1, 1]]

def unitCubeHistory : List (Split Float 3) :=
  [⟨.line, 7, some #v[0.5, 1, 1.5]⟩, ⟨.face, 5, some #v[0.5, 0.5, 1.25]⟩,
    ⟨.line, 7, some #v[0.5, 1, 1.125]⟩, ⟨.face, 5, none⟩]

theorem defaultQuadrature_refineSides_unitCube :
    ∃ e e' : Entity Float, Built unitCube 3 e ∧ e.refineSides unitCubeHistory = .ok e' ∧
      e.sampleAfter unitCubeHistory .line 7 = .ok (.ofVector #v[0.5, 1, 1.125]) ∧
      ∃ points : Side → List (Vector Float 3),
        (∀ side, List.Forall₂ (fun i p => e.sampleAfter unitCubeHistory side i = .ok (.ofVector p))
          (List.range (Cell.sides 3 side).length) (points side)) ∧
        ∃ h : Quadrature.Weighing (unitCube ++ points .line ++ points .face)
            (Cell.sampleWeights 3 false),
          e'.defaultQuadrature 3 false = .ok h.quadrature := by
  have he : Built unitCube 3 _ := .hex rfl rfl
  obtain ⟨e', hrun, ⟨points, hpoints, hquadrature⟩, -⟩ :=
    defaultQuadrature_refineSides Cell.balanced_float he
      (show ∀ s ∈ unitCubeHistory, _ by decide)
  exact ⟨_, e', he, hrun, rfl, points, hpoints, hquadrature false⟩

end Entity

end VertexPlacement
