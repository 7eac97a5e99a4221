import VertexPlacement.Proofs.Sides

namespace VertexPlacement.FlatSpace

variable (m : FlatSpace ℚ)

/-- An entity of some dimension with all the parts that a cell of this dimension has, made of points
of the box. It is not refined. -/
inductive Formed : Nat → Entity ℚ → Prop
  | line {vertices} (inside : ∀ t ∈ vertices, m.Inside t) (count : 2 ≤ vertices.length) :
      Formed 1 ⟨vertices, [], [], []⟩
  | quad {vertices lines} (inside : ∀ t ∈ vertices, m.Inside t) (count : 4 ≤ vertices.length)
      (line_count : 4 ≤ lines.length) (formed : ∀ e ∈ lines, Formed 1 e) :
      Formed 2 ⟨vertices, lines, [], []⟩
  | hex {vertices lines faces} (inside : ∀ t ∈ vertices, m.Inside t) (count : 8 ≤ vertices.length)
      (line_count : 12 ≤ lines.length) (face_count : 6 ≤ faces.length)
      (formed : ∀ e ∈ lines, Formed 1 e) (formed' : ∀ e ∈ faces, Formed 2 e) :
      Formed 3 ⟨vertices, lines, faces, []⟩

variable {m} {vs : List (Tensor ℚ)} {a b : Tensor ℚ} {e : Entity ℚ}

theorem inside_of_item (h : ∀ t ∈ vs, m.Inside t) {i : Nat}
    (hi : (Entity.item vs i : Except (Fault ℚ) _) = .ok a) : i < vs.length ∧ m.Inside a := by
  obtain ⟨hlt, rfl⟩ := List.getElem?_eq_some_iff.mp (Entity.item_eq_ok_iff.mp hi)
  exact ⟨hlt, h _ (List.getElem_mem hlt)⟩

theorem ofLine_formed (ha : m.Inside a) (hb : m.Inside b) : m.Formed 1 (.ofLine a b) :=
  .line (by simp [ha, hb]) le_rfl

theorem linesAlong_formed (h : ∀ t ∈ vs, m.Inside t) {ends : List (Nat × Nat)}
    {ls : List (Entity ℚ)} (hls : Entity.linesAlong ends vs = .ok ls) :
    (∀ p ∈ ends, p.2 < vs.length) ∧ (∀ l ∈ ls, m.Formed 1 l) ∧ ls.length = ends.length := by
  refine of_mapM_eq_ok hls fun p _ l hl => ?_
  obtain ⟨a, ha, hl⟩ := bind_eq_ok_iff.mp hl
  obtain ⟨b, hb, hl⟩ := bind_eq_ok_iff.mp hl
  cases hl
  obtain ⟨hlt, hb⟩ := inside_of_item h hb
  exact ⟨hlt, ofLine_formed (inside_of_item h ha).2 hb⟩

theorem ofQuad_formed (h : ∀ t ∈ vs, m.Inside t) (he : Entity.ofQuad vs = .ok e) :
    m.Formed 2 e := by
  obtain ⟨ls, hls, he⟩ := bind_eq_ok_iff.mp he
  cases he
  obtain ⟨hends, hlines, hlen⟩ := linesAlong_formed h hls
  exact .quad h (hends (2, 3) (by decide)) hlen.ge hlines

theorem ofHex_formed (h : ∀ t ∈ vs, m.Inside t) (he : Entity.ofHex vs = .ok e) :
    m.Formed 3 e := by
  obtain ⟨ls, hls, he⟩ := bind_eq_ok_iff.mp he
  obtain ⟨fs, hfs, he⟩ := bind_eq_ok_iff.mp he
  cases he
  obtain ⟨hends, hlines, hlen⟩ := linesAlong_formed h hls
  have hfaces := of_mapM_eq_ok (P := fun _ => True) (Q := m.Formed 2) hfs fun corners _ f hf => by
    obtain ⟨us, hus, hf⟩ := bind_eq_ok_iff.mp hf
    have hin := of_mapM_eq_ok (P := fun _ => True) hus fun i _ t ht =>
      ⟨trivial, (inside_of_item h ht).2⟩
    exact ⟨trivial, ofQuad_formed hin.2.1 hf⟩
  exact .hex h (hends (3, 7) (by decide)) hlen.ge hfaces.2.2.ge hlines hfaces.2.1

section Refinement

theorem middle_inside (hne : e.vertices ≠ []) (h : ∀ t ∈ e.vertices, m.Inside t)
    {mid : Option (Tensor ℚ)} (hmid : ∀ t ∈ mid, m.Inside t) :
    ∃ c, e.middle mid = .ok c ∧ m.Inside c := by
  cases mid with
  | none => exact center_inside hne h
  | some c => exact ⟨c, rfl, hmid c rfl⟩

theorem exists_vertex (h : ∀ t ∈ e.vertices, m.Inside t) {i : Nat} (hi : i < e.vertices.length) :
    ∃ t, e.vertex i = .ok t ∧ m.Inside t :=
  ⟨_, Entity.item_of_lt hi, h _ (List.getElem_mem hi)⟩

theorem refineLine_formed (hn : 2 ≤ e.vertices.length) (h : ∀ t ∈ e.vertices, m.Inside t)
    {mid : Option (Tensor ℚ)} (hmid : ∀ t ∈ mid, m.Inside t) :
    ∃ e', e.refineLine mid = .ok e' ∧ ∀ x ∈ e'.children, m.Formed 1 x := by
  have hne : e.vertices ≠ [] := List.ne_nil_of_length_pos (by omega)
  obtain ⟨c, hc, hcin⟩ := middle_inside hne h hmid
  obtain ⟨a, ha, h0⟩ := exists_vertex h (show 0 < e.vertices.length by omega)
  obtain ⟨b, hb, h1⟩ := exists_vertex h hn
  refine ⟨_, Entity.refineLine_eq ha hb hc, fun x hx => ?_⟩
  rcases List.mem_cons.mp hx with rfl | hx
  · exact ofLine_formed h0 hcin
  · rw [List.mem_singleton.mp hx]
    exact ofLine_formed hcin h1

theorem refineFace_formed (hn : 4 ≤ e.vertices.length) (h : ∀ t ∈ e.vertices, m.Inside t)
    {mid : Option (Tensor ℚ)} (hmid : ∀ t ∈ mid, m.Inside t) :
    ∃ e', e.refineFace mid = .ok e' ∧ ∀ x ∈ e'.children, m.Formed 2 x := by
  have hne : e.vertices ≠ [] := List.ne_nil_of_length_pos (by omega)
  obtain ⟨c, hc, hcin⟩ := middle_inside hne h hmid
  obtain ⟨v0, hv0, h0⟩ := exists_vertex h (show 0 < e.vertices.length by omega)
  obtain ⟨v1, hv1, h1⟩ := exists_vertex h (show 1 < e.vertices.length by omega)
  obtain ⟨v2, hv2, h2⟩ := exists_vertex h (show 2 < e.vertices.length by omega)
  obtain ⟨v3, hv3, h3⟩ := exists_vertex h hn
  obtain ⟨left, hleft, hl⟩ := halfway_inside h0 h1
  obtain ⟨down, hdown, hd⟩ := halfway_inside h0 h2
  obtain ⟨up, hup, hu⟩ := halfway_inside h1 h3
  obtain ⟨right, hright, hr⟩ := halfway_inside h2 h3
  obtain ⟨c0, c1, c2, c3, hc0, hc1, hc2, hc3, hrefined⟩ :=
    Entity.refineFace_eq hv0 hv1 hv2 hv3 hc hleft hdown hup hright
  have hf0 : m.Formed 2 c0 := ofQuad_formed (by simp [h0, hl, hd, hcin]) hc0
  have hf1 : m.Formed 2 c1 := ofQuad_formed (by simp [hl, h1, hcin, hu]) hc1
  have hf2 : m.Formed 2 c2 := ofQuad_formed (by simp [hd, hcin, h2, hr]) hc2
  have hf3 : m.Formed 2 c3 := ofQuad_formed (by simp [hcin, hu, hr, h3]) hc3
  exact ⟨_, hrefined, by simp [hf0, hf1, hf2, hf3]⟩

end Refinement

end VertexPlacement.FlatSpace
