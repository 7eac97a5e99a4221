import VertexPlacement.Proofs.Flat

namespace VertexPlacement

open Weighted

namespace Periodic

variable {L : ℚ} {hL : 0 < L} {start : ℚ} {offsets coords weights : List ℚ}

/-- Coordinates on an arc shorter than half a period, given by their distances from its start. -/
structure OnArc (hL : 0 < L) (start : ℚ) (offsets coords : List ℚ) : Prop where
  short : ∀ d ∈ offsets, d ∈ Set.Ico 0 (L / 2)
  coords_eq : coords = offsets.map fun d => toIcoMod hL 0 (start + d)

theorem toIcoMod_toIcoMod_add (hL : 0 < L) (x v : ℚ) :
    toIcoMod hL 0 (toIcoMod hL 0 x + v) = toIcoMod hL 0 (x + v) := by
  have hx : toIcoMod hL 0 x + v = x + v - toIcoDiv hL 0 x • L := by
    rw [toIcoMod]
    ring
  rw [hx, toIcoMod_sub_zsmul]

namespace OnArc

theorem mem_Ico (h : OnArc hL start offsets coords) : ∀ x ∈ coords, x ∈ Set.Ico 0 L := by
  intro x hx
  rw [h.coords_eq] at hx
  obtain ⟨d, -, rfl⟩ := List.mem_map.mp hx
  exact toIcoMod_mem_Ico' hL _

/-- Seen from any coordinate of the arc, the others lie at the differences of their distances from
the start, on whichever side of the seam they are. -/
theorem map_toIocMod (h : OnArc hL start offsets coords) {low : ℚ} (hlow : low ∈ coords) :
    ∃ z : ℤ, coords.map (toIocMod hL (low - L / 2)) = offsets.map (start - z • L + ·) := by
  rw [h.coords_eq] at hlow ⊢
  obtain ⟨e, he, rfl⟩ := List.mem_map.mp hlow
  refine ⟨toIcoDiv hL 0 (start + e), ?_⟩
  rw [List.map_map]
  refine List.map_congr_left fun d hd => ?_
  obtain ⟨hd0, hd1⟩ := h.short d hd
  obtain ⟨he0, he1⟩ := h.short e he
  rw [Function.comp_apply, toIocMod_toIcoMod, toIocMod_eq_iff]
  refine ⟨⟨?_, ?_⟩, toIcoDiv hL 0 (start + e), ?_⟩ <;>
    simp only [toIcoMod, zsmul_eq_mul] <;> linarith

theorem toIcoMod_combination (h : OnArc hL start offsets coords) {low : ℚ} (hlow : low ∈ coords)
    (hl : weights.length = coords.length) (hs : weights.sum = 1) :
    toIcoMod hL 0 (combination (anchored weights) (coords.map (toIocMod hL (low - L / 2)))) =
      toIcoMod hL 0 (start + combination weights offsets) := by
  obtain ⟨z, hz⟩ := h.map_toIocMod hlow
  have hlen : weights.length = offsets.length := by rw [hl, h.coords_eq, List.length_map]
  have hc : (start - z • L) * 1 + combination weights offsets =
      start + combination weights offsets - z • L := by ring
  rw [hz, anchored_of_sum_eq_one hs, combination_add_left _ hlen, hs, hc, toIcoMod_sub_zsmul]

theorem translate (h : OnArc hL start offsets coords) (v : ℚ) :
    OnArc hL (start + v) offsets (coords.map fun x => toIcoMod hL 0 (x + v)) := by
  refine ⟨h.short, ?_⟩
  rw [h.coords_eq, List.map_map]
  refine List.map_congr_left fun d _ => ?_
  rw [Function.comp_apply, toIcoMod_toIcoMod_add, add_right_comm]

end OnArc

end Periodic

namespace FlatSpace

open Periodic

variable (m : FlatSpace ℚ)

/-- A point moved by a vector, and back into the box along periodic axes. -/
noncomputable def translate (v p : Vector ℚ m.frame.spacedim) : Vector ℚ m.frame.spacedim :=
  Vector.ofFn fun k =>
    if hL : 0 < m.periods.get k then toIcoMod hL 0 (p.get k + v.get k) else p.get k + v.get k

variable {m} in
theorem get_translate_of_periodic {v p : Vector ℚ m.frame.spacedim} {k : Fin m.frame.spacedim}
    (hL : 0 < m.periods.get k) : (m.translate v p).get k = toIcoMod hL 0 (p.get k + v.get k) := by
  simp only [translate, Vector.get_ofFn]
  exact dif_pos hL

variable {m} in
theorem get_translate_of_not_periodic {v p : Vector ℚ m.frame.spacedim}
    {k : Fin m.frame.spacedim} (hL : ¬ 0 < m.periods.get k) :
    (m.translate v p).get k = p.get k + v.get k := by
  simp only [translate, Vector.get_ofFn]
  exact dif_neg hL

noncomputable def translateSamples (v : Vector ℚ m.frame.spacedim)
    (samples : List (Sample ℚ m.frame.spacedim)) : List (Sample ℚ m.frame.spacedim) :=
  samples.map fun s => ⟨m.translate v s.point, s.weight⟩

variable {m} {samples : List (Sample ℚ m.frame.spacedim)}

theorem translateSamples_ne_nil (v : Vector ℚ m.frame.spacedim) (hne : samples ≠ []) :
    m.translateSamples v samples ≠ [] := by
  simpa [translateSamples] using hne

theorem map_weight_translateSamples (v : Vector ℚ m.frame.spacedim) :
    (m.translateSamples v samples).map Sample.weight = samples.map Sample.weight := by
  rw [translateSamples, List.map_map]
  rfl

theorem coordinates_translateSamples (v : Vector ℚ m.frame.spacedim) (k : Fin m.frame.spacedim) :
    coordinates (m.translateSamples v samples) k = (coordinates samples k).map fun x =>
      if hL : 0 < m.periods.get k then toIcoMod hL 0 (x + v.get k) else x + v.get k := by
  rw [coordinates, coordinates, translateSamples, List.map_map, List.map_map]
  refine List.map_congr_left fun s _ => ?_
  simp [translate]

variable (m samples) in
def OnArcs : Prop :=
  ∀ (k : Fin m.frame.spacedim) (hL : 0 < m.periods.get k),
    ∃ start offsets, OnArc hL start offsets (coordinates samples k)

theorem OnArcs.inBox (h : m.OnArcs samples) : ∀ s ∈ samples, m.InBox s.point := by
  intro s hs k hL
  obtain ⟨start, offsets, harc⟩ := h k hL
  exact harc.mem_Ico _ (List.mem_map_of_mem hs)

theorem onArc_translateSamples {k : Fin m.frame.spacedim} {hL : 0 < m.periods.get k} {start : ℚ}
    {offsets : List ℚ} (h : OnArc hL start offsets (coordinates samples k))
    (v : Vector ℚ m.frame.spacedim) :
    OnArc hL (start + v.get k) offsets (coordinates (m.translateSamples v samples) k) := by
  simpa only [coordinates_translateSamples, dif_pos hL] using h.translate (v.get k)

theorem OnArcs.translate (h : m.OnArcs samples) (v : Vector ℚ m.frame.spacedim) :
    m.OnArcs (m.translateSamples v samples) := by
  intro k hL
  obtain ⟨start, offsets, harc⟩ := h k hL
  exact ⟨start + v.get k, offsets, onArc_translateSamples harc v⟩

theorem place_onArc (hne : samples ≠ []) (hw : ∀ w ∈ samples.map Sample.weight, 0 ≤ w)
    (hs : (samples.map Sample.weight).sum = 1) (h : m.OnArcs samples) {k : Fin m.frame.spacedim}
    {hL : 0 < m.periods.get k} {start : ℚ} {offsets : List ℚ}
    (harc : OnArc hL start offsets (coordinates samples k)) :
    (m.place samples).get k =
      toIcoMod hL 0 (start + combination (samples.map Sample.weight) offsets) := by
  have hleast := Periodic.isLeast_lowest (coordinates_ne_nil hne k)
  rw [place_of_inBox hne h.inBox hw (by simp [hs]) hL hleast]
  exact harc.toIcoMod_combination hleast.1 (by simp [coordinates]) hs

theorem place_translateSamples (hne : samples ≠ []) (hw : ∀ w ∈ samples.map Sample.weight, 0 ≤ w)
    (hs : (samples.map Sample.weight).sum = 1) (h : m.OnArcs samples)
    (v : Vector ℚ m.frame.spacedim) :
    m.place (m.translateSamples v samples) = m.translate v (m.place samples) := by
  have hne' := translateSamples_ne_nil v hne
  have hw' : ∀ w ∈ (m.translateSamples v samples).map Sample.weight, 0 ≤ w := by
    rwa [map_weight_translateSamples]
  have hs' : ((m.translateSamples v samples).map Sample.weight).sum = 1 := by
    rwa [map_weight_translateSamples]
  refine m.ext_axes (fun k hL => ?_) fun k hL => ?_
  · obtain ⟨start, offsets, harc⟩ := h k hL
    have harc' := onArc_translateSamples harc v
    rw [get_translate_of_periodic hL, place_onArc hne' hw' hs' (h.translate v) harc',
      place_onArc hne hw hs h harc, map_weight_translateSamples, toIcoMod_toIcoMod_add,
      add_right_comm]
  · have hc : coordinates (m.translateSamples v samples) k =
        (coordinates samples k).map (v.get k + ·) := by
      simp only [coordinates_translateSamples, dif_neg hL, add_comm]
    rw [get_translate_of_not_periodic hL, place_of_not_periodic hL (by simp [hs']),
      place_of_not_periodic hL (by simp [hs]), map_weight_translateSamples, hc,
      anchored_of_sum_eq_one hs, combination_add_left _ (by simp [coordinates]), hs, mul_one,
      add_comm]

variable (m) in
/-- Samples on arcs shorter than half a period are averaged along their arcs, and moving all of
them moves their average along, wherever they come to lie among the seams. -/
theorem newPoint_onArcs (samples : List (Sample ℚ m.frame.spacedim)) (hne : samples ≠ [])
    (hw : ∀ w ∈ samples.map Sample.weight, 0 ≤ w) (hs : (samples.map Sample.weight).sum = 1)
    (harcs : m.OnArcs samples) :
    ∃ r : Vector ℚ m.frame.spacedim,
      m.manifold.newPoint (m.quadrature samples hne) = .ok (.ofVector r) ∧
      (∀ (k : Fin m.frame.spacedim) (hL : 0 < m.periods.get k) (start : ℚ) (offsets : List ℚ),
        OnArc hL start offsets (coordinates samples k) →
          r.get k = toIcoMod hL 0 (start + combination (samples.map Sample.weight) offsets)) ∧
      ∀ v : Vector ℚ m.frame.spacedim,
        m.manifold.newPoint
            (m.quadrature (m.translateSamples v samples) (translateSamples_ne_nil v hne)) =
          .ok (.ofVector (m.translate v r)) := by
  refine ⟨m.place samples, newPoint_of_inBox hne harcs.inBox, ?_, fun v => ?_⟩
  · intro k hL start offsets harc
    exact place_onArc hne hw hs harcs harc
  · rw [newPoint_of_inBox (translateSamples_ne_nil v hne) (harcs.translate v).inBox,
      place_translateSamples hne hw hs harcs v]

theorem newPoint_onArcs_strip :
    strip.OnArcs stripSamples ∧
    ∃ r : Vector ℚ strip.frame.spacedim,
      strip.manifold.newPoint (strip.quadrature stripSamples stripSamples_ne_nil) =
        .ok (.ofVector r) ∧ r.get (0 : Fin 2) = 4 / 5 ∧
      strip.manifold.newPoint (strip.quadrature
          (strip.translateSamples #v[3 / 5, 1] stripSamples)
          (translateSamples_ne_nil _ stripSamples_ne_nil)) =
        .ok (.ofVector (strip.translate #v[3 / 5, 1] r)) := by
  have hws : stripSamples.map Sample.weight = [1 / 4, 3 / 4] := rfl
  have harc : OnArc one_pos ((7 : ℚ) / 10) [2 / 5, 0] [1 / 10, 7 / 10] := by
    refine ⟨by norm_num, ?_⟩
    have hlow : toIcoMod one_pos 0 ((7 : ℚ) / 10 + 2 / 5) = 1 / 10 :=
      (toIcoMod_eq_iff one_pos).mpr ⟨by norm_num, 1, by norm_num⟩
    have hhigh : toIcoMod one_pos 0 ((7 : ℚ) / 10 + 0) = 7 / 10 :=
      (toIcoMod_eq_iff one_pos).mpr ⟨by norm_num, 0, by norm_num⟩
    rw [List.map_cons, List.map_singleton, hlow, hhigh]
  have harcs : strip.OnArcs stripSamples := Fin.forall_fin_two.mpr
    ⟨fun _ => ⟨7 / 10, [2 / 5, 0], harc⟩, fun hL => absurd hL (lt_irrefl (0 : ℚ))⟩
  obtain ⟨r, hr, halong, hmoved⟩ := newPoint_onArcs strip stripSamples stripSamples_ne_nil
    (by rw [hws]; norm_num) (by rw [hws]; norm_num) harcs
  have h0 := halong (0 : Fin 2) one_pos (7 / 10) [2 / 5, 0] harc
  have hsum : toIcoMod one_pos 0 ((7 : ℚ) / 10 + combination [1 / 4, 3 / 4] [2 / 5, 0]) = 4 / 5 :=
    (toIcoMod_eq_iff one_pos).mpr ⟨by norm_num [combination], 0, by norm_num [combination]⟩
  exact ⟨harcs, r, hr, h0.trans hsum, hmoved _⟩

end FlatSpace

end VertexPlacement
