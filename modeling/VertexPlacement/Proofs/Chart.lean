import VertexPlacement.Proofs.Flat
import VertexPlacement.Proofs.Quadrature

namespace VertexPlacement

variable {α : Type} [Scalar α]

theorem Manifold.spacedim_of_newPoint {m : Manifold α} {q : Quadrature α} {r : Tensor α}
    (h : m.newPoint q = .ok r) : q.spacedim = m.spacedim := by
  cases m with
  | plain f projection =>
    obtain ⟨samples, hs, -⟩ := bind_eq_ok_iff.mp h
    exact Frame.spacedim_of_accept hs
  | flat s projection =>
    obtain ⟨p, hp, -⟩ := bind_eq_ok_iff.mp h
    obtain ⟨samples, hs, -⟩ := bind_eq_ok_iff.mp hp
    obtain ⟨samples, hs, -⟩ := bind_eq_ok_iff.mp hs
    exact Frame.spacedim_of_accept hs
  | chart c =>
    obtain ⟨p, hp, -⟩ := bind_eq_ok_iff.mp h
    obtain ⟨inner, hinner, -⟩ := bind_eq_ok_iff.mp hp
    obtain ⟨samples, hs, -⟩ := bind_eq_ok_iff.mp hinner
    exact Frame.spacedim_of_accept hs
  | projected p =>
    obtain ⟨samples, hs, -⟩ := bind_eq_ok_iff.mp h
    exact Frame.spacedim_of_accept hs

namespace Chart

variable {c : Chart α}

theorem toSpace_of_pushForward {u : Vector α c.chartdim} {p : Vector α c.frame.spacedim}
    (h : c.maps.pushForward (.ofVector u) = .ok (.ofVector p)) : c.toSpace u = .ok p := by
  rw [toSpace, h]
  exact asPoint_ofVector p _

theorem toChart_of_pullBack {u : Vector α c.chartdim} {p : Vector α c.frame.spacedim}
    (h : c.maps.pullBack (.ofVector p) = .ok (.ofVector u)) : c.toChart (.ofVector p) = .ok u := by
  have hl : (Tensor.ofVector u).entries.length = c.chartdim := u.length_toList
  rw [toChart, h, ok_bind, chartPoint, dif_pos hl]
  exact congrArg Except.ok (Vector.toArray_inj.mp (Array.toArray_toList))

variable (c) in
abbrev Pulled (samples : List (Sample α c.frame.spacedim)) (us : List (Sample α c.chartdim)) :
    Prop := Quadrature.Mapped (fun p => c.toChart (.ofVector p)) samples us

variable {samples : List (Sample α c.frame.spacedim)} {us : List (Sample α c.chartdim)}

theorem pulledBack_eq_ok_iff (hne : samples ≠ []) {q : Quadrature α} :
    c.pulledBack ⟨c.frame.spacedim, samples, hne⟩ = .ok q ↔
      ∃ us hus, q = ⟨c.chartdim, us, hus⟩ ∧ c.Pulled samples us := by
  rw [pulledBack, c.frame.accept_eq hne, ok_bind]
  exact Quadrature.mapPoints_eq_ok_iff hne

theorem newPoint_of_pulled (h : c.Pulled samples us) (hne : samples ≠ []) (hus : us ≠ []) :
    c.newPoint ⟨c.frame.spacedim, samples, hne⟩ =
      c.sub.newPoint ⟨c.chartdim, us, hus⟩ >>= c.toSpace := by
  rw [newPoint, (pulledBack_eq_ok_iff hne).mpr ⟨us, hus, rfl, h⟩]
  rfl

theorem exists_pulled {hne : samples ≠ []} {p : Vector α c.frame.spacedim}
    (h : c.newPoint ⟨c.frame.spacedim, samples, hne⟩ = .ok p) :
    ∃ us hus u, c.Pulled samples us ∧ c.sub.newPoint ⟨c.chartdim, us, hus⟩ = .ok u ∧
      c.toSpace u = .ok p := by
  obtain ⟨q, hq, hrest⟩ := bind_eq_ok_iff.mp h
  obtain ⟨us, hus, rfl, hpulled⟩ := (pulledBack_eq_ok_iff hne).mp hq
  obtain ⟨u, hu, hp⟩ := bind_eq_ok_iff.mp hrest
  exact ⟨us, hus, u, hpulled, hu, hp⟩

end Chart

end VertexPlacement
