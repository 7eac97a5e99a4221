import VertexPlacement.Proofs.Quadrature
import VertexPlacement.Proofs.Lookup
import VertexPlacement.Entity.Samples
import VertexPlacement.Scalar.Binary64

namespace VertexPlacement

namespace Cell

section Weights

variable {α : Type}

theorem length_spread (w : Weights α) (a b c : Nat) : (w.spread a b c).length = a + b + c := by
  simp [Weights.spread, Nat.add_assoc]

variable [Scalar α]

def quadWeightsFor (smooth : Bool) : Weights α := if smooth then smoothQuadWeights else quadWeights

def sampleWeights : Nat → Bool → List α
  | 1, _ => lineWeights.spread 2 0 0
  | 2, smooth => (quadWeightsFor smooth).spread 4 4 0
  | _, _ => hexWeights.spread 8 12 6

theorem forall_sampleWeights {P : List α → Prop} (hline : P (lineWeights.spread 2 0 0))
    (hquad : ∀ smooth, P ((quadWeightsFor smooth).spread 4 4 0))
    (hhex : P (hexWeights.spread 8 12 6)) : ∀ dim smooth, P (sampleWeights dim smooth)
  | 0, _ => hhex
  | 1, _ => hline
  | 2, smooth => hquad smooth
  | _ + 3, _ => hhex

variable (α) in
/-- The weights of each cell pass for a partition of one, however they are rounded. -/
def Balanced : Prop :=
  ∀ dim smooth, Quadrature.checkWeights (sampleWeights dim smooth : List α)
    Quadrature.weightSumTolerance = .ok ()

end Weights

theorem spread_partition {w : Weights ℚ} {a b c : Nat} (hv : 0 ≤ w.vertex) (hl : 0 ≤ w.line)
    (hf : 0 ≤ w.face) (hs : a * w.vertex + b * w.line + c * w.face = 1) :
    (∀ x ∈ w.spread a b c, 0 ≤ x) ∧ (w.spread a b c).sum = 1 := by
  refine ⟨fun x hx => ?_, ?_⟩
  · rcases List.mem_append.mp hx with hx | hx
    · rcases List.mem_append.mp hx with hx | hx
      · rwa [List.eq_of_mem_replicate hx]
      · rwa [List.eq_of_mem_replicate hx]
    · rwa [List.eq_of_mem_replicate hx]
  · rw [← hs, Weights.spread]
    simp only [List.sum_append, List.sum_replicate, nsmul_eq_mul]

theorem sampleWeights_partition (dim : Nat) (smooth : Bool) :
    (∀ w ∈ (sampleWeights dim smooth : List ℚ), 0 ≤ w) ∧
      (sampleWeights dim smooth : List ℚ).sum = 1 := by
  refine forall_sampleWeights (P := fun ws : List ℚ => (∀ w ∈ ws, 0 ≤ w) ∧ ws.sum = 1)
    ?_ (fun smooth => ?_) ?_ dim smooth
  · apply spread_partition <;> simp only [lineWeights, Scalar.ratio_eq] <;> norm_num
  · cases smooth
    · apply spread_partition <;>
        simp only [quadWeightsFor, quadWeights, Scalar.ratio_eq, Bool.false_eq_true, if_false] <;>
        norm_num
    · apply spread_partition <;>
        simp only [quadWeightsFor, smoothQuadWeights, Scalar.ratio_eq, if_true] <;> norm_num
  · apply spread_partition <;> simp only [hexWeights, Scalar.ratio_eq] <;> norm_num

theorem balanced_rat : Balanced ℚ := by
  intro dim smooth
  obtain ⟨hw, hs⟩ := sampleWeights_partition dim smooth
  rw [Quadrature.checkWeights_eq_ok_iff, Quadrature.weightSumTolerance_eq, hs]
  exact ⟨hw, by norm_num⟩

theorem balanced_float : Balanced Float := by
  refine forall_sampleWeights
    (P := fun ws : List Float => Quadrature.checkWeights ws Quadrature.weightSumTolerance = .ok ())
    (eq_ok_of_isOk ?_) (fun smooth => eq_ok_of_isOk ?_) (eq_ok_of_isOk ?_)
  · decide +kernel
  · cases smooth <;> decide +kernel
  · decide +kernel

end Cell

namespace CellSamples

variable {α : Type} [Scalar α] {d : Nat} {s : CellSamples α} {cs ls fs : List (Vector α d)}

theorem quadrature_line (hb : Cell.Balanced α) (hc : s.corners 2 = .ok (cs.map Vector.toList))
    (hcl : cs.length = 2) (smooth : Bool) :
    ∃ h : Quadrature.Weighing cs (Cell.sampleWeights 1 smooth),
      s.quadrature 1 smooth = .ok h.quadrature := by
  have h : Quadrature.Weighing cs (Cell.sampleWeights 1 smooth) :=
    ⟨List.ne_nil_of_length_pos (by omega), (Cell.length_spread ..).trans hcl.symm, hb 1 smooth⟩
  refine ⟨h, ?_⟩
  rw [← h.ofRows_eq, quadrature, lineQuadrature]
  change (s.corners 2 >>= _) = _
  rw [hc]
  rfl

theorem quadrature_quad (hb : Cell.Balanced α) (hc : s.corners 4 = .ok (cs.map Vector.toList))
    (hcl : cs.length = 4) (hl : s.lines 4 = .ok (ls.map Vector.toList)) (hll : ls.length = 4)
    (smooth : Bool) :
    ∃ h : Quadrature.Weighing (cs ++ ls) (Cell.sampleWeights 2 smooth),
      s.quadrature 2 smooth = .ok h.quadrature := by
  have hlen : (cs ++ ls).length = 8 := by rw [List.length_append, hcl, hll]
  have h : Quadrature.Weighing (cs ++ ls) (Cell.sampleWeights 2 smooth) :=
    ⟨List.ne_nil_of_length_pos (by omega), (Cell.length_spread ..).trans hlen.symm, hb 2 smooth⟩
  refine ⟨h, ?_⟩
  rw [← h.ofRows_eq, quadrature, quadQuadrature, List.map_append]
  change (s.corners 4 >>= fun points => s.lines 4 >>= _) = _
  rw [hc, hl]
  rfl

theorem quadrature_hex (hb : Cell.Balanced α) (hc : s.corners 8 = .ok (cs.map Vector.toList))
    (hcl : cs.length = 8) (hl : s.lines 12 = .ok (ls.map Vector.toList)) (hll : ls.length = 12)
    (hf : s.faces 6 = .ok (fs.map Vector.toList)) (hfl : fs.length = 6) (smooth : Bool) :
    ∃ h : Quadrature.Weighing (cs ++ ls ++ fs) (Cell.sampleWeights 3 smooth),
      s.quadrature 3 smooth = .ok h.quadrature := by
  have hlen : (cs ++ ls ++ fs).length = 26 := by
    rw [List.length_append, List.length_append, hcl, hll, hfl]
  have h : Quadrature.Weighing (cs ++ ls ++ fs) (Cell.sampleWeights 3 smooth) :=
    ⟨List.ne_nil_of_length_pos (by omega), (Cell.length_spread ..).trans hlen.symm, hb 3 smooth⟩
  refine ⟨h, ?_⟩
  rw [← h.ofRows_eq, quadrature, hexQuadrature, List.map_append, List.map_append]
  change (s.corners 8 >>= fun points => s.lines 12 >>= fun lines => s.faces 6 >>= _) = _
  rw [hc, hl, hf]
  rfl

end CellSamples

end VertexPlacement
