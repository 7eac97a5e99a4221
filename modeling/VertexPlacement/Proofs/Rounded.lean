import Mathlib.Algebra.Order.Field.Basic
import VertexPlacement.Periodic
import VertexPlacement.Proofs.Lookup

namespace VertexPlacement

variable {K : Type} [Field K] [LinearOrder K]

/-- How the results of operations are rounded. Of quotients no more is known than their sign. -/
structure Rounding (K : Type) [Field K] [LinearOrder K] where
  round : K → K
  round_zero : round 0 = 0
  quotient : K → K → K
  quotient_nonneg : ∀ {x y}, 0 ≤ x → 0 ≤ y → 0 ≤ quotient x y

@[ext]
structure Rounded (R : Rounding K) where
  value : K

namespace Rounded

variable {R : Rounding K}

instance : Scalar (Rounded R) where
  zero := ⟨0⟩
  one := ⟨1⟩
  natCast n := ⟨n⟩
  add x y := ⟨R.round (x.value + y.value)⟩
  sub x y := ⟨R.round (x.value - y.value)⟩
  mul x y := ⟨R.round (x.value * y.value)⟩
  div x y := ⟨R.quotient x.value y.value⟩
  neg x := ⟨-x.value⟩
  lt x y := x.value < y.value
  le x y := x.value ≤ y.value
  decLT x y := inferInstanceAs (Decidable (x.value < y.value))
  decLE x y := inferInstanceAs (Decidable (x.value ≤ y.value))
  pow x n := ⟨R.round (x.value ^ n)⟩

def Representable (x : Rounded R) : Prop := R.round x.value = x.value

instance (x : Rounded R) : Decidable x.Representable := inferInstanceAs (Decidable (_ = _))

theorem representable_zero : (0 : Rounded R).Representable := R.round_zero

protected theorem sub_self (x : Rounded R) : x - x = 0 :=
  Rounded.ext ((congrArg R.round (sub_self x.value)).trans R.round_zero)

protected theorem mul_zero (x : Rounded R) : x * 0 = 0 :=
  Rounded.ext ((congrArg R.round (mul_zero x.value)).trans R.round_zero)

protected theorem add_zero {x : Rounded R} (hx : x.Representable) : x + 0 = x :=
  Rounded.ext ((congrArg R.round (add_zero x.value)).trans hx)

protected theorem sub_zero {x : Rounded R} (hx : x.Representable) : x - 0 = x :=
  Rounded.ext ((congrArg R.round (sub_zero x.value)).trans hx)

protected theorem not_lt {x y : Rounded R} : ¬ x < y ↔ y ≤ x := not_lt

protected theorem not_le {x y : Rounded R} : ¬ x ≤ y ↔ y < x := not_le

protected theorem le_of_lt {x y : Rounded R} (h : x < y) : x ≤ y := h.le

protected theorem le_refl (x : Rounded R) : x ≤ x := le_refl x.value

/-- Weights that pass for a partition of one are not summed from scratch. -/
theorem balanced_of_partition {ws : List (Rounded R)}
    (h : Quadrature.checkWeights ws Quadrature.weightSumTolerance = .ok ()) :
    ¬ Weighted.unbalanced ws = true := by
  obtain ⟨-, -, h⟩ := bind_eq_ok_iff.mp h
  split at h
  · next hlt => exact mt of_decide_eq_true (lt_asymm (α := K) hlt)
  · cases h

variable [IsStrictOrderedRing K]

theorem ratio_nonneg (m n : Nat) : (0 : Rounded R) ≤ Scalar.ratio m n :=
  R.quotient_nonneg m.cast_nonneg n.cast_nonneg

theorem half_nonneg {x : Rounded R} (hx : 0 ≤ x) : 0 ≤ Scalar.half x :=
  R.quotient_nonneg hx (Nat.cast_nonneg 2)

theorem neg_boxTolerance_le {x : Rounded R} (hx : 0 ≤ x) : -Periodic.boxTolerance ≤ x := by
  have htolerance : (0 : Rounded R) ≤ Periodic.boxTolerance := ratio_nonneg 1 (Nat.pow 10 10)
  exact (neg_nonpos.mpr htolerance : -(Periodic.boxTolerance : Rounded R).value ≤ 0).trans hx

end Rounded

end VertexPlacement
