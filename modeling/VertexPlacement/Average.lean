import VertexPlacement.Quadrature
import VertexPlacement.Tensor.Product

namespace VertexPlacement

variable {α : Type}

structure Weighted (α : Type) where
  value : α
  weight : α

def column {d : Nat} (samples : List (Sample α d)) (k : Fin d) : List (Weighted α) :=
  samples.map fun s => ⟨s.point.get k, s.weight⟩

variable [Scalar α]

namespace Weighted

def total (column : List (Weighted α)) : α :=
  column.foldl (fun acc s => acc + s.weight * s.value) 0

def relativeTo (r : α) (column : List (Weighted α)) : List (Weighted α) :=
  column.map fun s => ⟨s.value - r, s.weight⟩

def unbalanced (weights : List α) : Bool :=
  decide (Quadrature.weightSumTolerance < Quadrature.weightError weights)

/-- The average is taken relative to the first value when the weights sum to one, so that equal
values average to themselves without any rounding. -/
def average (column : List (Weighted α)) : α :=
  match column with
  | [] => 0
  | s :: _ =>
    if unbalanced (column.map weight) then total column
    else s.value + total (relativeTo s.value column)

end Weighted

def average {d : Nat} (samples : List (Sample α d)) : Vector α d :=
  Vector.ofFn fun k => Weighted.average (column samples k)

/-- The weighted average of the items of an array, relative to the first item if the weights sum
to one. The weights may form several rows, each of which gives an average. -/
def averageItems (points weights : Tensor α) : Except (Fault α) (Tensor α) :=
  if Weighted.unbalanced weights.entries then total points
  else
    match points.items? with
    | some (first :: _) => do
      let relative ← Fault.fitted (Tensor.combine? (· - ·) points first)
      Fault.fitted (Tensor.combine? (· + ·) first (← total relative))
    | _ => .error .badIndex
where
  total (points : Tensor α) : Except (Fault α) (Tensor α) :=
    Fault.fitted (Tensor.product? weights points)

end VertexPlacement
