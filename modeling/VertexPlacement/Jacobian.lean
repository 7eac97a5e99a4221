import VertexPlacement.Formula
import VertexPlacement.Formula.Derivative

namespace VertexPlacement

variable {α : Type} [Scalar α] [Elementary α]

def Formula.trace (f : Formula α) (constancy : Constancy) (n : Nat) :
    Except (Fault α) (Tensor (Expression α n)) :=
  f.expand (some constancy) ⟨[n], List.finRange n, by simp⟩

def unitDirection {n : Nat} (j : Fin n) : Fin n → α := fun i => if i = j then 1 else 0

def Formula.jacobian (f : Formula α) (x : List α) : Except (Fault α) (Tensor α) := do
  let values ← f.trace .handedOn x.length
  if x.isEmpty then .error .badValue
  else
    return .ofRows (Vector.ofFn fun i : Fin values.entries.length =>
      Vector.ofFn fun j : Fin x.length =>
        ((values.entries.get i).tangent .handedOn x.get (unitDirection j)).getD 0)

structure Linearization (α : Type) where
  inputs : Nat
  values : Tensor (Expression α inputs)
  point : Fin inputs → α

def Formula.linearize (f : Formula α) (x : List α) : Except (Fault α) (Linearization α) := do
  return ⟨x.length, ← f.trace .leftOut x.length, x.get⟩

namespace Linearization

def shape (l : Linearization α) : Nat × Nat := (l.values.size, l.inputs)

def apply (l : Linearization α) (direction : Tensor α) : Except (Fault α) (Tensor α) :=
  if h : direction.entries.length = l.inputs then
    let d (i : Fin l.inputs) := direction.entries.get (i.cast h.symm)
    .ok (l.values.map fun e => (e.tangent .leftOut l.point d).getD 0)
  else .error .badValue

/-- Maps a covector back to the coordinates. Only values in a single row have covectors. -/
def applyTransposed (l : Linearization α) (covector : Tensor α) :
    Except (Fault α) (Tensor α) :=
  if l.values.shape = [covector.size] then
    .ok (.ofVector ((l.values.entries.zip covector.entries).foldl
      (fun acc (e, c) => e.cotangent l.point c acc) (Vector.replicate l.inputs 0)))
  else .error .badValue

end Linearization

end VertexPlacement
