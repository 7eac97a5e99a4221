import VertexPlacement.Chart
import VertexPlacement.Entity.Samples

namespace VertexPlacement

variable {α : Type}

/-- Maps a candidate onto the manifold. The samples that it was averaged from come first. -/
abbrev Projection (α : Type) := Tensor α → Tensor α → Except (Fault α) (Tensor α)

/-- What a projected manifold wraps: nothing, something that draws points, or a source of random
points. -/
inductive Wrapped (α : Type) where
  | nothing
  | drawing (point : Except (Fault α) (Tensor α))
  | source

structure Projected (α : Type) where
  frame : Frame
  projector : Option (PointMap α)
  name : String
  wrapped : Wrapped α

def Projected.project (p : Projected α) : PointMap α := p.projector.getD .ok

inductive Manifold (α : Type) [Scalar α] where
  | plain (frame : Frame) (projection : Projection α)
  | flat (space : FlatSpace α) (projection : Projection α)
  | chart (c : Chart α)
  | projected (p : Projected α)

namespace Projection

def missing (f : Frame) : Projection α :=
  fun _ _ => .error (.hookMissing f.label .projection)

def identity : Projection α := fun _ candidate => .ok candidate

/-- The extents of an array as a matrix: a point becomes a single row, a number a single entry. -/
def rowExtents : List Nat → List Nat
  | [] => [1, 1]
  | [n] => [1, n]
  | s => s

theorem entryCount_rowExtents (s : List Nat) : entryCount (rowExtents s) = entryCount s := by
  unfold rowExtents
  split <;> simp

def asRows (t : Tensor α) : Tensor α :=
  ⟨rowExtents t.shape, t.entries, by rw [entryCount_rowExtents, t.size_eq]⟩

def recording : Projection α := fun samples candidate =>
  let a := asRows samples
  let b := asRows candidate
  match a.shape, b.shape with
  | m :: s, n :: t =>
    let entries := a.entries ++ b.entries
    if h : s = t ∧ entries.length = entryCount ((m + n) :: s) then .ok ⟨(m + n) :: s, entries, h.2⟩
    else .error .badValue
  | _, _ => .error .badValue

end Projection

namespace Manifold

variable [Scalar α]

def frame : Manifold α → Frame
  | plain f _ => f
  | flat s _ => s.frame
  | chart c => c.frame
  | projected p => p.frame

def spacedim (m : Manifold α) : Nat := m.frame.spacedim

def project (m : Manifold α) : Projection α :=
  match m with
  | plain _ projection => projection
  | flat _ projection => projection
  | chart c => fun _ candidate => do return .ofVector (← c.project candidate)
  | projected p => fun _ candidate => p.project candidate

def newPoint (m : Manifold α) (q : Quadrature α) : Except (Fault α) (Tensor α) :=
  match m with
  | plain f projection => do
    projection q.points (.ofVector (average (← f.accept q)))
  | flat s projection => do
    projection q.points (.ofVector (← s.newPoint q))
  | chart c => do
    return .ofVector (← c.newPoint q)
  | projected p => do
    p.project (.ofVector (average (← p.frame.accept q)))

def notes (m : Manifold α) (q : Quadrature α) : List Note :=
  match m with
  | flat s _ => s.notes q
  | chart c => c.notes q
  | _ => []

section Entities

/-- The kinds of entities that new points are asked for. A face is a line or a quad, and a cell
has the dimension of the manifold. -/
inductive Site where
  | line
  | quad
  | hex
  | face
  | cell

def quadQuadrature (m : Manifold α) (s : CellSamples α) : Except (Fault α) (Quadrature α) :=
  if m.frame.dim < 2 then .error (.impossible m.frame.dimQuote .newPointOnQuad)
  else s.quadrature 2 m.frame.smooth

def hexQuadrature (m : Manifold α) (s : CellSamples α) : Except (Fault α) (Quadrature α) :=
  if m.frame.dim ≠ 3 then .error (.impossible m.frame.dimQuote .newPointOnHex)
  else s.quadrature 3 false

def quadratureOn (m : Manifold α) (site : Site) (s : CellSamples α) :
    Except (Fault α) (Quadrature α) :=
  match site with
  | .line => s.quadrature 1 false
  | .quad => m.quadQuadrature s
  | .hex => m.hexQuadrature s
  | .face =>
    if m.frame.dim = 2 then s.quadrature 1 false
    else if m.frame.dim = 3 then m.quadQuadrature s
    else .error (.impossible m.frame.dimQuote .newPointOnFace)
  | .cell =>
    if m.frame.dim = 1 then s.quadrature 1 false
    else if m.frame.dim = 2 then m.quadQuadrature s
    else m.hexQuadrature s

def newPointOn (m : Manifold α) (site : Site) (e : Entity α) : Except (Fault α) (Tensor α) := do
  m.newPoint (← m.quadratureOn site e.samples)

end Entities

section Lines

def segmentQuadrature (m : Manifold α) (p1 p2 : Tensor α) (weight : α) :
    Except (Fault α) (Quadrature α) :=
  if 0 ≤ weight ∧ weight ≤ 1 then do
    let a ← m.frame.point p1
    let b ← m.frame.point p2
    Quadrature.ofRows [a.toList, b.toList] [1 - weight, weight]
  else .error (.fractionOutOfRange (.real weight))

def intermediatePoint (m : Manifold α) (p1 p2 : Tensor α) (weight : α) :
    Except (Fault α) (Tensor α) := do
  m.newPoint (← m.segmentQuadrature p1 p2 weight)

def tangentStep : α := Scalar.ratio 1 (Nat.pow 10 8)

def differenceTangent (m : Manifold α) (x1 x2 : Tensor α) : Except (Fault α) (Tensor α) := do
  let start ← m.frame.point x1
  let near ← m.intermediatePoint (.ofVector start) x2 tangentStep
  let change ← Fault.fitted (Tensor.combine? (· - ·) near (.ofVector start))
  return change.map (· / tangentStep)

def tangent (m : Manifold α) (x1 x2 : Tensor α) : Except (Fault α) (Tensor α) :=
  match m with
  | flat s _ => do
    let b ← s.frame.point x2
    let a ← s.frame.point x1
    return .ofVector (s.tangent a b)
  | chart c => do
    return .ofVector (← c.tangent x1 x2)
  | m => m.differenceTangent x1 x2

end Lines

end Manifold

end VertexPlacement
