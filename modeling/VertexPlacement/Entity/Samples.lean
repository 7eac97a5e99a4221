import VertexPlacement.Entity
import VertexPlacement.Quadrature

namespace VertexPlacement

variable {α : Type} [Scalar α]

/-- Where the samples of a cell are found. Only those that a quadrature needs are looked up. -/
structure CellSamples (α : Type) where
  corner : Nat → Except (Fault α) (List α)
  line : Nat → Except (Fault α) (List α)
  face : Nat → Except (Fault α) (List α)

namespace CellSamples

def corners (s : CellSamples α) (count : Nat) : Except (Fault α) (List (List α)) :=
  (List.range count).mapM s.corner

def lines (s : CellSamples α) (count : Nat) : Except (Fault α) (List (List α)) :=
  (List.range count).mapM s.line

def faces (s : CellSamples α) (count : Nat) : Except (Fault α) (List (List α)) :=
  (List.range count).mapM s.face

def lineQuadrature (s : CellSamples α) : Except (Fault α) (Quadrature α) := do
  let points ← s.corners (Cell.vertexCount 1)
  Quadrature.ofRows points (Cell.lineWeights.spread (Cell.vertexCount 1) 0 0)

def quadQuadrature (s : CellSamples α) (smooth : Bool) : Except (Fault α) (Quadrature α) := do
  let points ← s.corners (Cell.vertexCount 2)
  let lines ← s.lines (Cell.lineCount 2)
  let weights := if smooth then Cell.smoothQuadWeights else Cell.quadWeights
  Quadrature.ofRows (points ++ lines) (weights.spread (Cell.vertexCount 2) (Cell.lineCount 2) 0)

def hexQuadrature (s : CellSamples α) : Except (Fault α) (Quadrature α) := do
  let points ← s.corners (Cell.vertexCount 3)
  let lines ← s.lines (Cell.lineCount 3)
  let faces ← s.faces (Cell.faceCount 3)
  Quadrature.ofRows (points ++ lines ++ faces)
    (Cell.hexWeights.spread (Cell.vertexCount 3) (Cell.lineCount 3) (Cell.faceCount 3))

/-- The default quadrature of a cell of dimension one, two or three. The smooth weights are for
quads only. -/
def quadrature (s : CellSamples α) (dim : Nat) (smooth : Bool) :
    Except (Fault α) (Quadrature α) :=
  match dim with
  | 1 => s.lineQuadrature
  | 2 => s.quadQuadrature smooth
  | 3 => s.hexQuadrature
  | d => .error (.impossible (toString d) .defaultQuadrature)

end CellSamples

namespace Entity

def corner (e : Entity α) (i : Nat) : Except (Fault α) (List α) := do
  return (← e.vertex i).entries

/-- A line that has been refined gives the vertex that was made there, so that the new point of its
cell agrees with the finer neighbours. -/
def lineSample (e : Entity α) : Except (Fault α) (List α) := do
  let t ← if e.hasChildren then (← e.child 0).vertex 1 else e.center
  return t.entries

def faceSample (e : Entity α) : Except (Fault α) (List α) := do
  let t ← if e.hasChildren then (← e.child 0).vertex 3 else e.center
  return t.entries

def samples (e : Entity α) : CellSamples α where
  corner := e.corner
  line i := do (← e.line i).lineSample
  face i := do (← e.face i).faceSample

def defaultQuadrature (e : Entity α) (dim : Nat) (smooth : Bool) :
    Except (Fault α) (Quadrature α) :=
  e.samples.quadrature dim smooth

end Entity

end VertexPlacement
