import VertexPlacement.Scalar

namespace VertexPlacement.Cell

def supportedDims : List Nat := [1, 2, 3]

def vertexCount (dim : Nat) : Nat := Nat.pow 2 dim

def lineCount : Nat → Nat
  | 1 => 1
  | 2 => 4
  | 3 => 12
  | _ => 0

def faceCount : Nat → Nat
  | 1 => 2
  | 2 => 4
  | 3 => 6
  | _ => 0

def quadLines : List (Nat × Nat) := [(0, 2), (1, 3), (0, 1), (2, 3)]

/-- The ends of the lines of a hex. Vertex `x + 2 y + 4 z` is the corner with these coordinates. -/
def hexLines : List (Nat × Nat) :=
  [(0, 2), (1, 3), (0, 1), (2, 3), (4, 6), (5, 7), (4, 5), (6, 7), (0, 4), (1, 5), (2, 6), (3, 7)]

def hexFaces : List (List Nat) :=
  [[0, 2, 4, 6], [1, 3, 5, 7], [0, 4, 1, 5], [2, 6, 3, 7], [0, 1, 2, 3], [4, 5, 6, 7]]

structure Weights (α : Type) where
  vertex : α
  line : α
  face : α

section Weights

variable {α : Type} [Scalar α]

def lineWeights : Weights α := ⟨Scalar.ratio 1 2, 0, 0⟩

def quadWeights : Weights α := ⟨Scalar.ratio 1 8, Scalar.ratio 1 8, 0⟩

/-- The corners count less and the lines more, which draws the new point to the lines. -/
def smoothQuadWeights : Weights α := ⟨Scalar.ratio 1 16, Scalar.ratio 3 16, 0⟩

def hexWeights : Weights α := ⟨Scalar.ratio 1 128, Scalar.ratio 7 192, Scalar.ratio 1 12⟩

def Weights.spread (w : Weights α) (vertices lines faces : Nat) : List α :=
  List.replicate vertices w.vertex ++ List.replicate lines w.line ++ List.replicate faces w.face

end Weights

end VertexPlacement.Cell
