import VertexPlacement.Cell
import VertexPlacement.Fault
import VertexPlacement.Tensor.Broadcast

namespace VertexPlacement

/-- A line, a quad or a hex with its parts. Refining it again replaces its children. -/
structure Entity (α : Type) where
  vertices : List (Tensor α)
  lines : List (Entity α)
  faces : List (Entity α)
  children : List (Entity α)

namespace Entity

variable {α : Type}

def bare (vertices : List (Tensor α)) : Entity α := ⟨vertices, [], [], []⟩

def item {β : Type} (items : List β) (i : Nat) : Except (Fault α) β :=
  match items[i]? with
  | some x => .ok x
  | none => .error .badIndex

def vertex (e : Entity α) (i : Nat) : Except (Fault α) (Tensor α) := item e.vertices i

def line (e : Entity α) (i : Nat) : Except (Fault α) (Entity α) := item e.lines i

def face (e : Entity α) (i : Nat) : Except (Fault α) (Entity α) := item e.faces i

def child (e : Entity α) (i : Nat) : Except (Fault α) (Entity α) := item e.children i

def hasChildren (e : Entity α) : Bool := !e.children.isEmpty

section Shapes

def ofLine (a b : Tensor α) : Entity α := bare [a, b]

def linesAlong (ends : List (Nat × Nat)) (vertices : List (Tensor α)) :
    Except (Fault α) (List (Entity α)) :=
  ends.mapM fun (i, j) => do
    let a ← item vertices i
    let b ← item vertices j
    return ofLine a b

def ofQuad (vertices : List (Tensor α)) : Except (Fault α) (Entity α) := do
  let lines ← linesAlong Cell.quadLines vertices
  return ⟨vertices, lines, [], []⟩

def ofHex (vertices : List (Tensor α)) : Except (Fault α) (Entity α) := do
  let lines ← linesAlong Cell.hexLines vertices
  let faces ← Cell.hexFaces.mapM fun corners => do ofQuad (← corners.mapM (item vertices))
  return ⟨vertices, lines, faces, []⟩

end Shapes

section Refinement

variable [Scalar α]

/-- The sum of arrays of one shape, entry by entry. Arrays of a single entry are summed as one
list. -/
def total? (v : Tensor α) (rest : List (Tensor α)) : Option (Tensor α) :=
  if h : v.entries.length = 1 ∧ ∀ u ∈ rest, u.shape = v.shape then
    some ⟨v.shape, [Scalar.sum ((v :: rest).flatMap Tensor.entries)], by
      rw [← v.size_eq, h.1, List.length_singleton]⟩
  else rest.foldlM (Tensor.zip? (· + ·)) v

/-- The mean of the vertices, which must be of one shape. Without vertices it is undefined. -/
def center (e : Entity α) : Except (Fault α) (Tensor α) :=
  match e.vertices with
  | [] => .ok (.scalar (0 / 0))
  | v :: rest => do
    return (← Fault.fitted (total? v rest)).map (· / (e.vertices.length : α))

def halfway (a b : Tensor α) : Except (Fault α) (Tensor α) := do
  return (← Fault.fitted (Tensor.combine? (· + ·) a b)).map Scalar.half

def splitLine (e : Entity α) (middle : Except (Fault α) (Tensor α)) :
    Except (Fault α) (Entity α) := do
  let a ← e.vertex 0
  let b ← e.vertex 1
  let m ← middle
  return { e with children := [ofLine a m, ofLine m b] }

def splitFace (e : Entity α) (middle : Except (Fault α) (Tensor α)) :
    Except (Fault α) (Entity α) := do
  let v0 ← e.vertex 0
  let v1 ← e.vertex 1
  let v2 ← e.vertex 2
  let v3 ← e.vertex 3
  let m ← middle
  let left ← halfway v0 v1
  let down ← halfway v0 v2
  let up ← halfway v1 v3
  let right ← halfway v2 v3
  let c0 ← ofQuad [v0, left, down, m]
  let c1 ← ofQuad [left, v1, m, up]
  let c2 ← ofQuad [down, m, v2, right]
  let c3 ← ofQuad [m, up, right, v3]
  return { e with children := [c0, c1, c2, c3] }

def middle (e : Entity α) : Option (Tensor α) → Except (Fault α) (Tensor α)
  | some m => .ok m
  | none => e.center

def refineLine (e : Entity α) (mid : Option (Tensor α)) : Except (Fault α) (Entity α) :=
  e.splitLine (e.middle mid)

def refineFace (e : Entity α) (mid : Option (Tensor α)) : Except (Fault α) (Entity α) :=
  e.splitFace (e.middle mid)

end Refinement

end Entity

end VertexPlacement
