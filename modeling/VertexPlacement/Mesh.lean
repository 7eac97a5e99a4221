import VertexPlacement.Entity.Path
import VertexPlacement.Entity.Samples

namespace VertexPlacement

structure Node (α : Type) where
  vertices : List (Tensor α)
  lines : List Nat
  faces : List Nat
  children : List Nat

/-- A table of nodes. At some places stands something that is no entity and has no parts. -/
structure Mesh (α : Type) where
  nodes : List (Option (Node α))

namespace Mesh

variable {α : Type}

def empty : Mesh α := ⟨[]⟩

def add (m : Mesh α) (n : Option (Node α)) : Mesh α × Nat := (⟨m.nodes ++ [n]⟩, m.nodes.length)

mutual

/-- Adds an entity with all its parts, none of which is shared. -/
def graft (m : Mesh α) : Entity α → Mesh α × Nat
  | ⟨vertices, lines, faces, children⟩ =>
    let (m, ls) := graftAll m lines
    let (m, fs) := graftAll m faces
    let (m, cs) := graftAll m children
    m.add (some ⟨vertices, ls, fs, cs⟩)

def graftAll (m : Mesh α) : List (Entity α) → Mesh α × List Nat
  | [] => (m, [])
  | e :: rest =>
    let (m, place) := graft m e
    let (m, places) := graftAll m rest
    (m, place :: places)

end

def node (m : Mesh α) (place : Nat) : Except (Fault α) (Node α) := do
  match ← Entity.item m.nodes place with
  | some n => return n
  | none => .error .noAttribute

def bare (m : Mesh α) (place : Nat) : Except (Fault α) (Entity α) := do
  return .bare (← m.node place).vertices

/-- The entity at a place with its first child, which is all that a sample depends on. -/
def part (m : Mesh α) (place : Nat) : Except (Fault α) (Entity α) := do
  let n ← m.node place
  return { Entity.bare n.vertices with children := ← (n.children.take 1).mapM m.bare }

def samples [Scalar α] (m : Mesh α) (place : Nat) : CellSamples α where
  corner i := do (← m.bare place).corner i
  line i := do (← m.part (← Entity.item (← m.node place).lines i)).lineSample
  face i := do (← m.part (← Entity.item (← m.node place).faces i)).faceSample

def parts (n : Node α) : Entity.Part → List Nat
  | .line => n.lines
  | .face => n.faces
  | .child => n.children

def step (m : Mesh α) (place : Nat) (s : Entity.Step) : Except (Fault α) Nat := do
  let places := parts (← m.node place) s.part
  match Tensor.place? places.length s.index with
  | some i => Entity.item places i
  | none => .error .badIndex

/-- Refines the entity at a place. The new children take the place of older ones, which stay in the
mesh for those that share them. -/
def refine (m : Mesh α) (place : Nat) (split : Entity α → Except (Fault α) (Entity α)) :
    Except (Fault α) (Mesh α) := do
  let n ← m.node place
  let changed ← split (.bare n.vertices)
  let (m, children) := m.graftAll changed.children
  return ⟨m.nodes.set place (some { n with children := children })⟩

end Mesh

end VertexPlacement
