import VertexPlacement.Session.Spec
import VertexPlacement.Session.Workspace

namespace VertexPlacement.Session

def middleOf (middle : Datum Float) (e : Entity Float) : Except (Fault Float) (Tensor Float) :=
  match middle with
  | .missing => e.center
  | d => d.toTensor

def split (asLine : Bool) (middle : Datum Float) (e : Entity Float) :
    Except (Fault Float) (Entity Float) :=
  if asLine then e.splitLine (middleOf middle e) else e.splitFace (middleOf middle e)

def readIndex : Datum Float → Except (Fault Float) Int
  | .whole n => .ok n
  | .flag b => .ok (if b then 1 else 0)
  | _ => .error .badType

def LooseStep.read (s : LooseStep) : Except (Fault Float) Entity.Step :=
  match s.part with
  | none => .error .noAttribute
  | some part => do return ⟨part, ← readIndex s.index⟩

def buildCell (kind : CellKind) (vertices : List (Tensor Float)) :
    Except (Fault Float) (Entity Float) :=
  match kind with
  | .line => do return .ofLine (← Entity.item vertices 0) (← Entity.item vertices 1)
  | .quad => Entity.ofQuad vertices
  | .hex => Entity.ofHex vertices

/-- Refines a part of a tree. The part is looked up before the middle vertex is. -/
def Workspace.refineTree (w : Workspace) (e : Entity Float) (r : Refinement) :
    Except (Fault Float) (Entity Float) := do
  let steps ← r.path.mapM LooseStep.read
  e.modifyAt (fun part => do split r.asLine (← w.resolve r.middle) part) steps

def readVertices (items : List (Datum Float)) : Except (Fault Float) (List (Tensor Float)) :=
  items.mapM Datum.toTensor

namespace Action

def vertexItems (given : Datum Float) : Action (List (Datum Float)) := do
  (← resolve given).items

def refineCell (e : Entity Float) (rs : List Refinement) : Action (Entity Float) := do
  let w ← get
  (rs.foldlM w.refineTree e : Except (Fault Float) (Entity Float))

def addEntity (e : Entity Float) : Action Nat := do
  let w ← get
  let (mesh, place) := w.mesh.graft e
  set { w with mesh := mesh }
  return place

def addNode (n : Option (Node Float)) : Action Nat := do
  let w ← get
  let (mesh, place) := w.mesh.add n
  set { w with mesh := mesh }
  return place

/-- The place that a path leads to. That a place has parts is seen before the step is read. -/
def follow : List LooseStep → Nat → Action Nat
  | [], place => return place
  | s :: rest, place => do
    let mesh := (← get).mesh
    let _ ← mesh.node place
    let next ← mesh.step place (← s.read)
    follow rest next

def refine (place : Nat) (r : Refinement) : Action Nat := do
  let reached ← follow r.path place
  let middle ← resolve r.middle
  let w ← get
  let mesh ← w.mesh.refine reached (split r.asLine middle)
  set { w with mesh := mesh }
  return reached

mutual

/-- The place of an entity, which is added if it is not stored yet. All that names stand for is
looked up before a vertex is read, except in the children of an assembled entity. -/
def entityPlace : EntitySpec → Action Nat
  | .named name => do
    match ← stored name with
    | .entity place => return place
    | _ => addNode none
  | .cell kind given refinements => do
    let vertices ← readVertices (← vertexItems given)
    addEntity (← refineCell (← buildCell kind vertices) refinements)
  | .assembled given lines faces children => do
    let items ← vertexItems given
    let lines ← entityPlaces lines
    let faces ← entityPlaces faces
    let vertices ← readVertices items
    let children ← entityPlaces children
    addNode (some ⟨vertices, lines, faces, children⟩)

def entityPlaces : List EntitySpec → Action (List Nat)
  | [] => return []
  | s :: rest => do
    let place ← entityPlace s
    let places ← entityPlaces rest
    return place :: places

end

def samples (s : EntitySpec) : Action (CellSamples Float) := do
  let place ← entityPlace s
  return (← get).mesh.samples place

end Action

end VertexPlacement.Session
