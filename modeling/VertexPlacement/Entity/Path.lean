import VertexPlacement.Entity

namespace VertexPlacement

inductive Entity.Part where
  | line
  | face
  | child

/-- A step to one part. A negative index counts from the end. -/
structure Entity.Step where
  part : Entity.Part
  index : Int

namespace Entity

variable {α : Type}

def parts (e : Entity α) : Part → List (Entity α)
  | .line => e.lines
  | .face => e.faces
  | .child => e.children

def withParts (e : Entity α) (items : List (Entity α)) : Part → Entity α
  | .line => { e with lines := items }
  | .face => { e with faces := items }
  | .child => { e with children := items }

def modifyAt (f : Entity α → Except (Fault α) (Entity α)) :
    List Step → Entity α → Except (Fault α) (Entity α)
  | [], e => f e
  | s :: rest, e =>
    let items := e.parts s.part
    match Tensor.place? items.length s.index with
    | none => .error .badIndex
    | some i => do
      let changed ← modifyAt f rest (← item items i)
      return e.withParts (items.set i changed) s.part

end Entity

end VertexPlacement
