import VertexPlacement.Mesh
import VertexPlacement.Session.Declared

namespace VertexPlacement.Session

/-- What a name can stand for. A fixed array cannot be changed. -/
inductive Stored where
  | array (t : Tensor Float) (isFixed : Bool)
  | quadrature (q : Quadrature Float)
  | manifold (m : Declared)
  | entity (place : Nat)

structure Workspace where
  names : List (String × Stored)
  mesh : Mesh Float

namespace Workspace

def empty : Workspace := ⟨[], .empty⟩

def get? (w : Workspace) (name : String) : Option Stored :=
  (w.names.find? fun entry => entry.1 == name).map Prod.snd

def get (w : Workspace) (name : String) : Except (Fault Float) Stored :=
  match w.get? name with
  | some s => .ok s
  | none => .error (.missingName name)

def bind (w : Workspace) (name : String) (s : Stored) : Workspace :=
  { w with names := (name, s) :: w.names.filter fun entry => entry.1 != name }

mutual

def resolve (w : Workspace) : Datum Float → Except (Fault Float) (Datum Float)
  | .named name =>
    match w.get? name with
    | none => .error (.missingName name)
    | some (.array t _) => .ok (.array t)
    | some _ => .ok .object
  | .list items => do return .list (← resolveAll w items)
  | d => .ok d

def resolveAll (w : Workspace) : List (Datum Float) → Except (Fault Float) (List (Datum Float))
  | [] => .ok []
  | d :: rest => do
    let r ← resolve w d
    let rs ← resolveAll w rest
    return r :: rs

end

end Workspace

/-- What is done in a workspace. An action that fails changes nothing. -/
abbrev Action := StateT Workspace (Except (Fault Float))

namespace Action

def resolve (d : Datum Float) : Action (Datum Float) := do (← get).resolve d

def stored (name : String) : Action Stored := do (← get).get name

end Action

end VertexPlacement.Session
