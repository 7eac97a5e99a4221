import VertexPlacement.Fault
import VertexPlacement.Formula.Expression
import VertexPlacement.Tensor.Broadcast

namespace VertexPlacement

/-- A formula. Numbers may stand in an array of any shape, and a value without a change is one that
differentiation does not take. -/
inductive Formula (α : Type) where
  | const (c : α)
  | fixed (t : Tensor α)
  | changeless (c : α)
  | coord (i : Int)
  | unary (f : Unary) (a : Formula α)
  | binary (f : Binary) (a b : Formula α)
  | pow (a : Formula α) (k : Int)
  | array (items : List (Formula α))
  | faulty (e : Fault α)

namespace Formula

variable {α : Type} {n : Nat}

def coordinate (coords : Tensor (Fin n)) (index : Int) : Except (Fault α) (Tensor (Fin n)) :=
  match coords.item? index with
  | some t => .ok t
  | none => .error .badIndex

/-- The fault of extents that cannot be joined. Those of arrays of one rank are a fault of type
where the formula is differentiated. -/
def clash (mode : Option Constancy) (s t : List Nat) : Fault α :=
  if mode.isSome && s.length == t.length then .badType else .badValue

/-- The items of an array in which all vary if one does, be it by nothing. Only differentiation
tells them apart. -/
def steadied (mode : Option Constancy) (ts : List (Tensor (Expression α n))) :
    List (Tensor (Expression α n)) :=
  match mode with
  | none => ts
  | some constancy =>
    if ts.any fun t => t.entries.any (Expression.varies constancy) then
      ts.map fun t => t.map fun e => if e.varies constancy then e else .steady e
    else ts

mutual

/-- The expressions of a formula. Whatever can fail fails here, from left to right. -/
def expand (mode : Option Constancy) (coords : Tensor (Fin n)) :
    Formula α → Except (Fault α) (Tensor (Expression α n))
  | const c => .ok (.scalar (.const c))
  | fixed t => .ok (t.map .const)
  | changeless c => if mode.isSome then .error .badType else .ok (.scalar (.const c))
  | coord i => do return (← coordinate coords i).map .coord
  | unary f a => do return (← expand mode coords a).map (.unary f)
  | binary f a b => do
    let u ← expand mode coords a
    let v ← expand mode coords b
    match Tensor.combine? (.binary f) u v with
    | some t => return t
    | none => .error (clash mode u.shape v.shape)
  | pow a k => do return (← expand mode coords a).map (.pow · k)
  | array items => do
    let ts ← expandAll mode coords items
    if ts.isEmpty then .error .badValue
    else Fault.fitted (Tensor.stack? (steadied mode ts))
  | faulty e => .error e

def expandAll (mode : Option Constancy) (coords : Tensor (Fin n)) :
    List (Formula α) → Except (Fault α) (List (Tensor (Expression α n)))
  | [] => .ok []
  | f :: rest => do
    let t ← expand mode coords f
    let ts ← expandAll mode coords rest
    return t :: ts

end

def eval [Scalar α] [Elementary α] (f : Formula α) (t : Tensor α) :
    Except (Fault α) (Tensor α) := do
  return (← f.expand none t.places).map (Expression.eval t.entries.get)

end Formula

end VertexPlacement
