import VertexPlacement.Datum.Reading

namespace VertexPlacement.Session

structure Wrappable where
  dim : Int
  extents : List (Datum Float)
  name : String

namespace Wrappable

def make (dim : Int) (extents : List (Datum Float)) (name : String) :
    Except (Fault Float) Wrappable :=
  if dim < 0 then .error .badValue else .ok ⟨dim, extents, name⟩

/-- A manifold of matrices. Matrices are no points of a space, so that neither the dimension nor the
name of their manifold is ever asked for. -/
def ofMatrices (extents : List (Datum Float)) : Wrappable := ⟨0, extents, ""⟩

section Vectors

/-- The name of a family of vectors. Other families have names that are never shown. -/
def nameOf (family : String) : List (Datum Float) → String
  | [.whole n] => family ++ " manifold of " ++ toString n ++ "-vectors"
  | _ => family

def factor : Datum Float → Except (Fault Float) Int
  | .whole n => .ok n
  | .flag b => .ok (if b then 1 else 0)
  | _ => .error .badType

def product (args : List (Datum Float)) : Except (Fault Float) Int := do
  let all : Datum Float := .list args
  let extents ← all.extents
  if all.content = .words then .error .wordFactor
  else if entryCount extents = 0 then .error .badType
  else return (← all.leaves.mapM factor).foldl (· * ·) 1

def sphere (args : List (Datum Float)) : Except (Fault Float) Wrappable := do
  make ((← product args) - 1) args (nameOf "Sphere" args)

def euclidean (args : List (Datum Float)) : Except (Fault Float) Wrappable := do
  make (← product args) args (nameOf "Euclidean" args)

end Vectors

section Matrices

def checkDim (dim : Float) : Except (Fault Float) Unit :=
  if dim.isNaN then .error .badValue
  else if dim.isInf then .error .overflow
  else if dim ≤ -1.0 then .error .badValue
  else .ok ()

def number : Datum Float → Except (Fault Float) Float
  | .real x => .ok x
  | d => do Datum.wholeNumber (← factor d)

def stiefel (n p : Datum Float) : Except (Fault Float) Wrappable := do
  let x ← number n
  let y ← number p
  if x < y || y < 1.0 then .error .badValue
  else
    checkDim (x * y - y * (y + 1.0) / 2.0)
    return ofMatrices [n, p]

def oblique (m n : Datum Float) : Except (Fault Float) Wrappable := do
  make (((← factor m) - 1) * (← factor n)) [m, n] "Oblique"

def symmetric (n k : Datum Float) : Except (Fault Float) Wrappable := do
  let y ← number k
  if y < 1.0 then .error .badValue
  else
    let x ← number n
    checkDim (y * x * (x + 1.0) / 2.0)
    return ofMatrices (if y ≤ 1.0 then [n, n] else [k, n, n])

end Matrices

def families : List String := ["Sphere", "Euclidean", "Stiefel", "Oblique", "Symmetric"]

def ofFamily (family : String) (args : List (Datum Float)) : Except (Fault Float) Wrappable :=
  match family, args with
  | "Sphere", [] | "Euclidean", [] => .error .badType
  | "Sphere", args => sphere args
  | "Euclidean", args => euclidean args
  | "Stiefel", [n, p] => stiefel n p
  | "Oblique", [m, n] => oblique m n
  | "Symmetric", [n] => symmetric n (.whole 1)
  | "Symmetric", [n, k] => symmetric n k
  | _, _ => .error .badType

def read? (kind : String) (args : List (Datum Float)) : Except (Fault Float) (Option Wrappable) :=
  if kind ∈ families then do return some (← ofFamily kind args) else .ok none

def extentLimit : Int := Int.pow 2 27

def readExtent : Datum Float → Except (Fault Float) Int
  | .whole n => .ok n
  | _ => .error .badType

def spacedim (w : Wrappable) : Except (Fault Float) Nat := do
  let extents ← w.extents.mapM readExtent
  if extents.any fun n => n < 0 ∨ extentLimit < n then .error .badValue
  else
    match extents with
    | [n] => return n.toNat
    | extents => .error (.notVectorValued (extents.map Int.toNat))

end Wrappable

def kindOf : String → String
  | "none" => "NoneType"
  | kind => kind

end VertexPlacement.Session
