import VertexPlacement.Session.Spec
import VertexPlacement.Session.Workspace

namespace VertexPlacement.Session

def readPair (d : Datum Float) : Except (Fault Float) (List Float × Datum Float) := do
  match ← d.items with
  | [point, weight] => return ((← point.toTensor).entries, weight)
  | _ => .error .badValue

/-- Reads all points before any weight. -/
def readPairs (items : Datum Float) (check : Bool) : Except (Fault Float) (Quadrature Float) := do
  if ← items.isTrue then
    let pairs ← (← items.items).mapM readPair
    let weights ← pairs.mapM fun p => p.2.number
    Quadrature.build (← Fault.fitted (Quadrature.stackRows? (pairs.map Prod.fst)))
      (.ofList weights) check
  else .error (.quadrature .empty)

namespace Action

def storedQuadrature (name : String) : Action (Quadrature Float) := do
  match ← stored name with
  | .quadrature q => return q
  | _ => throw .noAttribute

def quadrature : QuadratureSpec → Action (Quadrature Float)
  | .named name => storedQuadrature name
  | .arrays points weights check => do
    let points ← resolve points
    let weights ← resolve weights
    let p ← points.toTensor
    let _ ← Quadrature.readPoints p
    Quadrature.build p (← weights.toTensor) check
  | .pairs (.named name) check => do
    match ← stored name with
    | .quadrature q => if check then q.validated else return q
    | .array t _ => readPairs (.array t) check
    | _ => throw .badType
  | .pairs items check => do readPairs (← resolve items) check

end Action

end VertexPlacement.Session
