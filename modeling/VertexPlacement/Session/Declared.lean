import VertexPlacement.Chart.Loose

namespace VertexPlacement.Session

/-- A manifold with the dimensions and the name that it was asked for with. No point has as many
coordinates as the space if its dimension is no whole number. -/
structure Declared where
  manifold : Manifold Float
  dim : Datum Float
  spacedim : Datum Float
  chartdim : Datum Float
  name : Datum Float
  fits : Bool
  maps : LooseMaps
  projection : Datum Float → Datum Float → Except (Fault Float) (Tensor Float)

namespace Declared

def noMaps : LooseMaps where
  pullBack _ := .error .noAttribute
  pushForward _ := .error .noAttribute
  gradient _ := .error .noAttribute

def projectArray (project : PointMap Float) (_ candidate : Datum Float) :
    Except (Fault Float) (Tensor Float) := do
  project (← candidate.toTensor)

/-- How the entries of an array are read that is joined with another one. Flags that are joined with
words are spelled out. -/
def joinedEntry (d other : Datum Float) : Datum Float → Except (Fault Float) Float :=
  if d.content = .flags ∧ other.content = .words then Datum.spelledEntry else d.itemEntry

/-- Loose samples and a loose candidate as the rows of one matrix. That they fit together is seen
before any entry is read. -/
def recording (samples candidate : Datum Float) : Except (Fault Float) (Tensor Float) := do
  let s ← samples.extents
  let t ← candidate.extents
  if (Projection.rowExtents s).tail ≠ (Projection.rowExtents t).tail then .error .badValue
  else
    let rows ← samples.tensorBy (joinedEntry samples candidate)
    Projection.recording rows (← candidate.tensorBy (joinedEntry candidate samples))

def projectThrough (c : Chart Float) (fits : Bool) (maps : LooseMaps)
    (_ candidate : Datum Float) : Except (Fault Float) (Tensor Float) := do
  let u ← c.chartPoint (← maps.pullBack candidate)
  if fits then return .ofVector (← c.toSpace u)
  else
    let image ← c.maps.pushForward (.ofVector u)
    .error (.mismatch (.point image.size c.frame.spacedimQuote))

def withoutDifferentiation (d : Declared) : Declared :=
  match d.manifold.withoutDifferentiation with
  | .chart c =>
    let maps := d.maps.withoutDifferentiation c
    { d with manifold := .chart c, maps := maps, projection := projectThrough c d.fits maps }
  | _ => d

def frame (d : Declared) : Frame := d.manifold.frame

def point (d : Declared) (x : Datum Float) : Except (Fault Float) (Tensor Float) := do
  let t ← x.toTensor
  if d.fits then return .ofVector (← d.frame.point t)
  else .error (.mismatch (.point t.size d.frame.spacedimQuote))

def newPoint (d : Declared) (q : Quadrature Float) : Except (Fault Float) (Tensor Float) :=
  if d.fits then d.manifold.newPoint q
  else .error (.mismatch (.quadrature (toString q.spacedim) d.frame.spacedimQuote))

/-- The fault of a manifold that is given in the place of a quadrature. It has a space, but no
samples. -/
def misplaced (d other : Declared) : Fault Float :=
  if d.fits ∧ other.fits ∧ d.frame.spacedim = other.frame.spacedim then .noAttribute
  else .mismatch (.quadrature other.frame.spacedimQuote d.frame.spacedimQuote)

def notes (d : Declared) (q : Quadrature Float) : List Note :=
  if d.fits then d.manifold.notes q else []

/-- The weight of an intermediate point with the extents that it has. Whole numbers are compared
exactly. -/
def readFraction (weight : Datum Float) : Except (Fault Float) (Float × List Nat) :=
  match weight with
  | .whole n =>
    if n = 0 ∨ n = 1 then .ok (Decimal.ofInt n, []) else .error (.fractionOutOfRange weight)
  | .flag b => .ok (if b then 1.0 else 0.0, [])
  | .real x => if 0.0 ≤ x ∧ x ≤ 1.0 then .ok (x, []) else .error (.fractionOutOfRange weight)
  | .array t =>
    match t.entries with
    | [x] =>
      if 0.0 ≤ x ∧ x ≤ 1.0 then .ok (x, t.shape) else .error (.fractionOutOfRange (.real x))
    | _ => .error .badValue
  | _ => .error .badType

def segmentQuadrature (d : Declared) (p1 p2 weight : Datum Float) :
    Except (Fault Float) (Quadrature Float) := do
  let (x, extents) ← readFraction weight
  let a ← d.point p1
  let b ← d.point p2
  if extents.isEmpty then d.manifold.segmentQuadrature a b x
  else .error (.quadrature (.weightsShape (2 :: extents)))

def tangent (d : Declared) (x1 x2 : Datum Float) : Except (Fault Float) (Tensor Float) :=
  match d.manifold with
  | .flat _ _ => do
    let b ← d.point x2
    let a ← d.point x1
    d.manifold.tangent a b
  | .chart c => do
    let start ← c.start (← d.point x1)
    return .ofVector (← c.tangentFrom start (← x2.toTensor))
  | m => do
    let a ← d.point x1
    let b ← d.point x2
    m.tangent a b

def randomPoint (d : Declared) : Except (Fault Float) (Tensor Float) :=
  match d.manifold with
  | .projected p =>
    match p.wrapped with
    | .drawing point => point
    | _ => .error .noRandomPoint
  | _ => .error .noAttribute

def isTraced (d : Declared) : Bool :=
  match d.manifold with
  | .chart c => c.maps.traced
  | _ => false

def hasDerivedGradient (d : Declared) : Bool :=
  match d.manifold with
  | .chart c => c.maps.gradient.isDerived
  | _ => false

end Declared

end VertexPlacement.Session
