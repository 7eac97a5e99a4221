import VertexPlacement.Flat

namespace VertexPlacement

variable {α : Type}

abbrev PointMap (α : Type) := Tensor α → Except (Fault α) (Tensor α)

/-- How the derivative of the push forward is found: by a map of its own, or by differentiating
the push forward, whose Jacobian matrix is then a function of the chart coordinates. -/
inductive Gradient (α : Type) where
  | given (map : PointMap α)
  | derived (jacobian : List α → Except (Fault α) (Tensor α))

/-- The maps of a chart. A traced push forward is run by the tool that differentiates it. -/
structure ChartMaps (α : Type) where
  pullBack : PointMap α
  pushForward : PointMap α
  gradient : Gradient α
  traced : Bool

/-- A manifold that is averaged in the flat space of its chart. What the maps return is checked for
its size only. -/
structure Chart (α : Type) [Scalar α] where
  frame : Frame
  sub : FlatSpace α
  maps : ChartMaps α

namespace Chart

variable [Scalar α]

def chartdim (c : Chart α) : Nat := c.sub.frame.spacedim

def chartPoint (c : Chart α) (image : Tensor α) : Except (Fault α) (Vector α c.chartdim) :=
  if h : image.entries.length = c.chartdim then .ok ⟨image.entries.toArray, by simp [h]⟩
  else .error (.mismatch (.pullBack image.entries.length c.sub.frame.spacedimQuote))

def toChart (c : Chart α) (p : Tensor α) : Except (Fault α) (Vector α c.chartdim) := do
  c.chartPoint (← c.maps.pullBack p)

def toSpace (c : Chart α) (u : Vector α c.chartdim) :
    Except (Fault α) (Vector α c.frame.spacedim) := do
  c.frame.point (← c.maps.pushForward (.ofVector u))

def project (c : Chart α) (p : Tensor α) : Except (Fault α) (Vector α c.frame.spacedim) := do
  c.toSpace (← c.toChart p)

def pulledBack (c : Chart α) (q : Quadrature α) : Except (Fault α) (Quadrature α) := do
  let _ ← c.frame.accept q
  q.mapPoints fun p => c.toChart (.ofVector p)

def newPoint (c : Chart α) (q : Quadrature α) :
    Except (Fault α) (Vector α c.frame.spacedim) := do
  let inner ← c.pulledBack q
  c.toSpace (← c.sub.newPoint inner)

def notes (c : Chart α) (q : Quadrature α) : List Note :=
  match c.pulledBack q with
  | .error _ => []
  | .ok inner =>
    match c.sub.newPoint inner with
    | .error _ => []
    | .ok _ => c.sub.notes inner ++ [.averaged q.size]

def gradientAt (c : Chart α) (p : Tensor α) : Except (Fault α) (Tensor α) :=
  match c.maps.gradient with
  | .given map => map p
  | .derived jacobian => do
    let u ← c.sub.frame.point p
    jacobian u.toList

def applyMatrix (height : Nat) (entries : List α) {n : Nat} (v : Vector α n) :
    Vector α height :=
  Vector.ofFn fun i =>
    (List.zipWith (· * ·) ((entries.drop (i.val * n)).take n) v.toList).foldl (· + ·) 0

def tangentFrom (c : Chart α) (start : Vector α c.chartdim) (x2 : Tensor α) :
    Except (Fault α) (Vector α c.frame.spacedim) := do
  let stop ← c.toChart (.ofVector (← c.frame.point x2))
  let direction := c.sub.tangent start stop
  let gradient ← c.gradientAt (.ofVector start)
  if gradient.shape = [c.frame.spacedim, c.chartdim] then
    return applyMatrix c.frame.spacedim gradient.entries direction
  else
    let height := c.frame.spacedimQuote
    let width := c.sub.frame.spacedimQuote
    .error (.mismatch (.gradient gradient.shape height width))

def start (c : Chart α) (x1 : Tensor α) : Except (Fault α) (Vector α c.chartdim) := do
  c.toChart (.ofVector (← c.frame.point x1))

def tangent (c : Chart α) (x1 x2 : Tensor α) :
    Except (Fault α) (Vector α c.frame.spacedim) := do
  c.tangentFrom (← c.start x1) x2

end Chart

end VertexPlacement
