import VertexPlacement.Jacobian
import VertexPlacement.Manifold

namespace VertexPlacement

variable {α : Type}

def ChartMaps.missing (owner : String) : ChartMaps α where
  pullBack _ := .error (.hookMissing owner .pullBack)
  pushForward _ := .error (.hookMissing owner .pushForward)
  gradient := .derived fun _ => .error (.hookMissing owner .pushForward)
  traced := false

namespace Chart

def make [Scalar α] (label : String) (dim spacedim chartdim : Dimension)
    (periods : Option (Tensor α)) (maps : ChartMaps α) : Except (Fault α) (Chart α) := do
  let frame ← Frame.make label dim spacedim false
  let sub ← Frame.make "FlatManifold" dim chartdim false
  return ⟨frame, ← FlatSpace.make sub periods, maps⟩

def incomplete [Scalar α] : Except (Fault α) (Chart α) :=
  make "IncompleteChart" (.ofInt 1) (.ofInt 1) (.ofInt 1) none (.missing "IncompleteChart")

end Chart

/-- The maps of a chart that is given by formulas. Without formulas for the derivative the push
forward is differentiated. -/
def ChartMaps.ofFormulas [Scalar α] [Elementary α] (pull push : Formula α)
    (gradient : Option (Formula α)) : ChartMaps α where
  pullBack := pull.eval
  pushForward := push.eval
  gradient :=
    match gradient with
    | some g => .given g.eval
    | none => .derived push.jacobian
  traced := false

def Gradient.isDerived : Gradient α → Bool
  | .given _ => false
  | .derived _ => true

def ChartMaps.withoutDifferentiation (m : ChartMaps α) : ChartMaps α where
  pullBack := m.pullBack
  pushForward := if m.traced then fun _ => .error .toolMissing else m.pushForward
  gradient :=
    match m.gradient with
    | .given map => .given map
    | .derived _ => .derived fun _ => .error .differentiationUnavailable
  traced := m.traced

def Manifold.withoutDifferentiation [Scalar α] : Manifold α → Manifold α
  | .chart c => .chart { c with maps := c.maps.withoutDifferentiation }
  | m => m

end VertexPlacement
