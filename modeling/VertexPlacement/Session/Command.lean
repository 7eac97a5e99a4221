import VertexPlacement.Session.Spec
import VertexPlacement.Session.Workspace

namespace VertexPlacement.Session

inductive Operator where
  | project
  | intermediatePoint
  | tangent
  | pullBack
  | pushForward
  | gradient
  | randomPoint
  deriving DecidableEq

inductive Query where
  | newPoint (q : QuadratureSpec)
  | newPointOn (site : Manifold.Site) (e : EntitySpec)
  | apply (f : Operator) (args : List (Datum Float))
  | unknown

inductive Definition where
  | array (d : Datum Float)
  | quadrature (q : QuadratureSpec)
  | manifold (m : ManifoldSpec)
  | entity (e : EntitySpec)
  | defaultQuadrature (e : EntitySpec) (dim : Datum Float) (smooth : Bool)

inductive Command where
  | quadrature (q : QuadratureSpec)
  | validate (q : QuadratureSpec) (tolerance : Option (Datum Float))
  | average (points weights : Datum Float)
  | point (value spacedim : Datum Float)
  | defaultQuadrature (e : EntitySpec) (dim : Datum Float) (smooth : Bool)
  | manifold (m : ManifoldSpec)
  | entity (e : EntitySpec) (path : List LooseStep)
  | call (m : ManifoldSpec) (query : Query) (save : Option String)
  | jacobian (f point : Datum Float)
  | linearize (f point : Datum Float) (directions covectors : List (Datum Float))
  | breach (b : Breach) (args : List (Datum Float))
  | constants
  | define (name : String) (d : Definition)
  | recall (name : String)
  | refine (e : EntitySpec) (r : Refinement)
  | poke (name : String) (field : Option String) (index : List (Datum Float))
    (value : Datum Float)
  | assign (name field : String) (value : Datum Float)
  | unknown (op : String)

inductive Shown where
  | array (t : Tensor Float)
  | quadrature (q : Quadrature Float)
  | manifold (m : Declared)
  | entity (vertexCount : Nat) (hasChildren : Bool) (center : Tensor Float)
  | valid
  | assigned
  | linearization (shape : Nat × Nat) (images pulled : List (Except (Fault Float) (Tensor Float)))
  | breach (b : Breach) (message : String) (cause : Option (Datum Float × Datum Float))
  | constants

structure Reply where
  result : Except (Fault Float) Shown
  notes : List Note

end VertexPlacement.Session
