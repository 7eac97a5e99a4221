import VertexPlacement.Datum

namespace VertexPlacement

inductive Breach where
  | manifold
  | hookMissing
  | impossibleInDimension
  | pointOutOfBounds
  | invalidQuadrature
  | dimensionMismatch
  deriving DecidableEq

inductive FaultKind where
  | breach (b : Breach)
  | badValue
  | badType
  | badIndex
  | badKey
  | overflow
  | wordFactor
  | noAttribute
  | unavailable
  | toolMissing
  | notImplemented
  | frozen
  | missingName
  | badRequest
  deriving DecidableEq

/-- Every breach is also a breach in general, and of one or two common sorts besides. -/
def Breach.lineage : Breach → List FaultKind
  | manifold => [.breach .manifold]
  | hookMissing => [.breach .hookMissing, .breach .manifold, .notImplemented, .unavailable]
  | b => [.breach b, .breach .manifold, .badValue]

inductive QuadratureDefect (α : Type) where
  | pointsShape (shape : List Nat)
  | weightsShape (shape : List Nat)
  | empty
  | counts (points weights : Nat)
  | infiniteWeight
  | negativeWeight
  | weightSum (total : α)

inductive Mismatch where
  | quadrature (found expected : String)
  | point (found : Nat) (expected : String)
  | pullBack (found : Nat) (expected : String)
  | gradient (found : List Nat) (height width : String)

inductive Hook where
  | projection
  | pullBack
  | pushForward

inductive Operation where
  | defaultQuadrature
  | newPointOnQuad
  | newPointOnHex
  | newPointOnFace

inductive Fault (α : Type) where
  | hookMissing (owner : String) (hook : Hook)
  | impossible (dim : String) (operation : Operation)
  | outsideBox (sample : Nat) (coordinate period : α)
  | quadrature (defect : QuadratureDefect α)
  | mismatch (m : Mismatch)
  | dimUnsupported (dim : String)
  | spacedimTooSmall (spacedim dim : String)
  | periodCount (expected : String) (found : Nat)
  | negativePeriod
  | fractionOutOfRange (weight : Datum α)
  | notVectorValued (shape : List Nat)
  | notWrappable (given : String)
  | wrapperUnavailable
  | noRandomPoint
  | differentiationUnavailable
  | toolMissing
  | badValue
  | badType
  | badIndex
  | badKey
  | overflow
  | wordFactor
  | noAttribute
  | frozen
  | missingName (name : String)
  | unknownOperation (name : String)
  | unknownManifold (name : String)

variable {α : Type}

namespace QuadratureDefect

def message (spell : α → String) : QuadratureDefect α → String
  | pointsShape shape => "points must be a 2-dimensional array; got shape " ++ shapeText shape
  | weightsShape shape => "weights must be a 1-dimensional array; got shape " ++ shapeText shape
  | empty => "A quadrature needs at least one sample point"
  | counts points weights =>
    "Got " ++ toString points ++ " points but " ++ toString weights ++ " weights"
  | infiniteWeight => "Weights must be finite"
  | negativeWeight => "Weights must be non-negative"
  | weightSum total => "Weights should sum to 1; got " ++ spell total

end QuadratureDefect

namespace Mismatch

def message : Mismatch → String
  | quadrature found expected =>
    "Quadrature lives in " ++ found ++ "-space; manifold expects spacedim=" ++ expected
  | point found expected =>
    "Expected a point with " ++ expected ++ " coordinates; got shape " ++ shapeText [found]
  | pullBack found expected =>
    "pull_back() returned shape " ++ shapeText [found] ++ "; expected (" ++ expected ++ ",)"
  | gradient found height width =>
    "push_forward_gradient() returned shape " ++ shapeText found ++ "; expected (" ++
      height ++ ", " ++ width ++ ")"

end Mismatch

def Hook.text : Hook → String
  | projection => "project_to_manifold"
  | pullBack => "pull_back"
  | pushForward => "push_forward"

def Operation.text : Operation → String
  | defaultQuadrature => "Building a default quadrature"
  | newPointOnQuad => "get_new_point_on_quad"
  | newPointOnHex => "get_new_point_on_hex"
  | newPointOnFace => "get_new_point_on_face"

def impossibleText (dim : String) : Option String → String
  | none => "Impossible in dimension " ++ dim
  | some operation => operation ++ " is impossible in dimension " ++ dim

namespace Fault

def kind : Fault α → FaultKind
  | hookMissing _ _ => .breach .hookMissing
  | impossible _ _ => .breach .impossibleInDimension
  | outsideBox _ _ _ => .breach .pointOutOfBounds
  | quadrature _ => .breach .invalidQuadrature
  | mismatch _ => .breach .dimensionMismatch
  | dimUnsupported _ | spacedimTooSmall _ _ | periodCount _ _ | negativePeriod
  | fractionOutOfRange _ | notVectorValued _ | badValue => .badValue
  | notWrappable _ | badType => .badType
  | wrapperUnavailable | differentiationUnavailable => .unavailable
  | noRandomPoint | noAttribute => .noAttribute
  | badIndex => .badIndex
  | badKey => .badKey
  | overflow => .overflow
  | wordFactor => .wordFactor
  | toolMissing => .toolMissing
  | frozen => .frozen
  | missingName _ => .missingName
  | unknownOperation _ | unknownManifold _ => .badRequest

def message (spell : α → String) : Fault α → Option String
  | hookMissing owner hook => some (owner ++ " does not implement " ++ hook.text ++ "()")
  | impossible dim operation => some (impossibleText dim (some operation.text))
  | outsideBox sample coordinate period => some
    ("One of the points does not lie in the periodic box: sample " ++ toString sample ++
      " has coordinate np.float64(" ++ spell coordinate ++ ") outside [0, np.float64(" ++
      spell period ++ "))")
  | quadrature defect => some (defect.message spell)
  | mismatch m => some m.message
  | dimUnsupported dim => some ("dim must be one of (1, 2, 3); got " ++ dim)
  | spacedimTooSmall spacedim dim => some
    ("spacedim (" ++ spacedim ++ ") must not be smaller than dim (" ++ dim ++ ")")
  | periodCount expected found => some
    ("periodicity must have " ++ expected ++ " entries; got shape " ++ shapeText [found])
  | negativePeriod => some "periodicity entries must be non-negative (0 = not periodic)"
  | fractionOutOfRange weight => some
    ("weight must lie in [0, 1]; got " ++ weight.text spell)
  | notVectorValued shape => some
    ("Only manifolds with vector-valued points can be used for mesh refinement; " ++
      "got points of shape " ++ shapeText shape)
  | notWrappable given => some
    ("Expected a pymanopt.manifolds.manifold.Manifold instance; got <class '" ++ given ++ "'>")
  | wrapperUnavailable => some
    "pymanopt is required to construct a manifold from a pymanopt manifold"
  | noRandomPoint => some "Underlying manifold does not expose random_point()"
  | differentiationUnavailable => some
    ("JAX is required for automatic Jacobians. Install ManifoldRefine with the 'jax' extra " ++
      "or override push_forward_gradient() with an analytic version.")
  | missingName name => some name
  | unknownOperation name => some ("unknown op " ++ name)
  | unknownManifold name => some ("unknown manifold kind " ++ name)
  | toolMissing | badValue | badType | badIndex | badKey | overflow | wordFactor | noAttribute
  | frozen => none

def fitted {β : Type} : Option β → Except (Fault α) β
  | some b => .ok b
  | none => .error .badValue

end Fault

end VertexPlacement
