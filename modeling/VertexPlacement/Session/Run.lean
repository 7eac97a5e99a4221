import VertexPlacement.Session.Change
import VertexPlacement.Session.Command
import VertexPlacement.Session.Manifolds
import VertexPlacement.Session.Quadratures

namespace VertexPlacement.Session

section Values

def defaultQuadrature (e : CellSamples Float) (dim : Datum Float) (smooth : Bool) :
    Except (Fault Float) (Quadrature Float) := do
  match (← dim.compared).whole? with
  | some (.ofNat n) =>
    if n ∈ Cell.supportedDims then e.quadrature n smooth
    else .error (.impossible (quote dim) .defaultQuadrature)
  | _ => .error (.impossible (quote dim) .defaultQuadrature)

/-- Reads a value as a point. No value has a number of coordinates that is not a natural one. -/
def pointWith (value spacedim : Datum Float) : Except (Fault Float) (Tensor Float) := do
  let t ← value.toTensor
  match (← spacedim.compared).whole? with
  | some (.ofNat n) => return .ofVector (← asPoint t n (quote spacedim))
  | _ => .error (.mismatch (.point t.size (quote spacedim)))

def isBelow (x : Float) (tolerance : Datum Float) : Except (Fault Float) Bool := do
  match ← tolerance.compared with
  | .whole n => return Decimal.isBelow x n
  | .flag b => return decide (x < if b then 1.0 else 0.0)
  | .real y => return decide (x < y)
  | _ => .error .badType

/-- Validates with a loose tolerance, which is needed only for the sum of the weights. -/
def validate (q : Quadrature Float) (tolerance : Option (Datum Float)) :
    Except (Fault Float) Unit :=
  match tolerance with
  | none => q.validate Quadrature.weightSumTolerance
  | some d => do
    Quadrature.checkSigns q.weights
    if ← isBelow (Quadrature.weightError q.weights) d then return
    else .error (.quadrature (.weightSum (Scalar.sum q.weights)))

def breachText : List (Datum Float) → String
  | [] => ""
  | [d] => quote d
  | args => "(" ++ Datum.itemsText spell args ++ ")"

def describeBreach (b : Breach) (args : List (Datum Float)) : Except (Fault Float) Shown :=
  match b, args with
  | .impossibleInDimension, [dim] =>
    .ok (.breach b (impossibleText (quote dim) none) (some (dim, .missing)))
  | .impossibleInDimension, [dim, operation] =>
    let named :=
      match operation with
      | .missing => none
      | d => some (quote d)
    .ok (.breach b (impossibleText (quote dim) named) (some (dim, operation)))
  | .impossibleInDimension, _ => .error .badType
  | b, args => .ok (.breach b (breachText args) none)

end Values

namespace Action

section Queries

def place (m : Declared) (q : Quadrature Float) :
    Except (Fault Float) (Tensor Float) × List Note :=
  (m.newPoint q, m.notes q)

def offers (m : Declared) (f : Operator) : Bool :=
  match f with
  | .pullBack | .pushForward | .gradient =>
    match m.manifold with
    | .chart _ => true
    | _ => false
  | .randomPoint =>
    match m.manifold with
    | .projected _ => true
    | _ => false
  | .project | .intermediatePoint | .tangent => true

def apply (m : Declared) (f : Operator) (args : List (Datum Float)) :
    Except (Fault Float) (Except (Fault Float) (Tensor Float) × List Note) := do
  match f, args with
  | .intermediatePoint, [p1, p2, weight] => return place m (← m.segmentQuadrature p1 p2 weight)
  | .project, [samples, candidate] => return (.ok (← m.projection samples candidate), [])
  | .tangent, [x1, x2] => return (.ok (← m.tangent x1 x2), [])
  | .pullBack, [p] => return (.ok (← m.maps.pullBack p), [])
  | .pushForward, [p] => return (.ok (← m.maps.pushForward p), [])
  | .gradient, [p] => return (.ok (← m.maps.gradient p), [])
  | .randomPoint, [] => return (.ok (← m.randomPoint), [])
  | _, _ => .error .badType

/-- The answer to a question, with the notes of new points. That there is such an operation is seen
before its arguments are looked up, and their number is seen after that. -/
def query (m : Declared) (query : Query) :
    Action (Except (Fault Float) (Tensor Float) × List Note) :=
  match query with
  | .newPoint (.named name) => do
    match ← stored name with
    | .quadrature q => return place m q
    | .manifold other => throw (m.misplaced other)
    | _ => throw .noAttribute
  | .newPoint q => do return place m (← quadrature q)
  | .newPointOn site e => do return place m (← m.manifold.quadratureOn site (← samples e))
  | .apply f args => do
    if offers m f then
      let args ← args.mapM resolve
      apply m f args
    else throw .noAttribute
  | .unknown => throw .noAttribute

/-- Whether an answer is a fixed array, as results of tracing are, unless they were computed in
single precision. -/
def answersFixed (m : Declared) (query : Query) : Bool :=
  match query with
  | .newPoint _ | .newPointOn _ _ => m.isTraced
  | .apply .project _ | .apply .intermediatePoint _ => m.isTraced
  | .apply .pushForward args => m.isTraced && !args.any Polar.pushesNarrow
  | .apply .gradient _ => m.hasDerivedGradient
  | _ => false

end Queries

section Commands

def showEntity (place : Nat) : Action Shown := do
  let mesh := (← get).mesh
  let n ← mesh.node place
  return .entity n.vertices.length (!n.children.isEmpty) (← (Entity.bare n.vertices).center)

def showStored : Stored → Action Shown
  | .array t _ => return .array t
  | .quadrature q => return .quadrature q
  | .manifold m => return .manifold m
  | .entity place => showEntity place

def manifoldWith (tools : Tools) (s : ManifoldSpec) : Action Declared := do
  let m ← manifold tools s
  return if tools.differentiation then m else m.withoutDifferentiation

def quadratureOf (e : EntitySpec) (dim : Datum Float) (smooth : Bool) :
    Action (Quadrature Float) := do
  defaultQuadrature (← samples e) dim smooth

def defined (tools : Tools) (d : Definition) : Action Stored := do
  match d with
  | .quadrature (.named name) | .manifold (.named name) | .entity (.named name) => stored name
  | .array d => return .array (← (← resolve d).toTensor) false
  | .quadrature q => return .quadrature (← quadrature q)
  | .manifold m => return .manifold (← manifold tools m)
  | .entity e => return .entity (← entityPlace e)
  | .defaultQuadrature e dim smooth => return .quadrature (← quadratureOf e dim smooth)

def define (tools : Tools) (name : String) (d : Definition) : Action Shown := do
  let s ← defined tools d
  let shown ← showStored s
  modify fun w => w.bind name s
  return shown

def forEach (args : List (Datum Float))
    (f : Tensor Float → Except (Fault Float) (Tensor Float)) :
    Action (List (Except (Fault Float) (Tensor Float))) := do
  let w ← get
  return args.map fun d => do f (← (← w.resolve d).toTensor)

def jacobian (tools : Tools) (f point : Datum Float) : Action (Tensor Float) := do
  let f ← resolve f
  let point ← resolve point
  if !tools.differentiation then throw .differentiationUnavailable
  else (Formula.ofDatum f).jacobian (← point.toTensor).entries

def linearize (tools : Tools) (f point : Datum Float) (directions covectors : List (Datum Float)) :
    Action Shown := do
  let f ← resolve f
  let point ← resolve point
  if !tools.differentiation then throw .differentiationUnavailable
  else
    let l ← (Formula.ofDatum f).linearize (← point.toTensor).entries
    let images ← forEach directions l.apply
    return .linearization l.shape images (← forEach covectors l.applyTransposed)

def perform (tools : Tools) (c : Command) : Action Shown :=
  match c with
  | .quadrature q => do return .quadrature (← quadrature q)
  | .validate q tolerance => do
    let q ← quadrature q
    validate q (← tolerance.mapM resolve)
    return .valid
  | .average points weights => do
    let p ← (← resolve points).toTensor
    return .array (← averageItems p (← (← resolve weights).toTensor))
  | .point value spacedim => do
    let value ← resolve value
    return .array (← pointWith value spacedim)
  | .defaultQuadrature e dim smooth => do return .quadrature (← quadratureOf e dim smooth)
  | .manifold m => do return .manifold (← manifold tools m)
  | .entity e path => do showEntity (← follow path (← entityPlace e))
  | .jacobian f point => do return .array (← jacobian tools f point)
  | .linearize f point directions covectors => linearize tools f point directions covectors
  | .breach b args => describeBreach b args
  | .constants => return .constants
  | .define name d => define tools name d
  | .recall name => do showStored (← stored name)
  | .refine e r => do showEntity (← refine (← entityPlace e) r)
  | .poke name field index value => do return .array (← poke name field index value)
  | .assign name field value => do
    assign name field value
    return .assigned
  | .unknown op => throw (.unknownOperation op)
  | .call _ _ _ => throw .badType

end Commands

end Action

namespace Workspace

def call (w : Workspace) (tools : Tools) (m : ManifoldSpec) (query : Query)
    (save : Option String) : Workspace × Reply :=
  let asked : Action (Bool × Except (Fault Float) (Tensor Float) × List Note) := do
    let m ← Action.manifoldWith tools m
    return (Action.answersFixed m query, ← Action.query m query)
  match asked.run w with
  | .error e => (w, ⟨.error e, []⟩)
  | .ok ((_, .error e, notes), _) => (w, ⟨.error e, notes⟩)
  | .ok ((isFixed, .ok t, notes), w) =>
    let w :=
      match save with
      | some name => w.bind name (.array t isFixed)
      | none => w
    (w, ⟨.ok (.array t), notes⟩)

def run (w : Workspace) (tools : Tools) (c : Command) : Workspace × Reply :=
  match c with
  | .call m query save => w.call tools m query save
  | c =>
    match (Action.perform tools c).run w with
    | .error e => (w, ⟨.error e, []⟩)
    | .ok (shown, w) => (w, ⟨.ok shown, []⟩)

end Workspace

def runAll (w : Workspace) : List (Tools × Command) → Workspace × List Reply
  | [] => (w, [])
  | (tools, c) :: rest =>
    let (w, reply) := w.run tools c
    let (w, replies) := runAll w rest
    (w, reply :: replies)

end VertexPlacement.Session
