import VertexPlacement.Session.Entities
import VertexPlacement.Tensor.Selection

namespace VertexPlacement.Session

section Entries

/-- An item of an index. A list of flags is a mask, and a list of whole numbers lists places. -/
def readPick (d : Datum Float) : Except (Fault Float) Pick := do
  match d with
  | .whole n => return .place n
  | .missing => return .added
  | .flag b => return .marked (.scalar b)
  | .list _ =>
    let _ ← d.extents
    if d.content = .flags then return .marked ((← d.toTensor).map (· != 0.0))
    else if d.content = .numbers && d.leaves.all fun leaf => leaf.isWhole || leaf.isFlag then
      return .listed ((← d.toTensor).map fun x => (Decimal.whole? x).getD 0)
    else .error .badIndex
  | _ => .error .badIndex

def fill (extents : List Nat) (value : Datum Float) : Except (Fault Float) (List Float) := do
  let t ← value.toTensor
  let surplus := t.shape.length - extents.length
  if (t.shape.take surplus).any (· ≠ 1) then .error .badValue
  else
    let s := Tensor.padShape extents.length (t.shape.drop surplus)
    if Tensor.joinExtents? s extents = some extents then return Tensor.spread s extents t.entries
    else .error .badValue

def isTooDeep (extents : List Nat) (value : Datum Float) : Except (Fault Float) Bool := do
  let shape ← value.extents
  return value.isList && decide (extents.length < shape.length)

def bounded {β : Type} : Option β → Except (Fault Float) β
  | some b => .ok b
  | none => .error .badIndex

/-- Assigns to a part of an array that is given by single places. A full index leads to a single
entry, which takes a single value. -/
def assignPlain (t : Tensor Float) (index : List Pick) (value : Datum Float) :
    Except (Fault Float) (Tensor Float) := do
  let part ← bounded (Selection.plain? t.shape index)
  if index.length = t.shape.length ∧ part.extents.isEmpty then
    return t.replace part.places [← value.entry]
  else if ← isTooDeep part.extents value then .error .badValue
  else return t.replace part.places (← fill part.extents value)

def assignMarked (t : Tensor Float) (mask : Tensor Bool) (value : Datum Float) :
    Except (Fault Float) (Tensor Float) := do
  let v ← value.toTensor
  let places := mask.entries.zipIdx.filterMap fun (marked, k) => if marked then some k else none
  match v.shape, v.entries with
  | _ :: _ :: _, _ => .error .badType
  | _, [x] => return t.replace places (places.map fun _ => x)
  | _, xs => if xs.length = places.length then return t.replace places xs else .error .badValue

/-- Assigns to what several picks lead to. The value is read before the picks are looked up. -/
def assignPicked (t : Tensor Float) (index : List Pick) (value : Datum Float) :
    Except (Fault Float) (Tensor Float) := do
  let (front, picks, back) := Selection.arrange (← bounded (Selection.axes? t.shape index))
  let shape ← bounded (Selection.pickedExtents? picks)
  let xs ← fill (Selection.assemble shape front back []).extents value
  let places ← bounded (Selection.pickedPlaces? shape picks)
  return t.replace (Selection.assemble shape front back places).places xs

def assignAt (t : Tensor Float) (index : List (Datum Float)) (value : Datum Float) :
    Except (Fault Float) (Tensor Float) := do
  let index ← index.mapM readPick
  match index with
  | [.marked mask] =>
    if mask.shape = t.shape then assignMarked t mask value else assignPicked t index value
  | index =>
    if index.all Pick.isSingle then assignPlain t index value else assignPicked t index value

end Entries

section Fields

def fieldsOf (m : Manifold Float) : List String :=
  ["dim", "spacedim", "laplace_smoothing"] ++
    match m with
    | .flat _ _ => ["periodicity"]
    | .chart _ => ["chartdim", "chart_periodicity", "sub_manifold"]
    | .projected _ => ["project_point", "name", "data"]
    | .plain _ _ => []

def operationsOf (m : Manifold Float) : List String :=
  ["project_to_manifold", "get_new_point", "get_new_point_on_line", "get_new_point_on_quad",
    "get_new_point_on_hex", "get_new_point_on_face", "get_new_point_on_cell",
    "get_intermediate_point", "get_tangent_vector"] ++
    match m with
    | .flat _ _ => ["is_periodic"]
    | .chart _ => ["pull_back", "push_forward", "push_forward_gradient"]
    | .projected _ => ["random_point", "from_pymanopt"]
    | .plain _ _ => []

def arraysOf : Stored → List String
  | .quadrature _ => ["points", "weights"]
  | .manifold m =>
    match m.manifold with
    | .flat _ _ => ["periodicity"]
    | .chart _ => ["chart_periodicity"]
    | _ => []
  | _ => []

def attributesOf : Stored → List String
  | .quadrature _ => ["size", "spacedim", "check", "from_pairs", "validate"]
  | .manifold m => fieldsOf m.manifold ++ operationsOf m.manifold
  | .entity _ => ["vertex", "vertex_count", "has_children", "child", "isotropic_child", "center",
      "line", "face"]
  | .array _ _ => ["shape", "ndim", "size"]

def fieldFault (s : Stored) (field : String) : Fault Float :=
  if field ∈ arraysOf s then .badValue else .badType

def closedClasses : List String :=
  ["Manifold", "FlatManifold", "ManifoldChart", "ProjectedManifold"]

/-- Setting a field fails, unless it is a new one on a manifold that is open for them. A property
is none. -/
def checkAssign (s : Stored) (field : String) : Except (Fault Float) Unit :=
  match s with
  | .quadrature _ => .error .frozen
  | .manifold m =>
    if m.frame.label ∈ closedClasses ∨ field ∈ fieldsOf m.manifold then .error .frozen
    else if field = "is_periodic" ∧ field ∈ operationsOf m.manifold then .error .noAttribute
    else .ok ()
  | .array _ _ => .error .noAttribute
  | .entity _ => .ok ()

end Fields

namespace Action

/-- Changes an array, and returns it. A field is looked up before the value is. -/
def poke (name : String) (field : Option String) (index : List (Datum Float))
    (value : Datum Float) : Action (Tensor Float) := do
  let s ← stored name
  match field with
  | some field =>
    if field ∈ arraysOf s ++ attributesOf s then
      let _ ← resolve value
      throw (fieldFault s field)
    else throw .noAttribute
  | none =>
    let value ← resolve value
    match s with
    | .array t false =>
      let changed ← assignAt t index value
      modify fun w => w.bind name (.array changed false)
      return changed
    | .array _ true => throw .badValue
    | _ => throw .badType

def assign (name field : String) (value : Datum Float) : Action Unit := do
  let s ← stored name
  let _ ← resolve value
  checkAssign s field

end Action

end VertexPlacement.Session
