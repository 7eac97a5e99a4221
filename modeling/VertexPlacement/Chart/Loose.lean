import VertexPlacement.Chart.Polar
import VertexPlacement.Datum.Argument

namespace VertexPlacement

structure LooseMaps where
  pullBack : Datum Float → Except (Fault Float) (Tensor Float)
  pushForward : Datum Float → Except (Fault Float) (Tensor Float)
  gradient : Datum Float → Except (Fault Float) (Tensor Float)

namespace LooseMaps

def ofArrays (c : Chart Float) : LooseMaps where
  pullBack d := do c.maps.pullBack (← d.toTensor)
  pushForward d := do c.maps.pushForward (← d.toTensor)
  gradient d := do c.gradientAt (← d.toTensor)

def missing (c : Chart Float) : LooseMaps where
  pullBack _ := c.maps.pullBack (.ofList [])
  pushForward _ := c.maps.pushForward (.ofList [])
  gradient d := do c.gradientAt (← d.toTensor)

/-- The maps on a machine that cannot differentiate, of a chart that is already on one. -/
def withoutDifferentiation (c : Chart Float) (m : LooseMaps) : LooseMaps where
  pullBack := m.pullBack
  pushForward := if c.maps.traced then fun _ => .error .toolMissing else m.pushForward
  gradient :=
    if c.maps.gradient.isDerived then fun d => do c.gradientAt (← d.toTensor) else m.gradient

end LooseMaps

namespace Polar

def loosePolarOf (x y : Datum Float) :
    Except (Fault Float) (Tensor Float × Tensor Float × Bool) := do
  let (u, v) ← Argument.readBoth x y
  let (r, a) ← polarOf u.values v.values
  let coarse := u.coarse && v.coarse
  return (Argument.settle coarse r, Argument.settle coarse a, coarse)

def loosePullBack (d : Datum Float) : Except (Fault Float) (Tensor Float) := do
  match ← d.items with
  | [x, y] =>
    let (r, a, _) ← loosePolarOf x y
    assemble [r, a]
  | _ => .error .badValue

/-- A distance as a factor, with the cosine and the sine of an angle. Products of the factor may be
coarse. -/
structure Turn where
  factor : Tensor Float
  cosine : Tensor Float
  sine : Tensor Float
  coarse : Bool

def looseTurn (r a : Datum Float) : Except (Fault Float) Turn := do
  let u ← Argument.read a
  let f ← u.factor r
  let coarse := u.staysCoarse r
  return ⟨Argument.settle coarse f, u.map Float.cos, u.map Float.sin, coarse⟩

def Turn.scaled (t : Turn) : Except (Fault Float) (Tensor Float × Tensor Float) := do
  let (x, y) ← Polar.scaled t.factor t.cosine t.sine
  return (Argument.settle t.coarse x, Argument.settle t.coarse y)

def loosePushForward (d : Datum Float) : Except (Fault Float) (Tensor Float) := do
  match ← d.items with
  | [r, a] =>
    let (x, y) ← (← looseTurn r a).scaled
    assemble [x, y]
  | _ => .error .badValue

/-- The turn for derivatives. The distance is negated, which only a number or an array can be. -/
def looseNegatable (r a : Datum Float) : Except (Fault Float) Turn := do
  let _ ← Argument.read a
  match r with
  | .flag _ | .whole _ | .real _ | .array _ => looseTurn r a
  | _ => .error .badType

def looseGradient (d : Datum Float) : Except (Fault Float) (Tensor Float) := do
  match ← d.items with
  | [r, a] =>
    let t ← looseNegatable r a
    return Argument.settle t.coarse (← slopes t.factor t.cosine t.sine)
  | _ => .error .badValue

section Traced

def isTraceable (n : Int) : Bool := decide (-Int.pow 2 63 ≤ n) && decide (n < Int.pow 2 63)

def tracedNumber : Datum Float → Except (Fault Float) (Tensor Float)
  | .whole n =>
    if isTraceable n then do return .scalar (← Datum.wholeNumber n) else .error .overflow
  | .flag b => .ok (.scalar (if b then 1.0 else 0.0))
  | .real x => .ok (.scalar x)
  | .array t => .ok t
  | _ => .error .badType

/-- The fault of tracing what is no number. It is taken apart first, and words are refused before
whole numbers that are too long. -/
def untraceable (d : Datum Float) : Fault Float :=
  let parts : List (Datum Float) :=
    match d with
    | .record fields => fields.flatMap fun f => f.2.leaves
    | d => d.leaves
  let isTooLong (part : Datum Float) :=
    match part with
    | .whole n => !isTraceable n
    | _ => false
  if parts.any isTooLong && !parts.any Datum.isWord then .overflow else .badType

def tracedAngle (a : Datum Float) : Except (Fault Float) (Tensor Float) :=
  match a with
  | .list _ | .record _ => .error (untraceable a)
  | a => tracedNumber a

def narrow (single : Bool) (t : Tensor Float) : Tensor Float :=
  if single then t.map Format.single.round else t

/-- Whether a traced push forward is computed in single precision: that of a single distance, with
a flag as its angle. -/
def isNarrow (r a : Datum Float) : Bool :=
  a.isFlag &&
    match r with
    | .array _ => false
    | _ => true

/-- A traced push forward. The angle is looked at first. -/
def tracedPush (r a : Datum Float) : Except (Fault Float) (Tensor Float) := do
  let angle ← tracedAngle a
  let f ← tracedNumber r
  if (Tensor.combine? (· * ·) f angle).isNone ∧ f.shape.length = angle.shape.length then
    .error .badType
  else
    let c := narrow a.isFlag (angle.map Float.cos)
    let s := narrow a.isFlag (angle.map Float.sin)
    let single := isNarrow r a
    return narrow single (← place (narrow single f) c s)

def loosePushFirstTwo : Datum Float → Except (Fault Float) (Tensor Float)
  | .array t => pushFirstTwo t
  | .list (r :: a :: _) => tracedPush r a
  | .list _ => .error .badIndex
  | .word s => if s.length < 2 then .error .badIndex else .error .badType
  | .record _ => .error .badKey
  | _ => .error .badType

def pushesNarrow : Datum Float → Bool
  | .list (r :: a :: _) => isNarrow r a
  | _ => false

end Traced

end Polar

namespace Cylindrical

def looseHeight (shape : List Nat) (z : Datum Float) : Except (Fault Float) (Tensor Float) :=
  if shape.isEmpty then do return .scalar (← z.itemEntry z)
  else do
    if (← z.extents) = shape then z.tensorBy z.itemEntry else .error .badValue

def loosePullBack (d : Datum Float) : Except (Fault Float) (Tensor Float) := do
  match ← d.items with
  | [x, y, z] =>
    let (r, a, coarse) ← Polar.loosePolarOf x y
    Polar.assemble [Argument.respell coarse z r, a, ← looseHeight [] z]
  | _ => .error .badValue

def loosePushForward (d : Datum Float) : Except (Fault Float) (Tensor Float) := do
  match ← d.items with
  | [r, a, z] =>
    let t ← Polar.looseTurn r a
    let (x, y) ← t.scaled
    let height ← looseHeight x.shape z
    Polar.assemble [Argument.respell t.coarse z x, Argument.respell t.coarse z y, height]
  | _ => .error .badValue

def looseGradient (d : Datum Float) : Except (Fault Float) (Tensor Float) := do
  match ← d.items with
  | [r, a, _] =>
    let t ← Polar.looseNegatable r a
    return Argument.settle t.coarse (← Polar.spatialSlopes t.factor t.cosine t.sine)
  | _ => .error .badValue

end Cylindrical

namespace LooseMaps

def polar : LooseMaps := ⟨Polar.loosePullBack, Polar.loosePushForward, Polar.looseGradient⟩

def differentiatedPolar (c : Chart Float) : LooseMaps where
  pullBack := Polar.loosePullBack
  pushForward := Polar.loosePushFirstTwo
  gradient d := do c.gradientAt (← d.toTensor)

def cylindrical : LooseMaps :=
  ⟨Cylindrical.loosePullBack, Cylindrical.loosePushForward, Cylindrical.looseGradient⟩

end LooseMaps

end VertexPlacement
