import VertexPlacement.Chart.Maps

namespace VertexPlacement

variable {α : Type} [Scalar α] [Elementary α]

namespace Polar

def assemble (items : List (Tensor α)) : Except (Fault α) (Tensor α) :=
  Fault.fitted (Tensor.stack? items)

/-- The distance and the direction of a point. There is a direction of a single point only. -/
def polarOf (x y : Tensor α) : Except (Fault α) (Tensor α × Tensor α) := do
  let r ← Fault.fitted (Tensor.combine? Elementary.hypot x y)
  let a ← Fault.fitted (Tensor.combine? Elementary.direction x y)
  if r.shape = [] then return (r, a) else .error .badType

def scaled (r c s : Tensor α) : Except (Fault α) (Tensor α × Tensor α) := do
  let x ← Fault.fitted (Tensor.combine? (· * ·) r c)
  let y ← Fault.fitted (Tensor.combine? (· * ·) r s)
  return (x, y)

def place (r c s : Tensor α) : Except (Fault α) (Tensor α) := do
  let (x, y) ← scaled r c s
  assemble [x, y]

def slopes (r c s : Tensor α) : Except (Fault α) (Tensor α) := do
  let (_, down) ← scaled (r.map (-·)) c s
  let (along, _) ← scaled r c s
  assemble [← assemble [c, down], ← assemble [s, along]]

def spatialSlopes (r c s : Tensor α) : Except (Fault α) (Tensor α) := do
  let (_, down) ← scaled (r.map (-·)) c s
  let (along, _) ← scaled r c s
  let zero := Tensor.scalar 0
  let first ← assemble [c, down, zero]
  let second ← assemble [s, along, zero]
  assemble [first, second, .ofList [0, 0, 1]]

def pullBack (t : Tensor α) : Except (Fault α) (Tensor α) :=
  match t.items? with
  | some [x, y] => do
    let (r, a) ← polarOf x y
    assemble [r, a]
  | some _ => .error .badValue
  | none => .error .badType

def pushForward (t : Tensor α) : Except (Fault α) (Tensor α) :=
  match t.items? with
  | some [r, a] => place r (a.map Elementary.cos) (a.map Elementary.sin)
  | some _ => .error .badValue
  | none => .error .badType

def gradient (t : Tensor α) : Except (Fault α) (Tensor α) :=
  match t.items? with
  | some [r, a] => slopes r (a.map Elementary.cos) (a.map Elementary.sin)
  | some _ => .error .badValue
  | none => .error .badType

def pushFirstTwo (t : Tensor α) : Except (Fault α) (Tensor α) :=
  match t.items? with
  | some (r :: a :: _) => place r (a.map Elementary.cos) (a.map Elementary.sin)
  | _ => .error .badIndex

def formula : Formula α :=
  .array [
    .binary .mul (.coord 0) (.unary .cos (.coord 1)),
    .binary .mul (.coord 0) (.unary .sin (.coord 1))]

end Polar

namespace Cylindrical

def pullBack (t : Tensor α) : Except (Fault α) (Tensor α) :=
  match t.items? with
  | some [x, y, z] => do
    let (r, a) ← Polar.polarOf x y
    Polar.assemble [r, a, z]
  | some _ => .error .badValue
  | none => .error .badType

def pushForward (t : Tensor α) : Except (Fault α) (Tensor α) :=
  match t.items? with
  | some [r, a, z] => do
    let (x, y) ← Polar.scaled r (a.map Elementary.cos) (a.map Elementary.sin)
    Polar.assemble [x, y, z]
  | some _ => .error .badValue
  | none => .error .badType

def gradient (t : Tensor α) : Except (Fault α) (Tensor α) :=
  match t.items? with
  | some [r, a, _] => Polar.spatialSlopes r (a.map Elementary.cos) (a.map Elementary.sin)
  | some _ => .error .badValue
  | none => .error .badType

end Cylindrical

namespace Chart

def polarPeriods : Tensor α := .ofList [0, Elementary.turn]

def cylindricalPeriods : Tensor α := .ofList [0, Elementary.turn, 0]

def polar (dim : Dimension) : Except (Fault α) (Chart α) :=
  make "PolarChart" dim (.ofInt 2) (.ofInt 2) (some polarPeriods)
    ⟨Polar.pullBack, Polar.pushForward, .given Polar.gradient, false⟩

def differentiatedPolar (dim : Dimension) : Except (Fault α) (Chart α) :=
  make "JaxPolarChart" dim (.ofInt 2) (.ofInt 2) (some polarPeriods)
    ⟨Polar.pullBack, Polar.pushFirstTwo, .derived Polar.formula.jacobian, true⟩

def cylindrical : Except (Fault α) (Chart α) :=
  make "CylindricalChart" (.ofInt 3) (.ofInt 3) (.ofInt 3) (some cylindricalPeriods)
    ⟨Cylindrical.pullBack, Cylindrical.pushForward, .given Cylindrical.gradient, false⟩

end Chart

end VertexPlacement
