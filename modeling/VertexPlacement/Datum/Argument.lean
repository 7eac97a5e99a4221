import VertexPlacement.Datum.Reading
import VertexPlacement.Decimal.Shortest
import VertexPlacement.Tensor.Broadcast

namespace VertexPlacement

namespace Datum

/-- Values that have no functions. A whole number that stands alone has them at any length. -/
def lacksFunctions : Datum Float → Bool
  | whole _ => false
  | d => d.content == .mixed

def factorEntry : Datum Float → Except (Fault Float) Float
  | missing | word _ => .error .badType
  | d => entry d

def itemEntry (d : Datum Float) : Datum Float → Except (Fault Float) Float :=
  if d.content = .words then spelledEntry else entry

end Datum

structure Argument where
  coarse : Bool
  values : Tensor Float

namespace Argument

def settle (coarse : Bool) (t : Tensor Float) : Tensor Float :=
  if coarse then t.map Format.half.round else t

/-- Coarse numbers that become items beside words are spelled out and read again. -/
def respell (coarse : Bool) (beside : Datum Float) (t : Tensor Float) : Tensor Float :=
  if coarse && beside.content == .words then
    t.map fun x => (Decimal.read? (Decimal.textIn .half x)).getD x
  else t

def read (d : Datum Float) : Except (Fault Float) Argument := do
  let _ ← d.extents
  match d.content with
  | .flags => return ⟨true, ← d.toTensor⟩
  | .numbers => return ⟨false, ← d.toTensor⟩
  | .words | .mixed => .error .badType

/-- The arguments of a function of two numbers. That loose entries have no functions shows only
where there is something to compute. -/
def readBoth (x y : Datum Float) : Except (Fault Float) (Argument × Argument) := do
  let s ← x.extents
  let t ← y.extents
  if x.lacksFunctions || y.lacksFunctions then
    let joint ← Fault.fitted (Tensor.jointShape? s t)
    .error (if entryCount joint = 0 then .badType else .noAttribute)
  else if x.content = .words ∨ y.content = .words then .error .badType
  else return (⟨x.content == .flags, ← x.toTensor⟩, ⟨y.content == .flags, ← y.toTensor⟩)

def map (f : Float → Float) (a : Argument) : Tensor Float := settle a.coarse (a.values.map f)

/-- A factor of numbers that were computed. Lists are factors of arrays only, and their entries are
looked at where there is something to compute. -/
def factor (d : Datum Float) (a : Argument) : Except (Fault Float) (Tensor Float) := do
  match d with
  | .flag _ | .whole _ | .real _ | .array _ => d.toTensor
  | d =>
    if a.values.shape.isEmpty then .error .badType
    else
      let shape ← d.extents
      if d.content = .words then .error .wordFactor
      else
        let joint ← Fault.fitted (Tensor.jointShape? shape a.values.shape)
        d.tensorBy (if entryCount joint = 0 then fun _ => .ok 0.0 else Datum.factorEntry)

def staysCoarse (d : Datum Float) (a : Argument) : Bool :=
  a.coarse &&
    match d with
    | .list _ => d.content == .flags
    | .array _ => false
    | _ => true

end Argument

end VertexPlacement
