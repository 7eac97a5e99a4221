import VertexPlacement.Average

namespace VertexPlacement.Periodic

variable {α : Type} [Scalar α]

def boxTolerance : α := Scalar.ratio 1 (Nat.pow 10 10)

def outside (period x : α) : Bool := decide (x < -boxTolerance) || decide (period ≤ x)

def lowest : List α → α
  | [] => 0
  | x :: rest => rest.foldl Scalar.least x

/-- A coordinate more than half a period above the lowest one is nearer to it from below. -/
def wraps (period low x : α) : Bool := decide (Scalar.half period < x - low)

def lowestOf (column : List (Weighted α)) : α := lowest (column.map Weighted.value)

def unwrap (period : α) (column : List (Weighted α)) : List (Weighted α) :=
  column.map fun s =>
    if wraps period (lowestOf column) s.value then ⟨s.value - period, s.weight⟩ else s

def wrapCount (period : α) (column : List (Weighted α)) : Nat :=
  column.countP fun s => wraps period (lowestOf column) s.value

/-- Maps a coordinate back into the box. A small negative one may be lifted to the period itself
by rounding, so that a second step is needed. -/
def fold (period x : α) : α :=
  let lifted := if x < 0 then x + period else x
  if period ≤ lifted then lifted - period else lifted

def average (period : α) (column : List (Weighted α)) : α :=
  fold period (Weighted.average (unwrap period column))

def shortest (period t : α) : α :=
  let down := if Scalar.half period < t then t - period else t
  if down < -Scalar.half period then down + period else down

end VertexPlacement.Periodic
