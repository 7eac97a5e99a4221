namespace VertexPlacement

/-- A number type with the four operations and decidable comparisons. Nothing is assumed of the
operations: they may round, overflow, or hold values that compare with nothing. -/
class Scalar (α : Type) extends Zero α, One α, NatCast α, Add α, Sub α, Mul α, Div α, Neg α,
    LT α, LE α where
  decLT : DecidableLT α
  decLE : DecidableLE α
  pow : α → Int → α

instance decidableLT {α : Type} [Scalar α] : DecidableLT α := Scalar.decLT

instance decidableLE {α : Type} [Scalar α] : DecidableLE α := Scalar.decLE

namespace Scalar

variable {α : Type} [Scalar α]

def ratio (m n : Nat) : α := (m : α) / (n : α)

def half (x : α) : α := x / ((2 : Nat) : α)

def magnitude (x : α) : α := if x < 0 then -x else x

/-- Infinite and undefined values leave no zero when taken from themselves. -/
def isFinite (x : α) : Bool := decide (x - x ≤ 0)

/-- The smaller of two numbers, the first of two equal ones. Of two that cannot be compared it is
their sum, which is then undefined as well. -/
def least (x y : α) : α := if x ≤ y then x else if y < x then y else x + y

def greatest (x y : α) : α := if y ≤ x then x else if x < y then y else x + y

def isZero (x : α) : Bool := decide (x ≤ 0) && decide (0 ≤ x)

/-- Adds the entries in eight lanes. The lanes are joined in pairs before the entries that fill no
further row of eight are added. -/
def laneSum (a b c d e f g h : α) : List α → α
  | p :: q :: r :: s :: t :: u :: v :: w :: rest =>
    laneSum (a + p) (b + q) (c + r) (d + s) (e + t) (f + u) (g + v) (h + w) rest
  | rest => rest.foldl (· + ·) (((a + b) + (c + d)) + ((e + f) + (g + h)))

def blockSum : List α → α
  | a :: b :: c :: d :: e :: f :: g :: h :: rest => laneSum a b c d e f g h rest
  | xs => xs.foldl (· + ·) 0

/-- The sum of a list. Long lists are cut in two at a multiple of eight and the halves are summed
on their own, so that rounding errors stay small. -/
def sum (xs : List α) : α :=
  if xs.length ≤ 128 then blockSum xs
  else
    let n := xs.length / 2 - xs.length / 2 % 8
    sum (xs.take n) + sum (xs.drop n)
termination_by xs.length
decreasing_by all_goals simp only [List.length_take, List.length_drop]; omega

def squaring (acc x : α) (n : Nat) : α :=
  if n = 0 then acc
  else squaring (if n % 2 = 1 then acc * x else acc) (x * x) (n / 2)
termination_by n
decreasing_by omega

def power (x : α) (n : Int) : α :=
  if n < 0 then 1 / squaring 1 x n.natAbs else squaring 1 x n.natAbs

end Scalar

class Elementary (α : Type) where
  pi : α
  sqrt : α → α
  sin : α → α
  cos : α → α
  exp : α → α
  log : α → α
  floor : α → α
  hypot : α → α → α
  angle : α → α → α

namespace Elementary

variable {α : Type} [Scalar α] [Elementary α]

def turn : α := ((2 : Nat) : α) * pi

/-- The direction of `(x, y)` as an angle that is not negative. A direction just below the first
axis may round up to the full turn itself, and adding zero takes the sign of a zero away. -/
def direction (x y : α) : α :=
  let a := angle y x
  a + if a < 0 then turn else 0

end Elementary

end VertexPlacement
