import VertexPlacement.Scalar.Binary64

namespace VertexPlacement.Decimal

structure Quotient where
  num : Nat
  den : Nat

namespace Quotient

def ofBinary (n : Nat) (e : Int) : Quotient :=
  if 0 ≤ e then ⟨n * Nat.pow 2 e.toNat, 1⟩ else ⟨n, Nat.pow 2 (-e).toNat⟩

def ofDecimal (n : Nat) (q : Int) : Quotient :=
  if 0 ≤ q then ⟨n * Nat.pow 10 q.toNat, 1⟩ else ⟨n, Nat.pow 10 (-q).toNat⟩

def le (x y : Quotient) : Bool := decide (x.num * y.den ≤ y.num * x.den)

def inUnits (x : Quotient) (q : Int) : Quotient :=
  if 0 ≤ q then ⟨x.num, x.den * Nat.pow 10 q.toNat⟩ else ⟨x.num * Nat.pow 10 (-q).toNat, x.den⟩

def floor (x : Quotient) : Nat := x.num / x.den

/-- The nearest whole number, and the even one of two that are equally near. -/
def round (x : Quotient) : Nat :=
  let down := x.num / x.den
  let twice := 2 * (x.num % x.den)
  if twice < x.den then down
  else if x.den < twice then down + 1
  else if down % 2 = 0 then down else down + 1

end Quotient

def digitCount (n : Nat) : Nat :=
  if n < 10 then 1 else digitCount (n / 10) + 1
termination_by n
decreasing_by omega

def leadingExponent (x : Quotient) : Int :=
  if x.den ≤ x.num then (digitCount (x.num / x.den) : Int) - 1
  else -(digitCount ((x.den - 1) / x.num) : Int)

def whole? (x : Float) : Option Int :=
  match Binary64.ofFloat x with
  | .finite negative significand exponent =>
    let q := Quotient.ofBinary significand exponent
    if q.num % q.den = 0 then
      some (if negative then -(q.floor : Int) else q.floor)
    else none
  | _ => none

def isBelow (x : Float) (n : Int) : Bool :=
  match Binary64.ofFloat x with
  | .finite _ significand exponent =>
    let q := Quotient.ofBinary significand exponent
    decide ((q.num : Int) < n * (q.den : Int))
  | _ => false

def stripZeros (m : Nat) (q : Int) : Nat × Int :=
  if 0 < m ∧ m % 10 = 0 then stripZeros (m / 10) (q + 1) else (m, q)
termination_by m
decreasing_by omega

end VertexPlacement.Decimal
