import VertexPlacement.Scalar.Format

namespace VertexPlacement.Decimal

/-- The values that round to one number. Its ends belong to it when the significand is even. -/
structure Neighbourhood where
  low : Quotient
  value : Quotient
  high : Quotient
  closed : Bool

namespace Neighbourhood

/-- Below a power of two the next number is only half as far away. -/
def ofBinary (f : Format) (significand : Nat) (exponent : Int) : Neighbourhood where
  low := .ofBinary
    (if significand = Nat.pow 2 (f.bits - 1) ∧ f.lowest < exponent then 4 * significand - 1
      else 4 * significand - 2)
    (exponent - 2)
  value := .ofBinary (4 * significand) (exponent - 2)
  high := .ofBinary (4 * significand + 2) (exponent - 2)
  closed := significand % 2 = 0

def contains (s : Neighbourhood) (x : Quotient) : Bool :=
  s.low.le x && x.le s.high && (s.closed || !(x.le s.low || s.high.le x))

def onGrid? (s : Neighbourhood) (q : Int) : Option (Nat × Int) :=
  let down := (s.value.inUnits q).floor
  let nearest := (s.value.inUnits q).round
  let other := if nearest = down then down + 1 else down
  if s.contains (.ofDecimal nearest q) then some (nearest, q)
  else if s.contains (.ofDecimal other q) then some (other, q)
  else none

/-- Tries one digit, then two, and so on. Seventeen digits always suffice. -/
def shortest (s : Neighbourhood) : Nat × Int :=
  let e := leadingExponent s.value
  let found := (List.range 17).findSome? fun (k : Nat) => s.onGrid? (e - (k : Int))
  match found with
  | some (m, q) => stripZeros m q
  | none => stripZeros (s.value.inUnits (e - 16)).round (e - 16)

end Neighbourhood

/-- How a number with given digits is laid out: positional between two exponents, and otherwise
with one digit before the point and an exponent of at least so many digits. -/
structure Layout where
  lowest : Int
  highest : Int
  exponentDigits : Nat

namespace Layout

def zeros (n : Nat) : String := String.ofList (List.replicate n '0')

def positional (digits : List Char) (exponent : Int) : String :=
  if exponent < 0 then "0." ++ zeros (-exponent - 1).toNat ++ String.ofList digits
  else
    let n := exponent.toNat + 1
    let front := digits.take n
    let back := digits.drop n
    String.ofList front ++ zeros (n - front.length) ++ "." ++
      (if back.isEmpty then "0" else String.ofList back)

def scientific (l : Layout) (digits : List Char) (exponent : Int) : String :=
  let back := digits.drop 1
  let size := toString exponent.natAbs
  String.ofList (digits.take 1) ++ (if back.isEmpty then "" else "." ++ String.ofList back) ++
    "e" ++ (if exponent < 0 then "-" else "+") ++ zeros (l.exponentDigits - size.length) ++ size

def write (l : Layout) (m : Nat) (q : Int) : String :=
  let digits := (toString m).toList
  let exponent := q + digits.length - 1
  if l.lowest ≤ exponent ∧ exponent ≤ l.highest then positional digits exponent
  else l.scientific digits exponent

end Layout

def messageLayout : Layout := ⟨-4, 15, 2⟩

def textIn (f : Format) (x : Float) : String :=
  match Binary64.ofFloat x with
  | .undefined => "nan"
  | .infinite negative => if negative then "-inf" else "inf"
  | .finite negative significand exponent =>
    let text :=
      if significand = 0 then "0.0"
      else
        let (m, u) := f.fit significand exponent
        let d := (Neighbourhood.ofBinary f m u).shortest
        messageLayout.write d.1 d.2
    if negative then "-" ++ text else text

def shortestText (x : Float) : String := textIn .double x

end VertexPlacement.Decimal
