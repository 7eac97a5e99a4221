import VertexPlacement.Decimal

namespace VertexPlacement.Decimal

structure Precision where
  digits : Int
  places : Option Int

namespace Precision

def standard : Precision := ⟨12, none⟩

def unit (p : Precision) (x : Quotient) : Int :=
  let q := leadingExponent x - p.digits + 1
  match p.places with
  | none => q
  | some places => max q (-places)

end Precision

def rounded (p : Precision) (x : Quotient) : Nat × Int :=
  let q := p.unit x
  stripZeros (x.inUnits q).round q

/-- Writes a double: `-125e-2` stands for minus one and a quarter. -/
def roundedText (p : Precision) (x : Float) : String :=
  match Binary64.ofFloat x with
  | .undefined => "nan"
  | .infinite negative => if negative then "-inf" else "inf"
  | .finite negative significand exponent =>
    if significand = 0 then "0"
    else
      let r := rounded p (.ofBinary significand exponent)
      if r.1 = 0 then "0"
      else (if negative then "-" else "") ++ toString r.1 ++ "e" ++ toString r.2

end VertexPlacement.Decimal
