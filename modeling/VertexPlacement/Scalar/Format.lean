import VertexPlacement.Decimal

namespace VertexPlacement

/-- How many significant bits a format keeps, the exponent of its smallest unit, and the exponent of
the first power of two that is too large for it. -/
structure Format where
  bits : Nat
  lowest : Int
  limit : Int

namespace Format

def double : Format := ⟨53, -1074, 1024⟩

def single : Format := ⟨24, -149, 128⟩

def half : Format := ⟨11, -24, 16⟩

def unit (f : Format) (significand : Nat) (exponent : Int) : Int :=
  max (exponent + Nat.log2 significand - ((f.bits : Int) - 1)) f.lowest

/-- The nearest significand of the format with its exponent. Of two that are equally near the even
one is taken. -/
def fit (f : Format) (significand : Nat) (exponent : Int) : Nat × Int :=
  let u := f.unit significand exponent
  ((Decimal.Quotient.ofBinary significand (exponent - u)).round, u)

def round (f : Format) (x : Float) : Float :=
  match Binary64.ofFloat x with
  | .finite negative significand exponent =>
    if significand = 0 then x
    else
      let (m, u) := f.fit significand exponent
      let y := (Float.ofNat m).scaleB u
      let y := if (1.0 : Float).scaleB f.limit ≤ y then 1.0 / 0.0 else y
      if negative then -y else y
  | _ => x

end Format

end VertexPlacement
