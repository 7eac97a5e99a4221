import VertexPlacement.Scalar

namespace VertexPlacement

instance natCastFloat : NatCast Float := ⟨Float.ofNat⟩

instance : Scalar Float where
  decLT := inferInstance
  decLE := inferInstance
  pow x n := Float.pow x (Float.ofInt n)

namespace Binary64

/-- The length of `(x, y)`. Both are scaled by one power of two, so no square overflows. -/
def hypot (x y : Float) : Float :=
  let a := x.abs
  let b := y.abs
  if a.isInf || b.isInf then 1.0 / 0.0
  else
    let m := if a < b then b else a
    if m == 0.0 then a + b
    else
      let e := m.frExp.2
      let u := a.scaleB (-e)
      let v := b.scaleB (-e)
      ((u * u + v * v).sqrt).scaleB e

end Binary64

instance : Elementary Float where
  pi := 3.141592653589793
  sqrt := Float.sqrt
  sin := Float.sin
  cos := Float.cos
  exp := Float.exp
  log := Float.log
  floor := Float.floor
  hypot := Binary64.hypot
  angle := Float.atan2

inductive Binary64 where
  | undefined
  | infinite (negative : Bool)
  | finite (negative : Bool) (significand : Nat) (exponent : Int)

namespace Binary64

def ofFloat (x : Float) : Binary64 :=
  let bits : Nat := x.toBits.toNat
  let negative := bits / Nat.pow 2 63 == 1
  let field : Nat := bits / Nat.pow 2 52 % Nat.pow 2 11
  let fraction : Nat := bits % Nat.pow 2 52
  if field = Nat.pow 2 11 - 1 then
    if fraction = 0 then infinite negative else undefined
  else if field = 0 then finite negative fraction (-1074)
  else finite negative (Nat.pow 2 52 + fraction) ((field : Int) - 1075)

end Binary64

end VertexPlacement
