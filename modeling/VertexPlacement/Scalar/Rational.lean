import VertexPlacement.Scalar

namespace VertexPlacement

instance : Scalar Rat where
  toZero := @Zero.ofOfNat0 Rat Rat.instOfNat
  toOne := @One.ofOfNat1 Rat Rat.instOfNat
  decLT := Rat.instDecidableLt
  decLE := Rat.instDecidableLe
  pow := Rat.zpow

end VertexPlacement
