namespace VertexPlacement

inductive Note where
  | wrapped (coordinates samples : Nat)
  | averaged (samples : Nat)
  deriving DecidableEq

namespace Note

def source : Note → String
  | wrapped _ _ => "flat"
  | averaged _ => "chart"

def text : Note → String
  | wrapped coordinates samples =>
    "Shifted " ++ toString coordinates ++ " periodic coordinates of " ++ toString samples ++
      " samples before averaging"
  | averaged samples => "Averaged " ++ toString samples ++ " samples in chart space"

end Note

end VertexPlacement
