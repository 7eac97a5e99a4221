import VertexPlacement.Datum
import VertexPlacement.Entity.Path

namespace VertexPlacement.Session

inductive QuadratureSpec where
  | named (name : String)
  | arrays (points weights : Datum Float) (check : Bool)
  | pairs (items : Datum Float) (check : Bool)

structure LooseStep where
  part : Option Entity.Part
  index : Datum Float

structure Refinement where
  path : List LooseStep
  asLine : Bool
  middle : Datum Float

inductive CellKind where
  | line
  | quad
  | hex

inductive EntitySpec where
  | named (name : String)
  | cell (kind : CellKind) (vertices : Datum Float) (refinements : List Refinement)
  | assembled (vertices : Datum Float) (lines faces children : List EntitySpec)

structure FrameSpec where
  dim : Datum Float
  spacedim : Datum Float
  smooth : Bool

inductive ManifoldSpec where
  | named (name : String)
  | base (recording : Bool) (frame : FrameSpec)
  | flat (recording : Bool) (frame : FrameSpec) (periods : Datum Float)
  | projected (frame : FrameSpec) (projector : Option (Datum Float)) (name : Datum Float)
    (wrapped : Option (Datum Float))
  | wrapped (kind : String) (args : List (Datum Float)) (projector : Option (Datum Float))
    (dim : Datum Float) (smooth : Bool)
  | polar (dim : Datum Float)
  | differentiatedPolar (dim : Datum Float)
  | cylindrical
  | incomplete
  | chart (frame : FrameSpec) (chartdim periods : Datum Float)
  | formulaChart (frame : FrameSpec) (chartdim periods pull push : Datum Float)
    (gradient : Option (Datum Float))
  | unknown (kind : String)

end VertexPlacement.Session
