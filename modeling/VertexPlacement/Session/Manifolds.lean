import VertexPlacement.Decimal.Shortest
import VertexPlacement.Formula.Reading
import VertexPlacement.Session.Spec
import VertexPlacement.Session.Workspace
import VertexPlacement.Session.Wrapping

namespace VertexPlacement.Session

structure Tools where
  differentiation : Bool
  wrapping : Bool

def spell (x : Float) : String := Decimal.shortestText x

def quote (d : Datum Float) : String := d.text spell

section Dimensions

def readDim (dim : Datum Float) : Except (Fault Float) Dimension := do
  match (← dim.compared).whole? with
  | some n =>
    if n = 1 ∨ n = 2 ∨ n = 3 then return ⟨n, quote dim⟩
    else .error (.dimUnsupported (quote dim))
  | none => .error (.dimUnsupported (quote dim))

/-- The dimension of a space. It is whole if points can have as many coordinates, and countable if
it is also given as a whole number. Of a space that is not whole the value is that of the cells. -/
structure SpaceDimension where
  dimension : Dimension
  isWhole : Bool
  isCountable : Bool

def readSpacedim (dim : Dimension) (spacedim : Datum Float) :
    Except (Fault Float) SpaceDimension := do
  let tooSmall := Fault.spacedimTooSmall (quote spacedim) dim.quote
  match ← spacedim.compared with
  | .real x =>
    if x < Decimal.ofInt dim.value then .error tooSmall
    else
      match Decimal.whole? x with
      | some n => return ⟨⟨n, quote spacedim⟩, true, false⟩
      | none => return ⟨⟨dim.value, quote spacedim⟩, false, false⟩
  | d =>
    match d.whole? with
    | some n =>
      if n < dim.value then .error tooSmall else return ⟨⟨n, quote spacedim⟩, true, true⟩
    | none => .error .badType

def buildFrame (label : String) (s : FrameSpec) :
    Except (Fault Float) (Frame × SpaceDimension) := do
  let dim ← readDim s.dim
  let space ← readSpacedim dim s.spacedim
  return (← Frame.make label dim space.dimension s.smooth, space)

def axisLimit : Int := Int.pow 2 27

/-- The periods that a value gives. Without any, one is made up for every axis, which must be
counted. -/
def readPeriods (space : SpaceDimension) (periods : Datum Float) :
    Except (Fault Float) (Option (Tensor Float)) :=
  match periods with
  | .missing =>
    if !space.isCountable then .error .badType
    else if axisLimit < space.dimension.value then .error .badValue
    else .ok none
  | d => do
    let t ← d.toTensor
    if space.isWhole then return some t
    else .error (.periodCount space.dimension.quote t.size)

end Dimensions

section Building

def declareChart (s : FrameSpec) (chartdim : Datum Float) (isWhole : Bool) (c : Chart Float)
    (maps : LooseMaps) : Declared where
  manifold := .chart c
  dim := s.dim
  spacedim := s.spacedim
  chartdim := chartdim
  name := .missing
  fits := isWhole
  maps := maps
  projection := Declared.projectThrough c isWhole maps

structure ChartSpaces where
  frame : Frame
  sub : FlatSpace Float
  chartdim : Datum Float
  isWhole : Bool

/-- The spaces of a chart, whose own dimensions are checked before those of its flat space. A chart
dimension that does not count as true is that of the space. -/
def buildSpaces (label : String) (s : FrameSpec) (chartdim periods : Datum Float) :
    Except (Fault Float) ChartSpaces := do
  let (frame, space) ← buildFrame label s
  let given := if ← chartdim.isTrue then chartdim else s.spacedim
  let (sub, chartSpace) ← buildFrame "FlatManifold" ⟨s.dim, given, false⟩
  return ⟨frame, ← FlatSpace.make sub (← readPeriods chartSpace periods), given, space.isWhole⟩

def ChartSpaces.declare (spaces : ChartSpaces) (s : FrameSpec) (maps : ChartMaps Float)
    (loosen : Chart Float → LooseMaps) : Declared :=
  let c := ⟨spaces.frame, spaces.sub, maps⟩
  declareChart s spaces.chartdim spaces.isWhole c (loosen c)

def fixedChart (dim : Datum Float) (spacedim : Int) (c : Chart Float) (maps : LooseMaps) :
    Declared :=
  declareChart ⟨dim, .whole spacedim, false⟩ (.whole spacedim) true c maps

def buildPolar (dim : Datum Float) : Except (Fault Float) Declared := do
  return fixedChart dim 2 (← Chart.polar (← readDim dim)) LooseMaps.polar

def buildDifferentiatedPolar (dim : Datum Float) : Except (Fault Float) Declared := do
  let c ← Chart.differentiatedPolar (← readDim dim)
  return fixedChart dim 2 c (.differentiatedPolar c)

def buildCylindrical : Except (Fault Float) Declared := do
  return fixedChart (.whole 3) 3 (← Chart.cylindrical) LooseMaps.cylindrical

def buildIncomplete : Except (Fault Float) Declared := do
  let c ← Chart.incomplete
  return fixedChart (.whole 1) 1 c (.missing c)

def readProjector (formula : Option (Datum Float)) : Option (PointMap Float) :=
  formula.map fun d => (Formula.ofDatum d).eval

def declareProjected (s : FrameSpec) (isWhole : Bool) (name : Datum Float) (p : Projected Float) :
    Declared where
  manifold := .projected p
  dim := s.dim
  spacedim := s.spacedim
  chartdim := .missing
  name := name
  fits := isWhole
  maps := Declared.noMaps
  projection := Declared.projectArray p.project

def buildBase (recording : Bool) (s : FrameSpec) : Except (Fault Float) Declared := do
  let (frame, space) ← buildFrame (if recording then "BaseRecorder" else "Manifold") s
  let projection := if recording then Projection.recording else Projection.missing frame
  return {
    manifold := .plain frame projection
    dim := s.dim
    spacedim := s.spacedim
    chartdim := .missing
    name := .missing
    fits := space.isWhole
    maps := Declared.noMaps
    projection :=
      if recording then Declared.recording
      else fun _ _ => .error (.hookMissing frame.label .projection) }

def buildFlat (recording : Bool) (s : FrameSpec) (periods : Datum Float) :
    Except (Fault Float) Declared := do
  let (frame, space) ← buildFrame (if recording then "FlatRecorder" else "FlatManifold") s
  let flat ← FlatSpace.make frame (← readPeriods space periods)
  return {
    manifold := .flat flat (if recording then Projection.recording else Projection.identity)
    dim := s.dim
    spacedim := s.spacedim
    chartdim := .missing
    name := .missing
    fits := space.isWhole
    maps := Declared.noMaps
    projection := if recording then Declared.recording else Declared.projectArray .ok }

/-- A projected manifold. What it wraps is read only when a point is drawn. -/
def buildProjected (s : FrameSpec) (projector : Option (Datum Float)) (name : Datum Float)
    (wrapped : Option (Datum Float)) : Except (Fault Float) Declared := do
  let (frame, space) ← buildFrame "ProjectedManifold" s
  let inner :=
    match wrapped with
    | none => Wrapped.nothing
    | some d => .drawing d.toTensor
  let p := ⟨frame, readProjector projector, quote name, inner⟩
  return declareProjected s space.isWhole name p

/-- Wraps a manifold of a family. That it can be wrapped at all is checked first. -/
def wrap (tools : Tools) (kind : String) (made : Option Wrappable)
    (projector : Option (Datum Float)) (dim : Datum Float) (smooth : Bool) :
    Except (Fault Float) Declared := do
  if !tools.wrapping then .error .wrapperUnavailable
  else
    match made with
    | none => .error (.notWrappable (kindOf kind))
    | some w =>
      let n ← w.spacedim
      let given :=
        match dim with
        | .missing => .whole w.dim
        | d => d
      let s : FrameSpec := ⟨given, .whole n, smooth⟩
      let (frame, space) ← buildFrame "ProjectedManifold" s
      let p := ⟨frame, readProjector projector, w.name, .source⟩
      return declareProjected s space.isWhole (.word w.name) p

def formulaChartLabel (gradient : Option (Datum Float)) : String :=
  if gradient.isSome then "FormulaGradientChart" else "FormulaChart"

end Building

namespace Action

/-- The dimensions of base and flat manifolds may be given by name. Those of other manifolds are
taken as they are given. -/
def frameSpec (s : FrameSpec) : Action FrameSpec := do
  let dim ← resolve s.dim
  let spacedim ← resolve s.spacedim
  return ⟨dim, spacedim, s.smooth⟩

def formulaChart (s : FrameSpec) (chartdim periods pull push : Datum Float)
    (gradient : Option (Datum Float)) : Action Declared := do
  let periods ← resolve periods
  let spaces ← buildSpaces (formulaChartLabel gradient) s chartdim periods
  let pull := Formula.ofDatum (← resolve pull)
  let push := Formula.ofDatum (← resolve push)
  let derivative := (← gradient.mapM resolve).map Formula.ofDatum
  return spaces.declare s (.ofFormulas pull push derivative) LooseMaps.ofArrays

def manifold (tools : Tools) : ManifoldSpec → Action Declared
  | .named name => do
    match ← stored name with
    | .manifold m => return m
    | _ => throw .noAttribute
  | .base recording s => do buildBase recording (← frameSpec s)
  | .flat recording s periods => do
    let s ← frameSpec s
    buildFlat recording s (← resolve periods)
  | .projected s projector name wrapped => do
    let projector ← projector.mapM resolve
    buildProjected s projector name (← wrapped.mapM resolve)
  | .wrapped kind args projector dim smooth => do
    let made ← Wrappable.read? kind args
    wrap tools kind made (← projector.mapM resolve) dim smooth
  | .polar dim => buildPolar dim
  | .differentiatedPolar dim => buildDifferentiatedPolar dim
  | .cylindrical => buildCylindrical
  | .incomplete => buildIncomplete
  | .chart s chartdim periods => do
    let spaces ← buildSpaces "ManifoldChart" s chartdim (← resolve periods)
    return spaces.declare s (.missing "ManifoldChart") .missing
  | .formulaChart s chartdim periods pull push gradient =>
    formulaChart s chartdim periods pull push gradient
  | .unknown kind => throw (.unknownManifold kind)

end Action

end VertexPlacement.Session
