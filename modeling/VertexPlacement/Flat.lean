import VertexPlacement.Frame
import VertexPlacement.Note
import VertexPlacement.Periodic

namespace VertexPlacement

variable {α : Type} [Scalar α]

/-- An axis with a positive period wraps around, and period zero marks a straight axis. -/
structure FlatSpace (α : Type) [Scalar α] where
  frame : Frame
  periods : Vector α frame.spacedim
  period_ok : ∀ k : Fin frame.spacedim, ¬ periods.get k < 0

namespace FlatSpace

def ofPeriods (frame : Frame) (periods : List α) : Except (Fault α) (FlatSpace α) :=
  if hn : periods.length = frame.spacedim then
    if hp : ∀ x ∈ periods, ¬ x < 0 then
      .ok ⟨frame, ⟨periods.toArray, by simp [hn]⟩, fun k => hp _ (List.getElem_mem _)⟩
    else .error .negativePeriod
  else .error (.periodCount frame.spacedimQuote periods.length)

def make (frame : Frame) (periods : Option (Tensor α)) : Except (Fault α) (FlatSpace α) :=
  match periods with
  | none => ofPeriods frame (List.replicate frame.spacedim 0)
  | some t => ofPeriods frame t.entries

def wraps (m : FlatSpace α) (k : Fin m.frame.spacedim) : Bool := decide (0 < m.periods.get k)

def isPeriodic (m : FlatSpace α) : Bool := (List.finRange m.frame.spacedim).any m.wraps

def boxFault? (m : FlatSpace α) (samples : List (Sample α m.frame.spacedim)) :
    Option (Fault α) :=
  samples.zipIdx.findSome? fun (s, i) =>
    (List.finRange m.frame.spacedim).findSome? fun k =>
      if m.wraps k && Periodic.outside (m.periods.get k) (s.point.get k) then
        some (.outsideBox i (s.point.get k) (m.periods.get k))
      else none

def averageAlong (m : FlatSpace α) (samples : List (Sample α m.frame.spacedim))
    (k : Fin m.frame.spacedim) : α :=
  if m.wraps k then Periodic.average (m.periods.get k) (column samples k)
  else Weighted.average (column samples k)

def place (m : FlatSpace α) (samples : List (Sample α m.frame.spacedim)) :
    Vector α m.frame.spacedim :=
  Vector.ofFn fun k => m.averageAlong samples k

def accept (m : FlatSpace α) (q : Quadrature α) :
    Except (Fault α) (List (Sample α m.frame.spacedim)) := do
  let samples ← m.frame.accept q
  match m.boxFault? samples with
  | some e => .error e
  | none => return samples

def newPoint (m : FlatSpace α) (q : Quadrature α) :
    Except (Fault α) (Vector α m.frame.spacedim) := do
  return m.place (← m.accept q)

def wrapCount (m : FlatSpace α) (samples : List (Sample α m.frame.spacedim)) : Nat :=
  (List.finRange m.frame.spacedim).foldl (fun count k => count +
    if m.wraps k then Periodic.wrapCount (m.periods.get k) (column samples k) else 0) 0

def notes (m : FlatSpace α) (q : Quadrature α) : List Note :=
  match m.accept q with
  | .error _ => []
  | .ok samples =>
    let n := m.wrapCount samples
    if n = 0 then [] else [.wrapped n samples.length]

/-- The straight way from one point to another, the shorter one on periodic axes. -/
def tangent (m : FlatSpace α) (x1 x2 : Vector α m.frame.spacedim) :
    Vector α m.frame.spacedim :=
  Vector.ofFn fun k =>
    let t := x2.get k - x1.get k
    if m.wraps k then Periodic.shortest (m.periods.get k) t else t

end FlatSpace

end VertexPlacement
