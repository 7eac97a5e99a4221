import VertexPlacement.Fault
import VertexPlacement.Scalar

namespace VertexPlacement

variable {α : Type}

def asPoint (t : Tensor α) (d : Nat) (quote : String) : Except (Fault α) (Vector α d) :=
  if h : t.entries.length = d then .ok ⟨t.entries.toArray, by simp [h]⟩
  else .error (.mismatch (.point t.entries.length quote))

structure Sample (α : Type) (d : Nat) where
  point : Vector α d
  weight : α

structure Quadrature (α : Type) where
  spacedim : Nat
  samples : List (Sample α spacedim)
  nonempty : samples ≠ []

namespace Quadrature

def size (q : Quadrature α) : Nat := q.samples.length

def weights (q : Quadrature α) : List α := q.samples.map Sample.weight

def points (q : Quadrature α) : Tensor α :=
  .ofRows (n := q.samples.length) ⟨(q.samples.map Sample.point).toArray, by simp⟩

section Validation

variable [Scalar α]

/-- How far the weights of a partition may miss one. -/
def weightSumTolerance : α := Scalar.ratio 1 (Nat.pow 10 10)

def checkSigns (weights : List α) : Except (Fault α) Unit :=
  if weights.any fun w => !Scalar.isFinite w then .error (.quadrature .infiniteWeight)
  else if weights.any fun w => decide (w < 0) then .error (.quadrature .negativeWeight)
  else .ok ()

def weightError (weights : List α) : α := Scalar.magnitude (Scalar.sum weights - 1)

def checkWeights (weights : List α) (tolerance : α) : Except (Fault α) Unit := do
  checkSigns weights
  if weightError weights < tolerance then return
  else .error (.quadrature (.weightSum (Scalar.sum weights)))

def validate (q : Quadrature α) (tolerance : α) : Except (Fault α) Unit :=
  checkWeights q.weights tolerance

def validated (q : Quadrature α) : Except (Fault α) (Quadrature α) := do
  q.validate weightSumTolerance
  return q

def pair {n d : Nat} (rows : Vector (Vector α d) n) (weights : List α) :
    Except (Fault α) (Quadrature α) :=
  if hn : n = 0 then .error (.quadrature .empty)
  else if hw : weights.length = n then
    .ok {
      spacedim := d
      samples := List.zipWith Sample.mk rows.toList weights
      nonempty := by
        intro h
        have := congrArg List.length h
        simp [hw] at this
        omega }
  else .error (.quadrature (.counts n weights.length))

def readPoints (points : Tensor α) : Except (Fault α) (Tensor.Matrix α) :=
  match points.matrix? with
  | some m => .ok m
  | none => .error (.quadrature (.pointsShape points.shape))

def readWeights (weights : Tensor α) : Except (Fault α) (List α) :=
  match weights.row? with
  | some ws => .ok ws
  | none => .error (.quadrature (.weightsShape weights.shape))

def ofArrays (points weights : Tensor α) : Except (Fault α) (Quadrature α) := do
  let m ← readPoints points
  let ws ← readWeights weights
  pair m.rows ws

def build (points weights : Tensor α) (check : Bool) : Except (Fault α) (Quadrature α) := do
  let q ← ofArrays points weights
  if check then q.validated else return q

def stackRows? (rows : List (List α)) : Option (Tensor α) :=
  Tensor.stack? (rows.map Tensor.ofList)

def ofRows (rows : List (List α)) (weights : List α) : Except (Fault α) (Quadrature α) := do
  build (← Fault.fitted (stackRows? rows)) (.ofList weights) true

end Validation

theorem length_of_mapM_ok {β γ ε : Type} {f : β → Except ε γ} {xs : List β} {ys : List γ}
    (h : xs.mapM f = .ok ys) : ys.length = xs.length := by
  induction xs generalizing ys with
  | nil => simp_all [pure, Except.pure]
  | cons x rest ih =>
    rw [List.mapM_cons] at h
    cases hx : f x with
    | error e => simp [hx, bind, Except.bind] at h
    | ok y =>
      cases hr : rest.mapM f with
      | error e => simp [hx, hr, bind, Except.bind] at h
      | ok zs =>
        simp only [hx, hr, bind, Except.bind, pure, Except.pure, Except.ok.injEq] at h
        simp [← h, ih hr]

/-- Replaces the points and keeps the weights and the order. The first failure is reported. -/
def mapPoints {d : Nat} (q : Quadrature α)
    (f : Vector α q.spacedim → Except (Fault α) (Vector α d)) :
    Except (Fault α) (Quadrature α) :=
  match h : q.samples.mapM fun s => (f s.point).map fun p => Sample.mk p s.weight with
  | .error e => .error e
  | .ok samples => .ok ⟨d, samples, fun hs =>
      q.nonempty (List.length_eq_zero_iff.mp (by simpa [hs] using (length_of_mapM_ok h).symm))⟩

end Quadrature

end VertexPlacement
