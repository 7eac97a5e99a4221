import VertexPlacement.Scalar
import VertexPlacement.Tensor.Broadcast

namespace VertexPlacement.Tensor

variable {α : Type}

structure Batch (α : Type) where
  extents : List Nat
  height : Nat
  width : Nat
  matrices : List (List α)

def runs (count length : Nat) (entries : List α) : List (List α) :=
  (List.range count).map fun i => (entries.drop (i * length)).take length

def batch? (asColumn : Bool) (t : Tensor α) : Option (Batch α) :=
  match t.shape.reverse with
  | [] => none
  | [n] => some ⟨[], if asColumn then n else 1, if asColumn then 1 else n, [t.entries]⟩
  | width :: height :: rest =>
    some ⟨rest.reverse, height, width, runs (entryCount rest) (height * width) t.entries⟩

variable [Scalar α]

def dot (xs ys : List α) : α := (List.zipWith (· * ·) xs ys).foldl (· + ·) 0

def multiply (height inner width : Nat) (a b : List α) : List α :=
  (runs height inner a).flatMap fun row => (List.range width).map fun j =>
    dot row ((List.range inner).filterMap fun i => b[i * width + j]?)

def product? (a b : Tensor α) : Option (Tensor α) := do
  let x ← a.batch? false
  let y ← b.batch? true
  let rank := max x.extents.length y.extents.length
  let s := padShape rank x.extents
  let t := padShape rank y.extents
  let outer ← joinExtents? s t
  if x.width ≠ y.height then none
  else
    let entries := (List.zipWith (multiply x.height x.width y.width)
      (spread s outer x.matrices) (spread t outer y.matrices)).flatten
    let shape := outer ++ (if a.shape.length = 1 then [] else [x.height]) ++
      (if b.shape.length = 1 then [] else [y.width])
    if h : entries.length = entryCount shape then some ⟨shape, entries, h⟩ else none

end VertexPlacement.Tensor
