import VertexPlacement.Tensor

namespace VertexPlacement.Tensor

variable {α β γ : Type}

/-- An extent of one is repeated as often as the other array needs. -/
def joinExtents? : List Nat → List Nat → Option (List Nat)
  | [], [] => some []
  | m :: s, n :: t =>
    (joinExtents? s t).bind fun rest =>
      if m = n then some (m :: rest)
      else if m = 1 then some (n :: rest)
      else if n = 1 then some (m :: rest)
      else none
  | _, _ => none

def padShape (rank : Nat) (s : List Nat) : List Nat := List.replicate (rank - s.length) 1 ++ s

def jointShape? (s t : List Nat) : Option (List Nat) :=
  let rank := max s.length t.length
  joinExtents? (padShape rank s) (padShape rank t)

/-- Repeats entries so that an array of the first shape fills the second one. -/
def spread : List Nat → List Nat → List α → List α
  | m :: s, n :: t, xs =>
    if m = n then
      (List.range m).flatMap fun i => spread s t ((xs.drop (i * entryCount s)).take (entryCount s))
    else (List.replicate n (spread s t xs)).flatten
  | _, _, xs => xs

def combine? (f : α → β → γ) (a : Tensor α) (b : Tensor β) : Option (Tensor γ) :=
  if a.shape = b.shape then zip? f a b
  else
    let rank := max a.shape.length b.shape.length
    let s := padShape rank a.shape
    let t := padShape rank b.shape
    (joinExtents? s t).bind fun shape =>
      let entries := List.zipWith f (spread s shape a.entries) (spread t shape b.entries)
      if h : entries.length = entryCount shape then some ⟨shape, entries, h⟩ else none

end VertexPlacement.Tensor
