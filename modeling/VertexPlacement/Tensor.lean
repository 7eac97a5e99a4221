namespace VertexPlacement

def entryCount (extents : List Nat) : Nat := extents.foldr (· * ·) 1

@[simp] theorem entryCount_nil : entryCount [] = 1 := rfl

@[simp] theorem entryCount_cons (n : Nat) (s : List Nat) : entryCount (n :: s) = n * entryCount s :=
  rfl

/-- A rectangular array with its entries in row order. A single number has no extents, and a point
has one. -/
structure Tensor (α : Type) where
  shape : List Nat
  entries : List α
  size_eq : entries.length = entryCount shape
  deriving DecidableEq

namespace Tensor

variable {α β : Type}

def size (t : Tensor α) : Nat := t.entries.length

theorem size_eq_of_shape {t : Tensor α} {u : Tensor β} (h : t.shape = u.shape) :
    t.size = u.size := by
  rw [size, size, t.size_eq, u.size_eq, h]

def scalar (x : α) : Tensor α := ⟨[], [x], rfl⟩

def ofList (xs : List α) : Tensor α := ⟨[xs.length], xs, by simp⟩

def ofVector {d : Nat} (v : Vector α d) : Tensor α := ⟨[d], v.toList, by simp⟩

def map (f : α → β) (t : Tensor α) : Tensor β := ⟨t.shape, t.entries.map f, by simp [t.size_eq]⟩

def zip? {γ : Type} (f : α → β → γ) (a : Tensor α) (b : Tensor β) : Option (Tensor γ) :=
  if h : a.shape = b.shape then
    some ⟨a.shape, List.zipWith f a.entries b.entries, by simp [a.size_eq, b.size_eq, h]⟩
  else none

theorem length_flatMap_entries {s : List Nat} (ts : List (Tensor α)) (h : ∀ t ∈ ts, t.shape = s) :
    (ts.flatMap entries).length = ts.length * entryCount s := by
  induction ts with
  | nil => simp
  | cons t rest ih =>
    have ht := h t (by simp)
    have hr := ih fun u hu => h u (by simp [hu])
    simp only [List.flatMap_cons, List.length_append, List.length_cons, hr, t.size_eq, ht,
      Nat.add_mul, Nat.one_mul, Nat.add_comm]

def stack? : List (Tensor α) → Option (Tensor α)
  | [] => some (ofList [])
  | t :: rest =>
    if h : ∀ u ∈ t :: rest, u.shape = t.shape then
      some ⟨(t :: rest).length :: t.shape, (t :: rest).flatMap entries, by
        rw [length_flatMap_entries _ h, entryCount_cons]⟩
    else none

def ofRows {n d : Nat} (rows : Vector (Vector α d) n) : Tensor α :=
  ⟨[n, d], (rows.toList.map ofVector).flatMap entries, by
    rw [length_flatMap_entries (s := [d])] <;> simp [ofVector]⟩

theorem entry_lt {n d i j : Nat} (hi : i < n) (hj : j < d) : i * d + j < n * d :=
  Nat.lt_of_lt_of_le (Nat.add_lt_add_left hj _)
    (Nat.succ_mul i d ▸ Nat.mul_le_mul_right d (Nat.succ_le_of_lt hi))

theorem block_le {n r i : Nat} (hi : i < n) : i * r + r ≤ n * r :=
  Nat.succ_mul i r ▸ Nat.mul_le_mul_right r (Nat.succ_le_of_lt hi)

def items? (t : Tensor α) : Option (List (Tensor α)) :=
  match h : t.shape with
  | [] => none
  | n :: rest => some ((List.finRange n).map fun i =>
      ⟨rest, (t.entries.drop (i.val * entryCount rest)).take (entryCount rest), by
        have := block_le (r := entryCount rest) i.isLt
        simp [t.size_eq, h]
        omega⟩)

/-- The place in a list of `n` items that an index stands for. A negative index counts from the
end. -/
def place? (n : Nat) (index : Int) : Option Nat :=
  let i := if index < 0 then index + n else index
  if 0 ≤ i ∧ i < n then some i.toNat else none

def item? (t : Tensor α) (index : Int) : Option (Tensor α) :=
  t.items?.bind fun items => (place? items.length index).bind (items[·]?)

def places (t : Tensor α) : Tensor (Fin t.entries.length) :=
  ⟨t.shape, List.finRange t.entries.length, by simp [t.size_eq]⟩

structure Matrix (α : Type) where
  height : Nat
  width : Nat
  rows : Vector (Vector α width) height

/-- The rows of an array of two extents. An array of one extent is read as a single column. -/
def matrix? (t : Tensor α) : Option (Matrix α) :=
  match h : t.shape with
  | [n] => some ⟨n, 1, Vector.ofFn fun i => Vector.ofFn fun _ =>
      t.entries.get ⟨i.val, by rw [t.size_eq, h]; simp⟩⟩
  | [n, d] => some ⟨n, d, Vector.ofFn fun i => Vector.ofFn fun j =>
      t.entries.get ⟨i.val * d + j.val, by
        rw [t.size_eq, h]; simpa using entry_lt i.isLt j.isLt⟩⟩
  | _ => none

def row? (t : Tensor α) : Option (List α) :=
  match t.shape with
  | [_] => some t.entries
  | _ => none

end Tensor

end VertexPlacement
