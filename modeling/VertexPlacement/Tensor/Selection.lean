import VertexPlacement.Tensor.Broadcast

namespace VertexPlacement

/-- An item of an index. A mask goes with as many extents as it has itself, a single flag with
none. -/
inductive Pick where
  | place (i : Int)
  | added
  | listed (places : Tensor Int)
  | marked (mask : Tensor Bool)

def Pick.isSingle : Pick → Bool
  | .place _ | .added => true
  | .listed _ | .marked _ => false

structure Selection where
  extents : List Nat
  places : List Nat

namespace Selection

def plain? : List Nat → List Pick → Option Selection
  | shape, [] => some ⟨shape, List.range (entryCount shape)⟩
  | shape, .added :: rest => (plain? shape rest).map fun s => ⟨1 :: s.extents, s.places⟩
  | n :: shape, .place i :: rest => do
    let k ← Tensor.place? n i
    let s ← plain? shape rest
    return ⟨s.extents, s.places.map (k * entryCount shape + ·)⟩
  | _, _ => none

/-- What becomes of an extent: it is kept, or places of it are picked. Neighbouring entries along it
are a number of entries apart. -/
inductive Axis where
  | kept (extent stride : Nat)
  | picked (extent stride : Nat) (places : Tensor Int)

def markedAlong (mask : Tensor Bool) (extent stride : Nat) : Tensor Int :=
  .ofList (mask.entries.zipIdx.filterMap fun (marked, k) =>
    if marked then some ((k / stride % extent : Nat) : Int) else none)

def axesOf (make : Nat → Nat → Axis) : List Nat → List Axis
  | [] => []
  | n :: shape => make n (entryCount shape) :: axesOf make shape

def axesOfMask (mask : Tensor Bool) (inner : Nat) : List Axis :=
  if mask.shape.isEmpty then [.picked 1 0 (.ofList ((mask.entries.filter id).map fun _ => 0))]
  else axesOf (fun n stride => .picked n (stride * inner) (markedAlong mask n stride)) mask.shape

def axes? : List Nat → List Pick → Option (List Axis)
  | shape, [] => some (axesOf .kept shape)
  | shape, .added :: rest => (axes? shape rest).map (.kept 1 0 :: ·)
  | shape, .marked mask :: rest =>
    let inner := shape.drop mask.shape.length
    if shape.take mask.shape.length = mask.shape then
      (axes? inner rest).map (axesOfMask mask (entryCount inner) ++ ·)
    else none
  | n :: shape, .place i :: rest =>
    (axes? shape rest).map (.picked n (entryCount shape) (.scalar i) :: ·)
  | n :: shape, .listed places :: rest =>
    (axes? shape rest).map (.picked n (entryCount shape) places :: ·)
  | [], _ => none

def Axis.isPicked : Axis → Bool
  | .kept _ _ => false
  | .picked _ _ _ => true

def keptExtents (axes : List Axis) : List Nat :=
  axes.filterMap fun a =>
    match a with
    | .kept n _ => some n
    | .picked _ _ _ => none

def keptPlaces : List Axis → List Nat
  | [] => [0]
  | .kept n stride :: rest =>
    (List.range n).flatMap fun i => (keptPlaces rest).map (i * stride + ·)
  | .picked _ _ _ :: rest => keptPlaces rest

def pickedExtents? (axes : List Axis) : Option (List Nat) :=
  axes.foldlM (fun shape a =>
    match a with
    | .kept _ _ => some shape
    | .picked _ _ places => Tensor.jointShape? shape places.shape) []

def placesAlong? (shape : List Nat) : Axis → Option (List Nat)
  | .kept _ _ => some (List.replicate (entryCount shape) 0)
  | .picked n stride picks => do
    let places ← picks.entries.mapM (Tensor.place? n)
    return (Tensor.spread (Tensor.padShape shape.length picks.shape) shape places).map (· * stride)

def pickedPlaces? (shape : List Nat) (axes : List Axis) : Option (List Nat) :=
  axes.foldlM (fun sums a => do return List.zipWith (· + ·) sums (← placesAlong? shape a))
    (List.replicate (entryCount shape) 0)

/-- Axes before, at and after the picks. Picks that do not stand together come first. -/
def arrange (axes : List Axis) : List Axis × List Axis × List Axis :=
  let front := axes.takeWhile (!·.isPicked)
  let rest := axes.dropWhile (!·.isPicked)
  let picks := rest.takeWhile Axis.isPicked
  let back := rest.dropWhile Axis.isPicked
  if back.any Axis.isPicked then
    ([], axes.filter Axis.isPicked, axes.filter (!·.isPicked))
  else (front, picks, back)

def assemble (shape : List Nat) (front back : List Axis) (places : List Nat) : Selection where
  extents := keptExtents front ++ shape ++ keptExtents back
  places := (keptPlaces front).flatMap fun i =>
    places.flatMap fun p => (keptPlaces back).map fun j => i + p + j

end Selection

namespace Tensor

variable {α : Type}

theorem length_foldl_set (changes : List (Nat × α)) (xs : List α) :
    (changes.foldl (fun xs c => xs.set c.1 c.2) xs).length = xs.length := by
  induction changes generalizing xs with
  | nil => rfl
  | cons c rest ih => rw [List.foldl_cons, ih, List.length_set]

/-- Replaces the entries at some places. The last entry for a place stays. -/
def replace (t : Tensor α) (places : List Nat) (xs : List α) : Tensor α :=
  ⟨t.shape, (places.zip xs).foldl (fun xs c => xs.set c.1 c.2) t.entries, by
    rw [length_foldl_set, t.size_eq]⟩

end Tensor

end VertexPlacement
