import VertexPlacement.Decimal
import VertexPlacement.Datum.Content
import VertexPlacement.Decimal.Reading
import VertexPlacement.Fault

namespace VertexPlacement.Datum

def wholeNumber (n : Int) : Except (Fault Float) Float :=
  let x := Decimal.ofInt n
  if x.isInf then .error .overflow else .ok x

def wordNumber (s : String) : Except (Fault Float) Float :=
  match Decimal.read? s with
  | some x => .ok x
  | none => .error .badValue

def entry : Datum Float → Except (Fault Float) Float
  | missing => .ok (0.0 / 0.0)
  | flag b => .ok (if b then 1.0 else 0.0)
  | whole n => wholeNumber n
  | real x => .ok x
  | word s => wordNumber s
  | array t =>
    match t.shape, t.entries with
    | [], [x] => .ok x
    | _, _ => .error .badValue
  | list _ => .error .badValue
  | record _ | object | named _ => .error .badType

def number : Datum Float → Except (Fault Float) Float
  | word s => wordNumber s
  | missing | list _ => .error .badType
  | array t =>
    match t.shape, t.entries with
    | [], [x] => .ok x
    | _, _ => .error .badType
  | d => entry d

def whole? : Datum Float → Option Int
  | whole n => some n
  | flag b => some (if b then 1 else 0)
  | real x => Decimal.whole? x
  | _ => none

/-- The items that a value gives when it is gone through: those of a list or of an array, the
letters of a word, and the keys of a record. -/
def items : Datum Float → Except (Fault Float) (List (Datum Float))
  | list ds => .ok ds
  | word s => .ok (s.toList.map fun c => word (String.ofList [c]))
  | record fields => .ok (fields.map fun f => word f.1)
  | array t =>
    match t.items? with
    | some ts => .ok (ts.map array)
    | none => .error .badType
  | _ => .error .badType

/-- An array of one entry is compared as this entry. Other arrays cannot be compared with a single
number. -/
def compared : Datum Float → Except (Fault Float) (Datum Float)
  | array t =>
    match t.entries with
    | [x] => .ok (real x)
    | _ => .error .badValue
  | d => .ok d

def isTrue : Datum Float → Except (Fault Float) Bool
  | missing => .ok false
  | flag b => .ok b
  | whole n => .ok (n != 0)
  | real x => .ok (x != 0.0)
  | word s => .ok (s != "")
  | list items => .ok !items.isEmpty
  | record fields => .ok !fields.isEmpty
  | array t =>
    match t.entries with
    | [x] => .ok (x != 0.0)
    | _ => .error .badValue
  | object | named _ => .ok true

mutual

def shape? : Datum Float → Option (List Nat)
  | list items =>
    match shapes? items with
    | none => none
    | some [] => some [0]
    | some (s :: rest) => if rest.all (· == s) then some ((rest.length + 1) :: s) else none
  | array t => some t.shape
  | _ => some []

def shapes? : List (Datum Float) → Option (List (List Nat))
  | [] => some []
  | d :: rest =>
    match shape? d, shapes? rest with
    | some s, some ss => some (s :: ss)
    | _, _ => none

end

mutual

def entriesBy (read : Datum Float → Except (Fault Float) Float) :
    Datum Float → Except (Fault Float) (List Float)
  | list items => entriesOf read items
  | array t => .ok t.entries
  | d => do return [← read d]

def entriesOf (read : Datum Float → Except (Fault Float) Float) :
    List (Datum Float) → Except (Fault Float) (List Float)
  | [] => .ok []
  | d :: rest => do
    let xs ← entriesBy read d
    let ys ← entriesOf read rest
    return xs ++ ys

end

def rankLimit : Nat := 64

def extents (d : Datum Float) : Except (Fault Float) (List Nat) :=
  match d.shape? with
  | some shape => if shape.length ≤ rankLimit then .ok shape else .error .badValue
  | none => .error .badValue

/-- A value as an array whose entries are read in a given way. That the lists are rectangular is
seen before any entry is read. -/
def tensorBy (read : Datum Float → Except (Fault Float) Float) (d : Datum Float) :
    Except (Fault Float) (Tensor Float) := do
  let shape ← d.extents
  let xs ← d.entriesBy read
  if h : xs.length = entryCount shape then return ⟨shape, xs, h⟩
  else .error .badValue

def toTensor (d : Datum Float) : Except (Fault Float) (Tensor Float) := d.tensorBy entry

/-- A word from an array of words, which has no null characters at its end. -/
def storedWord (s : String) : String :=
  String.ofList (s.toList.reverse.dropWhile (· = Char.ofNat 0)).reverse

/-- An entry of an array of words, in which flags are spelled out and are no numbers any more. -/
def spelledEntry : Datum Float → Except (Fault Float) Float
  | flag _ => .error .badValue
  | word s => wordNumber (storedWord s)
  | d => entry d

end VertexPlacement.Datum
