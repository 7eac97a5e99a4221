import VertexPlacement.Datum

namespace VertexPlacement

inductive Content where
  | flags
  | numbers
  | words
  | mixed
  deriving DecidableEq

namespace Datum

variable {α : Type}

mutual

def leaves : Datum α → List (Datum α)
  | list ds => leavesOf ds
  | d => [d]

def leavesOf : List (Datum α) → List (Datum α)
  | [] => []
  | d :: rest => leaves d ++ leavesOf rest

end

def isFlag : Datum α → Bool
  | flag _ => true
  | _ => false

def isWhole : Datum α → Bool
  | whole _ => true
  | _ => false

def isWord : Datum α → Bool
  | word _ => true
  | _ => false

def isList : Datum α → Bool
  | list _ => true
  | _ => false

def isShort (n : Int) : Bool := decide (-Int.pow 2 63 ≤ n) && decide (n < Int.pow 2 64)

/-- Values that are no numbers and no words, among which long whole numbers are counted. -/
def isLoose : Datum α → Bool
  | missing | record _ | object | named _ => true
  | whole n => !isShort n
  | _ => false

def content (d : Datum α) : Content :=
  if d.leaves.any isLoose then .mixed
  else if d.leaves.any isWord then .words
  else if !d.leaves.isEmpty && d.leaves.all isFlag then .flags
  else .numbers

end Datum

end VertexPlacement
