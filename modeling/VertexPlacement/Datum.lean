import VertexPlacement.Tensor
import VertexPlacement.Text.Quoted

namespace VertexPlacement

inductive Datum (α : Type) where
  | missing
  | flag (b : Bool)
  | whole (n : Int)
  | real (x : α)
  | word (s : String)
  | list (items : List (Datum α))
  | record (fields : List (String × Datum α))
  | array (t : Tensor α)
  | object
  | named (name : String)

namespace Datum

variable {α : Type}

mutual

def itemText (spell : α → String) : Datum α → String
  | missing => "None"
  | flag b => if b then "True" else "False"
  | whole n => toString n
  | real x => spell x
  | word s => Text.quoted s
  | list items => "[" ++ itemsText spell items ++ "]"
  | record fields => "\x7b" ++ fieldsText spell fields ++ "\x7d"
  | array _ => "array"
  | object => "object"
  | named name => name

def itemsText (spell : α → String) : List (Datum α) → String
  | [] => ""
  | [d] => itemText spell d
  | d :: rest => itemText spell d ++ ", " ++ itemsText spell rest

def fieldsText (spell : α → String) : List (String × Datum α) → String
  | [] => ""
  | [(key, d)] => Text.quoted key ++ ": " ++ itemText spell d
  | (key, d) :: rest =>
    Text.quoted key ++ ": " ++ itemText spell d ++ ", " ++ fieldsText spell rest

end

def text (spell : α → String) : Datum α → String
  | word s => s
  | array t =>
    match t.shape, t.entries with
    | [], [x] => spell x
    | _, _ => "array"
  | d => itemText spell d

end Datum

/-- The extents of an array in round brackets. A single one is followed by a comma. -/
def shapeText : List Nat → String
  | [] => "()"
  | [n] => "(" ++ toString n ++ ",)"
  | n :: rest => "(" ++ String.join (toString n :: rest.map fun m => ", " ++ toString m) ++ ")"

end VertexPlacement
