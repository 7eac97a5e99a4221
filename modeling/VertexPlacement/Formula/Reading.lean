import VertexPlacement.Datum.Reading
import VertexPlacement.Formula

namespace VertexPlacement

def Unary.named? : String → Option Unary
  | "neg" => some .neg
  | "sqrt" => some .sqrt
  | "sin" => some .sin
  | "cos" => some .cos
  | "exp" => some .exp
  | "log" => some .log
  | "abs" => some .abs
  | "floor" => some .floor
  | _ => none

def Binary.named? : String → Option Binary
  | "+" => some .add
  | "-" => some .sub
  | "*" => some .mul
  | "/" => some .div
  | "min" => some .min
  | "max" => some .max
  | _ => none

namespace Formula

def ofIndex : List (Datum Float) → Formula Float
  | [.whole i] => .coord i
  | _ => .faulty .badIndex

/-- A constant. A missing one is undefined, and has no change. -/
def constant : Datum Float → Formula Float
  | .missing => .changeless (0.0 / 0.0)
  | .array t => .fixed t
  | d =>
    match d.number with
    | .ok c => .const c
    | .error e => .faulty e

def operation (op : String) (args : List (Formula Float)) (exponent : Option Int) :
    Formula Float :=
  match args with
  | [a] =>
    match Unary.named? op with
    | some f => .unary f a
    | none => .faulty .badValue
  | [a, b] =>
    if op = "pow" then
      match exponent with
      | some k => .pow a k
      | none => .binary .add a (.faulty .badValue)
    else
      match Binary.named? op with
      | some f => .binary f a b
      | none => .faulty .badValue
  | _ => .faulty .badValue

mutual

def ofDatum : Datum Float → Formula Float
  | .list (.word op :: args) =>
    if op = "x" then ofIndex args
    else operation op (ofData args) (args[1]?.bind Datum.whole?)
  | .list items => .array (ofData items)
  | d => constant d

def ofData : List (Datum Float) → List (Formula Float)
  | [] => []
  | d :: rest => ofDatum d :: ofData rest

end

end Formula

end VertexPlacement
