import VertexPlacement.Scalar.Binary64
import VertexPlacement.Text.Blank
import VertexPlacement.Text.Digit

namespace VertexPlacement.Decimal

/-- The double nearest to `n * 10 ^ q`. Far outside the range of doubles the answer is known
without computing the power. -/
def nearest (n : Nat) (q : Int) : Float :=
  if n = 0 then 0.0
  else
    let size := (toString n).length
    if 400 < (size : Int) + q then 1.0 / 0.0
    else if (size : Int) + q < -400 then 0.0
    else Float.ofScientific n (decide (q < 0)) q.natAbs

def ofInt (n : Int) : Float :=
  let x := nearest n.natAbs 0
  if n < 0 then -x else x

/-- Reads digits, with single underscores between them. The count of digits, their value and the
rest of the text are returned. -/
def readDigits (afterDigit : Bool) (count value : Nat) : List Char → Nat × Nat × List Char
  | [] => (count, value, [])
  | c :: rest =>
    match Text.digit? c with
    | some d => readDigits true (count + 1) (10 * value + d) rest
    | none =>
      if c = '_' ∧ afterDigit = true ∧ (rest.head?.bind Text.digit?).isSome then
        readDigits false count value rest
      else (count, value, c :: rest)

def readSign : List Char → Bool × List Char
  | '-' :: rest => (true, rest)
  | '+' :: rest => (false, rest)
  | cs => (false, cs)

def readExponent? : List Char → Option Int
  | [] => some 0
  | c :: rest =>
    if c = 'e' ∨ c = 'E' then
      let (negative, rest) := readSign rest
      match readDigits false 0 0 rest with
      | (0, _, _) => none
      | (_, n, []) => some (if negative then -(n : Int) else n)
      | _ => none
    else none

def readMagnitude? (cs : List Char) : Option Float :=
  let (whole, n, rest) := readDigits false 0 0 cs
  match rest with
  | '.' :: rest =>
    let (places, n, rest) := readDigits false 0 n rest
    if whole + places = 0 then none
    else (readExponent? rest).map fun e => nearest n (e - places)
  | rest =>
    if whole = 0 then none
    else (readExponent? rest).map fun e => nearest n e

def read? (text : String) : Option Float :=
  let (negative, cs) := readSign (Text.trim text.toList)
  let word := String.ofList (cs.map Char.toLower)
  let x? :=
    if word = "inf" ∨ word = "infinity" then some (1.0 / 0.0)
    else if word = "nan" then some (0.0 / 0.0)
    else readMagnitude? cs
  x?.map fun x => if negative then -x else x

end VertexPlacement.Decimal
