import VertexPlacement.Formula.Expression

namespace VertexPlacement

variable {α : Type} [Scalar α] [Elementary α]

/-- What an operation does with a change of one argument, if it hands it on. -/
abbrev Slope (α : Type) := Option (α → α)

namespace Unary

def slope (f : Unary) (x value : α) : Slope α :=
  match f with
  | neg => some fun g => -g
  | sqrt => some fun g => g * (Scalar.ratio 1 2 / value)
  | sin => some fun g => g * Elementary.cos x
  | cos => some fun g => -(g * Elementary.sin x)
  | exp => some fun g => g * value
  | log => some fun g => g / x
  | abs => some fun g => if 0 ≤ x then g else -g
  | floor => none

end Unary

namespace Binary

/-- The value of an operation where derivatives are taken. Of two zeros with different signs the
positive one is the greater. -/
def ordered (f : Binary) (x y : α) : α :=
  if Scalar.isZero x && Scalar.isZero y then
    match f with
    | min => -(-x + -y)
    | max => x + y
    | f => f.apply x y
  else f.apply x y

/-- The part of a change that an argument of a minimum or maximum hands on. At a tie each argument
hands on a half. -/
def share (own other value : α) : α :=
  let takes (x : α) : Bool := decide (x ≤ value) && decide (value ≤ x)
  (if takes own then 1 else 0) / (if takes other then ((2 : Nat) : α) else 1)

def slopeLeft (f : Binary) (x y value : α) : α → α :=
  match f with
  | add | sub => id
  | mul => fun g => g * y
  | div => fun g => g / y
  | min | max => fun g => g * share x y value

def slopeRight (f : Binary) (x y value : α) : α → α :=
  match f with
  | add => id
  | sub => fun g => -g
  | mul => fun g => x * g
  | div => fun g => (-g * x) * Scalar.power y (-2)
  | min | max => fun g => g * share y x value

/-- The slope of the right argument, on the way back. The factors of a quotient come in the opposite
order. -/
def pulledRight (f : Binary) (x y value : α) : α → α :=
  match f with
  | div => fun c => -((c * Scalar.power y (-2)) * x)
  | f => f.slopeRight x y value

end Binary

namespace Expression

variable {n : Nat}

def powSlope (constancy : Constancy) (x : α) (k : Int) : Slope α :=
  if k = 0 then
    match constancy with
    | .handedOn => some fun _ => 0
    | .leftOut => none
  else
    let factor : α := if k < 0 then -(k.natAbs : α) else (k.natAbs : α)
    some fun g => g * (factor * Scalar.power x (k - 1))

def joinTangents (u v : Option α) : Option α :=
  match u, v with
  | some a, some b => some (a + b)
  | some a, none => some a
  | none, v => v

def value (x : Fin n → α) : Expression α n → α
  | const c => c
  | coord i => x i
  | unary f a => f.apply (value x a)
  | binary f a b => f.ordered (value x a) (value x b)
  | pow a k => Scalar.power (value x a) k
  | steady a => value x a

/-- The change along a direction. Constants have none, which is not the same as a change of zero. -/
def tangent (constancy : Constancy) (x d : Fin n → α) : Expression α n → Option α
  | const _ => none
  | coord i => some (d i)
  | unary f a =>
    let u := value x a
    (f.slope u (f.apply u)).bind fun s => (tangent constancy x d a).map s
  | binary f a b =>
    let u := value x a
    let v := value x b
    let w := f.ordered u v
    joinTangents ((tangent constancy x d a).map (f.slopeLeft u v w))
      ((tangent constancy x d b).map (f.slopeRight u v w))
  | pow a k =>
    (powSlope constancy (value x a) k).bind fun s => (tangent constancy x d a).map s
  | steady a => some ((tangent constancy x d a).getD 0)

def cotangent (x : Fin n → α) : Expression α n → α → Vector α n → Vector α n
  | const _, _, acc => acc
  | coord i, c, acc => acc.set i (acc[i] + c)
  | unary f a, c, acc =>
    let u := value x a
    match f.slope u (f.apply u) with
    | some s => cotangent x a (s c) acc
    | none => acc
  | binary f a b, c, acc =>
    let u := value x a
    let v := value x b
    let w := f.ordered u v
    cotangent x b (f.pulledRight u v w c) (cotangent x a (f.slopeLeft u v w c) acc)
  | pow a k, c, acc =>
    match powSlope .leftOut (value x a) k with
    | some s => cotangent x a (s c) acc
    | none => acc
  | steady a, c, acc => cotangent x a c acc

end Expression

end VertexPlacement
