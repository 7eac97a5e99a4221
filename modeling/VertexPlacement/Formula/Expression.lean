import VertexPlacement.Scalar

namespace VertexPlacement

inductive Unary where
  | neg
  | sqrt
  | sin
  | cos
  | exp
  | log
  | abs
  | floor
  deriving DecidableEq

inductive Binary where
  | add
  | sub
  | mul
  | div
  | min
  | max
  deriving DecidableEq

/-- How differentiation takes the power zero: its change, which is zero, is handed on like any
other, or left out as that of a constant. -/
inductive Constancy where
  | handedOn
  | leftOut
  deriving DecidableEq

/-- An expression in `n` coordinates. A steady expression stands beside others that depend on the
point: it has a change like theirs, which is zero. -/
inductive Expression (α : Type) (n : Nat) where
  | const (c : α)
  | coord (i : Fin n)
  | unary (f : Unary) (a : Expression α n)
  | binary (f : Binary) (a b : Expression α n)
  | pow (a : Expression α n) (k : Int)
  | steady (a : Expression α n)

variable {α : Type}

namespace Unary

/-- The magnitude has no sign, not even that of a zero, which adding zero takes away. -/
def apply [Scalar α] [Elementary α] : Unary → α → α
  | neg, x => -x
  | sqrt, x => Elementary.sqrt x
  | sin, x => Elementary.sin x
  | cos, x => Elementary.cos x
  | exp, x => Elementary.exp x
  | log, x => Elementary.log x
  | abs, x => Scalar.magnitude (x + 0)
  | floor, x => Elementary.floor x

end Unary

namespace Binary

def apply [Scalar α] : Binary → α → α → α
  | add, x, y => x + y
  | sub, x, y => x - y
  | mul, x, y => x * y
  | div, x, y => x / y
  | min, x, y => Scalar.least x y
  | max, x, y => Scalar.greatest x y

end Binary

namespace Expression

variable {n : Nat}

def eval [Scalar α] [Elementary α] (x : Fin n → α) : Expression α n → α
  | const c => c
  | coord i => x i
  | unary f a => f.apply (eval x a)
  | binary f a b => f.apply (eval x a) (eval x b)
  | pow a k => Scalar.pow (eval x a) k
  | steady a => eval x a

/-- Whether an expression carries a change of the point, as far as its form shows. A floor carries
none. -/
def varies (constancy : Constancy) : Expression α n → Bool
  | const _ => false
  | coord _ => true
  | unary f a => f != .floor && varies constancy a
  | binary _ a b => varies constancy a || varies constancy b
  | pow a k => (k != 0 || constancy == .handedOn) && varies constancy a
  | steady _ => true

end Expression

end VertexPlacement
