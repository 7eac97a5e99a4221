import VertexPlacement.Proofs.Arrays
import VertexPlacement.Formula
import VertexPlacement.Formula.Derivative

namespace VertexPlacement

inductive Arithmetic where
  | add
  | sub
  | mul
  | div

namespace Arithmetic

def binary : Arithmetic → Binary
  | add => .add
  | sub => .sub
  | mul => .mul
  | div => .div

def apply : Arithmetic → ℚ → ℚ → ℚ
  | add, x, y => x + y
  | sub, x, y => x - y
  | mul, x, y => x * y
  | div, x, y => x / y

def left : Arithmetic → ℚ → ℚ → ℚ
  | add, _, _ => 1
  | sub, _, _ => 1
  | mul, _, y => y
  | div, _, y => 1 / y

def right : Arithmetic → ℚ → ℚ → ℚ
  | add, _, _ => 1
  | sub, _, _ => -1
  | mul, x, _ => x
  | div, x, y => -x / (y * y)

end Arithmetic

/-- A term in `n` coordinates, each of which is given by an index that stands for it. -/
inductive Term (n : Nat) where
  | const (c : ℚ)
  | coord (index : Int) (k : Fin n) (placed : Tensor.place? n index = some k.val)
  | neg (a : Term n)
  | binary (f : Arithmetic) (a b : Term n)
  | pow (a : Term n) (k : Nat)

namespace Term

variable {n : Nat}

def formula : Term n → Formula ℚ
  | const c => .const c
  | coord index _ _ => .coord index
  | neg a => .unary .neg a.formula
  | binary f a b => .binary f.binary a.formula b.formula
  | pow a k => .pow a.formula k

def expression : Term n → Expression ℚ n
  | const c => .const c
  | coord _ k _ => .coord k
  | neg a => .unary .neg a.expression
  | binary f a b => .binary f.binary a.expression b.expression
  | pow a k => .pow a.expression k

def value (x : Fin n → ℚ) : Term n → ℚ
  | const c => c
  | coord _ k _ => x k
  | neg a => -value x a
  | binary f a b => f.apply (value x a) (value x b)
  | pow a k => value x a ^ k

def Regular (x : Fin n → ℚ) : Term n → Prop
  | const _ => True
  | coord _ _ _ => True
  | neg a => Regular x a
  | binary .div a b => Regular x a ∧ Regular x b ∧ value x b ≠ 0
  | binary _ a b => Regular x a ∧ Regular x b
  | pow a _ => Regular x a

def pderiv (j : Fin n) : Term n → Term n
  | const _ => const 0
  | coord _ k _ => const (if k = j then 1 else 0)
  | neg a => neg (pderiv j a)
  | binary .add a b => binary .add (pderiv j a) (pderiv j b)
  | binary .sub a b => binary .sub (pderiv j a) (pderiv j b)
  | binary .mul a b =>
    binary .add (binary .mul (pderiv j a) b) (binary .mul a (pderiv j b))
  | binary .div a b =>
    binary .div (binary .sub (binary .mul (pderiv j a) b) (binary .mul a (pderiv j b)))
      (binary .mul b b)
  | pow _ 0 => const 0
  | pow a (k + 1) => binary .mul (binary .mul (const (k + 1 : ℕ)) (pow a k)) (pderiv j a)

section ChainRule

variable (x : Fin n → ℚ) (j : Fin n) (a b : Term n)

theorem value_pderiv_binary (f : Arithmetic) : ((binary f a b).pderiv j).value x =
    f.left (a.value x) (b.value x) * (a.pderiv j).value x +
      f.right (a.value x) (b.value x) * (b.pderiv j).value x := by
  cases f with
  | add => simp only [pderiv, value, Arithmetic.apply, Arithmetic.left, Arithmetic.right, one_mul]
  | sub =>
    simp only [pderiv, value, Arithmetic.apply, Arithmetic.left, Arithmetic.right]
    ring
  | mul =>
    simp only [pderiv, value, Arithmetic.apply, Arithmetic.left, Arithmetic.right]
    ring
  | div =>
    simp only [pderiv, value, Arithmetic.apply, Arithmetic.left, Arithmetic.right]
    by_cases hb : b.value x = 0
    · simp [hb]
    · field_simp
      ring

theorem value_pderiv_pow (k : Nat) : ((pow a k).pderiv j).value x =
    k * a.value x ^ (k - 1) * (a.pderiv j).value x := by
  cases k with
  | zero => simp [pderiv, value]
  | succ k => rfl

end ChainRule

section Derivative

variable {x : Fin n → ℚ} {t : Term n}

theorem Regular.binary {f : Arithmetic} {a b : Term n} (h : Regular x (.binary f a b)) :
    Regular x a ∧ Regular x b := by
  cases f with
  | add => exact h
  | sub => exact h
  | mul => exact h
  | div => exact ⟨h.1, h.2.1⟩

theorem hasDerivAt_value (h : t.Regular x) (j : Fin n) :
    HasDerivAt (fun s => t.value (Function.update x j s)) ((t.pderiv j).value x) (x j) := by
  have hself (u : Term n) : u.value (Function.update x j (x j)) = u.value x := by
    rw [Function.update_eq_self]
  induction t with
  | const c => exact hasDerivAt_const (x j) c
  | coord index k placed =>
    by_cases hk : k = j
    · have hfun : (fun s => (coord index k placed).value (Function.update x j s)) = id := by
        funext s
        simp [value, hk]
      rw [hfun, pderiv, if_pos hk]
      exact hasDerivAt_id (x j)
    · have hfun : (fun s => (coord index k placed).value (Function.update x j s)) =
          fun _ => x k := by
        funext s
        simp [value, hk]
      rw [hfun, pderiv, if_neg hk]
      exact hasDerivAt_const (x j) (x k)
  | neg a ih => exact (ih h).neg
  | binary f a b iha ihb =>
    have ha := iha h.binary.1
    have hb := ihb h.binary.2
    cases f with
    | add => exact ha.add hb
    | sub => exact ha.sub hb
    | mul => exact (ha.mul hb).congr_deriv (by rw [hself, hself]; rfl)
    | div =>
      have hne : b.value (Function.update x j (x j)) ≠ 0 := by
        rw [hself]
        exact h.2.2
      exact (ha.div hb hne).congr_deriv (by rw [hself, hself, sq]; rfl)
  | pow a k ih =>
    have hpow := (ih h).pow k
    cases k with
    | zero => exact hpow.congr_deriv (by simp [pderiv, value])
    | succ k => exact hpow.congr_deriv (by rw [hself]; rfl)

end Derivative

end Term

namespace Scalar

theorem squaring_eq (acc x : ℚ) (k : Nat) : squaring acc x k = acc * x ^ k := by
  fun_induction squaring acc x k with
  | case1 acc x => simp
  | case2 acc x k hk ih =>
    have hsplit : x ^ k = (x * x) ^ (k / 2) * x ^ (k % 2) := by
      rw [← sq, ← pow_mul, ← pow_add, Nat.div_add_mod]
    simp only [dite_eq_ite] at ih
    rw [ih, hsplit]
    by_cases hodd : k % 2 = 1
    · rw [if_pos hodd, hodd, pow_one]
      change acc * x * _ = _
      ring
    · have heven : k % 2 = 0 := by omega
      rw [if_neg hodd, heven, pow_zero, mul_one]

theorem power_eq (x : ℚ) (k : Int) : power x k = x ^ k := by
  cases k with
  | ofNat k =>
    have hneg : ¬ Int.ofNat k < 0 := by simp
    rw [power, if_neg hneg, squaring_eq]
    exact (one_mul _).trans (zpow_natCast x k).symm
  | negSucc k =>
    rw [power, if_pos (Int.negSucc_lt_zero k), squaring_eq, zpow_negSucc, ← one_div]
    exact congrArg (1 / ·) (one_mul _)

end Scalar

namespace Formula

theorem coordinate_range {n : Nat} {index : Int} {k : Fin n}
    (h : Tensor.place? n index = some k.val) :
    (coordinate ⟨[n], List.finRange n, by simp⟩ index : Except (Fault ℚ) (Tensor (Fin n))) =
      .ok (.scalar k) := by
  have hitems : (⟨[n], List.finRange n, by simp⟩ : Tensor (Fin n)).items? =
      some ((List.finRange n).map .scalar) := by
    refine congrArg some (List.map_congr_left fun i _ => Tensor.eq_of_entries rfl ?_)
    change ((List.finRange n).drop (i.val * 1)).take 1 = [i]
    rw [Nat.mul_one, List.drop_eq_getElem_cons (by simp)]
    simp
  have hitem : (⟨[n], List.finRange n, by simp⟩ : Tensor (Fin n)).item? index =
      some (.scalar k) := by
    rw [Tensor.item?, hitems, Option.bind_some, List.length_map, List.length_finRange, h]
    simp
  rw [coordinate, hitem]

end Formula

namespace Term

variable {n : Nat}

/-- Zeros have no sign here. -/
theorem ordered_binary (f : Arithmetic) (x y : ℚ) : f.binary.ordered x y = f.apply x y := by
  unfold Binary.ordered
  cases f <;> exact ite_self _

theorem expand_formula (mode : Option Constancy) (t : Term n) :
    t.formula.expand mode ⟨[n], List.finRange n, by simp⟩ = .ok (.scalar t.expression) := by
  induction t with
  | const c => rfl
  | coord index k placed =>
    rw [formula, Formula.expand, Formula.coordinate_range placed]
    rfl
  | neg a ih =>
    rw [formula, Formula.expand, ih]
    rfl
  | binary f a b iha ihb =>
    rw [formula, Formula.expand, iha, ihb]
    rfl
  | pow a k ih =>
    rw [formula, Formula.expand, ih]
    rfl

section Values

variable [Elementary ℚ] (x : Fin n → ℚ) (t : Term n)

theorem eval_expression : t.expression.eval x = t.value x := by
  induction t with
  | const c => rfl
  | coord index k placed => rfl
  | neg a ih => exact congrArg _ ih
  | binary f a b iha ihb =>
    rw [expression, Expression.eval, iha, ihb]
    cases f <;> rfl
  | pow a k ih =>
    rw [expression, Expression.eval, ih]
    rfl

theorem value_expression : t.expression.value x = t.value x := by
  induction t with
  | const c => rfl
  | coord index k placed => rfl
  | neg a ih => exact congrArg _ ih
  | binary f a b iha ihb =>
    rw [expression, Expression.value, iha, ihb]
    exact ordered_binary f _ _
  | pow a k ih =>
    rw [expression, Expression.value, ih, Scalar.power_eq]
    exact zpow_natCast _ k

end Values

end Term

end VertexPlacement
