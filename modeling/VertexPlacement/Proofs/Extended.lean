import VertexPlacement.Proofs.Exact

namespace VertexPlacement

/-- Rational numbers with the values that machine numbers have besides. Nothing is rounded, and
there is one zero. -/
inductive Extended where
  | undefined
  | infinite (negative : Bool)
  | finite (x : ℚ)
  deriving DecidableEq

namespace Extended

def add : Extended → Extended → Extended
  | finite x, finite y => finite (x + y)
  | infinite a, infinite b => if a = b then infinite a else undefined
  | infinite a, finite _ => infinite a
  | finite _, infinite b => infinite b
  | undefined, _ => undefined
  | _, undefined => undefined

def neg : Extended → Extended
  | finite x => finite (-x)
  | infinite a => infinite (!a)
  | undefined => undefined

def stretch (negative : Bool) (x : ℚ) : Extended :=
  if x = 0 then undefined else infinite (negative ^^ decide (x < 0))

def mul : Extended → Extended → Extended
  | finite x, finite y => finite (x * y)
  | infinite a, infinite b => infinite (a ^^ b)
  | infinite a, finite y => stretch a y
  | finite x, infinite b => stretch b x
  | undefined, _ => undefined
  | _, undefined => undefined

def inverse : Extended → Extended
  | finite x => if x = 0 then infinite false else finite x⁻¹
  | infinite _ => finite 0
  | undefined => undefined

def natPow (x : Extended) : Nat → Extended
  | 0 => finite 1
  | n + 1 => mul (natPow x n) x

def intPow (x : Extended) : Int → Extended
  | .ofNat n => natPow x n
  | .negSucc n => inverse (natPow x (n + 1))

def less : Extended → Extended → Bool
  | finite x, finite y => decide (x < y)
  | infinite a, infinite b => a && !b
  | infinite a, finite _ => a
  | finite _, infinite b => !b
  | undefined, _ => false
  | _, undefined => false

def isDefined : Extended → Bool
  | undefined => false
  | _ => true

instance : Scalar Extended where
  zero := finite 0
  one := finite 1
  natCast n := finite n
  add := add
  sub v w := add v (neg w)
  mul := mul
  div v w := mul v (inverse w)
  neg := neg
  lt v w := less v w = true
  le v w := (less v w || (isDefined v && decide (v = w))) = true
  decLT v w := decEq (less v w) true
  decLE v w := decEq (less v w || (isDefined v && decide (v = w))) true
  pow := intPow

theorem finite_add (x y : ℚ) : finite (x + y) = finite x + finite y := rfl

theorem finite_sub (x y : ℚ) : finite x - finite y = finite (x - y) :=
  congrArg finite (sub_eq_add_neg x y).symm

theorem finite_neg (x : ℚ) : -finite x = finite (-x) := rfl

theorem finite_lt {x y : ℚ} : finite x < finite y ↔ x < y := decide_eq_true_iff

theorem finite_le {x y : ℚ} : finite x ≤ finite y ↔ x ≤ y := by
  change (decide (x < y) || (true && decide (finite x = finite y))) = true ↔ x ≤ y
  simp [le_iff_lt_or_eq]

protected theorem lt_asymm : ∀ {v w : Extended}, v < w → ¬ w < v
  | finite _, finite _, h => fun h' => lt_asymm (finite_lt.mp h) (finite_lt.mp h')
  | infinite true, infinite false, _ => nofun
  | infinite true, finite _, _ => nofun
  | finite _, infinite false, _ => nofun

theorem finite_div (x : ℚ) {y : ℚ} (hy : y ≠ 0) : finite x / finite y = finite (x / y) := by
  change mul (finite x) (inverse (finite y)) = _
  rw [inverse, if_neg hy, mul, div_eq_mul_inv]

theorem isFinite_iff {v : Extended} : Scalar.isFinite v = true ↔ ∃ q, v = finite q := by
  cases v with
  | undefined => exact ⟨nofun, nofun⟩
  | infinite a =>
    refine ⟨fun h => ?_, nofun⟩
    cases a <;> exact absurd h (by decide)
  | finite q =>
    refine ⟨fun _ => ⟨q, rfl⟩, fun _ => decide_eq_true ?_⟩
    rw [finite_sub]
    exact finite_le.mpr (sub_self q).le

theorem magnitude_finite (q : ℚ) : Scalar.magnitude (finite q) = finite |q| := by
  rw [Scalar.magnitude]
  change (if finite q < finite 0 then -finite q else finite q) = finite |q|
  rw [finite_neg]
  by_cases hq : q < 0
  · rw [if_pos (finite_lt.mpr hq), abs_of_neg hq]
  · rw [if_neg (mt finite_lt.mp hq), abs_of_nonneg (not_lt.mp hq)]

theorem finite_injective : Function.Injective finite := fun _ _ h => finite.inj h

theorem map_finite_injective : Function.Injective (List.map finite) :=
  List.map_injective_iff.mpr finite_injective

theorem exists_map_finite {vs : List Extended} :
    (∃ ws : List ℚ, vs = ws.map finite) ↔ ∀ v ∈ vs, Scalar.isFinite v = true := by
  simp only [isFinite_iff]
  constructor
  · rintro ⟨ws, rfl⟩ v hv
    obtain ⟨w, -, rfl⟩ := List.mem_map.mp hv
    exact ⟨w, rfl⟩
  · intro h
    induction vs with
    | nil => exact ⟨[], rfl⟩
    | cons v rest ih =>
      obtain ⟨⟨w, rfl⟩, hrest⟩ := List.forall_mem_cons.mp h
      obtain ⟨ws, rfl⟩ := ih hrest
      exact ⟨w :: ws, rfl⟩

end Extended

namespace Scalar

section Sums

variable {α β : Type} {f : α → β}

/-- A full row of eight in the image of a list comes from one in the list. -/
theorem exists_eight_of_map {xs : List α} {p q r s t u v w : β} {rest : List β}
    (h : xs.map f = p :: q :: r :: s :: t :: u :: v :: w :: rest) :
    ∃ p q r s t u v w rest, xs = p :: q :: r :: s :: t :: u :: v :: w :: rest := by
  simp only [List.map_eq_cons_iff] at h
  obtain ⟨p, _, rfl, -, q, _, rfl, -, r, _, rfl, -, s, _, rfl, -, t, _, rfl, -, u, _, rfl, -,
    v, _, rfl, -, w, rest, rfl, -⟩ := h
  exact ⟨p, q, r, s, t, u, v, w, rest, rfl⟩

variable [Scalar α] [Scalar β]

theorem foldl_add_map (hadd : ∀ x y, f (x + y) = f x + f y) (a : α) (xs : List α) :
    (xs.map f).foldl (· + ·) (f a) = f (xs.foldl (· + ·) a) := by
  induction xs generalizing a with
  | nil => rfl
  | cons x rest ih => rw [List.map_cons, List.foldl_cons, List.foldl_cons, ← hadd, ih]

theorem laneSum_map (hadd : ∀ x y, f (x + y) = f x + f y) (a b c d e g h i : α) (xs : List α) :
    laneSum (f a) (f b) (f c) (f d) (f e) (f g) (f h) (f i) (xs.map f) =
      f (laneSum a b c d e g h i xs) := by
  fun_induction laneSum a b c d e g h i xs with
  | case1 a b c d e g h i p q r s t u v w rest ih =>
    rw [← ih]
    simp only [List.map_cons, laneSum, hadd]
  | case2 a b c d e g h i xs hshort =>
    refine Eq.trans ?_ (foldl_add_map hadd _ xs)
    unfold laneSum
    split
    · next heq =>
      obtain ⟨p, q, r, s, t, u, v, w, rest, rfl⟩ := exists_eight_of_map heq
      exact (hshort p q r s t u v w rest rfl).elim
    · simp only [hadd]

theorem blockSum_map (hadd : ∀ x y, f (x + y) = f x + f y) (hzero : f 0 = 0) (xs : List α) :
    blockSum (xs.map f) = f (blockSum xs) := by
  fun_cases blockSum xs with
  | case1 a b c d e g h i rest => exact laneSum_map hadd a b c d e g h i rest
  | case2 xs hshort =>
    refine Eq.trans ?_ (foldl_add_map hadd 0 xs)
    unfold blockSum
    split
    · next heq =>
      obtain ⟨p, q, r, s, t, u, v, w, rest, rfl⟩ := exists_eight_of_map heq
      exact (hshort p q r s t u v w rest rfl).elim
    · rw [hzero]

theorem sum_map (hadd : ∀ x y, f (x + y) = f x + f y) (hzero : f 0 = 0) (xs : List α) :
    sum (xs.map f) = f (sum xs) := by
  fun_induction sum xs with
  | case1 xs hle =>
    rw [sum, if_pos (by simpa using hle), blockSum_map hadd hzero]
  | case2 xs hle n ih1 ih2 =>
    rw [sum, if_neg (by simpa using hle)]
    simp only [List.length_map, ← List.map_take, ← List.map_drop]
    rw [ih1, ih2, hadd]

end Sums

end Scalar

namespace Extended

theorem sum_finite (ws : List ℚ) : Scalar.sum (ws.map finite) = finite ws.sum := by
  rw [Scalar.sum_map finite_add rfl, Scalar.sum_eq]

theorem weightError_finite (ws : List ℚ) :
    Quadrature.weightError (ws.map finite) = finite |ws.sum - 1| := by
  rw [Quadrature.weightError, sum_finite]
  exact (congrArg Scalar.magnitude (finite_sub _ 1)).trans (magnitude_finite _)

theorem weightSumTolerance_eq :
    (Quadrature.weightSumTolerance : Extended) = finite (1 / 10 ^ 10) := by
  have hdiv := finite_div ((1 : ℕ) : ℚ) (y := ((Nat.pow 10 10 : ℕ) : ℚ)) (by norm_num)
  refine hdiv.trans (congrArg finite ?_)
  norm_num

end Extended

end VertexPlacement
