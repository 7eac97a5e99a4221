import VertexPlacement.Proofs.Term
import VertexPlacement.Jacobian

namespace VertexPlacement

section Slopes

variable (f : Arithmetic) (u v w g : ℚ)

theorem slopeLeft_binary : f.binary.slopeLeft u v w g = f.left u v * g := by
  cases f with
  | add => exact (one_mul g).symm
  | sub => exact (one_mul g).symm
  | mul => exact mul_comm g v
  | div => exact (one_div_mul_eq_div v g).symm

theorem slopeRight_binary : f.binary.slopeRight u v w g = f.right u v * g := by
  cases f with
  | add => exact (one_mul g).symm
  | sub => exact (neg_one_mul g).symm
  | mul => rfl
  | div =>
    change -g * u * Scalar.power v (-2) = -u / (v * v) * g
    rw [Scalar.power_eq, zpow_neg, zpow_two, div_eq_mul_inv]
    ring

theorem pulledRight_binary : f.binary.pulledRight u v w g = f.right u v * g := by
  rw [← slopeRight_binary f u v w g]
  cases f with
  | add => rfl
  | sub => rfl
  | mul => rfl
  | div =>
    change -(g * Scalar.power v (-2) * u) = -g * u * Scalar.power v (-2)
    ring

theorem powSlope_succ (constancy : Constancy) (k : Nat) :
    Expression.powSlope constancy u (k + 1 : ℕ) = some fun g => (k + 1 : ℕ) * u ^ k * g := by
  have hpos : ¬ ((k + 1 : ℕ) : Int) = 0 := by omega
  have hneg : ¬ ((k + 1 : ℕ) : Int) < 0 := by omega
  have hpred : ((k + 1 : ℕ) : Int) - 1 = (k : ℕ) := by omega
  unfold Expression.powSlope
  rw [if_neg hpos]
  simp only [if_neg hneg, Scalar.power_eq, hpred, zpow_natCast, Int.natAbs_natCast]
  exact congrArg some (funext fun g => mul_comm g _)

/-- The power zero hands on no change, or one that is zero. -/
theorem getD_powSlope (constancy : Constancy) (k : Nat) (o : Option ℚ) :
    ((Expression.powSlope constancy u k).bind fun s => o.map s).getD 0 =
      k * u ^ (k - 1) * o.getD 0 := by
  cases k with
  | zero =>
    have hzero : ((0 : ℕ) : ℚ) * u ^ (0 - 1) * o.getD 0 = 0 := by simp
    rw [hzero]
    cases constancy with
    | handedOn => cases o <;> rfl
    | leftOut => rfl
  | succ k =>
    rw [powSlope_succ, Option.bind_some]
    cases o with
    | none => exact (mul_zero _).symm
    | some g => rfl

theorem getD_joinTangents (o p : Option ℚ) :
    (Expression.joinTangents o p).getD 0 = o.getD 0 + p.getD 0 := by
  cases o with
  | none => exact (zero_add (p.getD 0)).symm
  | some a =>
    cases p with
    | none => exact (add_zero a).symm
    | some b => rfl

theorem getD_map {h : ℚ → ℚ} (h0 : h 0 = 0) (o : Option ℚ) : (o.map h).getD 0 = h (o.getD 0) := by
  cases o with
  | none => exact h0.symm
  | some a => rfl

end Slopes

namespace Tensor

variable {α : Type}

theorem flatMap_entries_map_scalar (xs : List α) : (xs.map scalar).flatMap entries = xs := by
  induction xs with
  | nil => rfl
  | cons x rest ih => exact congrArg (x :: ·) ih

theorem stack?_map_scalar (xs : List α) : stack? (xs.map scalar) = some (.ofList xs) := by
  cases xs with
  | nil => rfl
  | cons x rest =>
    have hs : ∀ u ∈ scalar x :: rest.map scalar, u.shape = (scalar x).shape := by
      intro u hu
      obtain ⟨y, -, rfl⟩ := List.mem_map.mp (List.map_cons (f := scalar) ▸ hu)
      rfl
    rw [List.map_cons, stack?, dif_pos hs]
    refine congrArg some (eq_of_entries ?_ (flatMap_entries_map_scalar (x :: rest)))
    simp [ofList, scalar]

end Tensor

namespace Term

variable {m n : Nat}

section Arrays

def array (f : Fin m → Term n) : Formula ℚ := .array (List.ofFn fun i => (f i).formula)

/-- The expression of a term, which may be marked as steady in an array. -/
def Settled (t : Term n) (e : Expression ℚ n) : Prop := e = t.expression ∨ e = .steady t.expression

theorem expandAll_formula (mode : Option Constancy) (ts : List (Term n)) :
    Formula.expandAll mode ⟨[n], List.finRange n, by simp⟩ (ts.map formula) =
      .ok (ts.map fun t => .scalar t.expression) := by
  induction ts with
  | nil => rfl
  | cons t rest ih =>
    rw [List.map_cons, Formula.expandAll, expand_formula, ih]
    rfl

theorem exists_steadied (mode : Option Constancy) (ts : List (Term n)) :
    ∃ g : Term n → Expression ℚ n, (∀ t, Settled t (g t)) ∧
      Formula.steadied mode (ts.map fun t => .scalar t.expression) =
        ts.map fun t => .scalar (g t) := by
  cases mode with
  | none => exact ⟨expression, fun t => .inl rfl, rfl⟩
  | some constancy =>
    unfold Formula.steadied
    by_cases hany : ((ts.map fun t => Tensor.scalar t.expression).any fun t =>
        t.entries.any (Expression.varies constancy)) = true
    · refine ⟨fun t => if t.expression.varies constancy then t.expression else .steady t.expression,
        fun t => ?_, ?_⟩
      · by_cases hv : t.expression.varies constancy = true
        · exact .inl (if_pos hv)
        · exact .inr (if_neg hv)
      · exact (if_pos hany).trans (List.map_map.trans rfl)
    · exact ⟨expression, fun t => .inl rfl, if_neg hany⟩

theorem exists_expand_array (mode : Option Constancy) (f : Fin m → Term n) (hm : 0 < m) :
    ∃ g : Term n → Expression ℚ n, (∀ t, Settled t (g t)) ∧
      (array f).expand mode ⟨[n], List.finRange n, by simp⟩ =
        .ok (.ofVector (.ofFn fun i => g (f i))) := by
  obtain ⟨g, hg, hsteadied⟩ := exists_steadied mode (List.ofFn f)
  have hne : (List.ofFn f).map (fun t => Tensor.scalar t.expression) ≠ [] := by
    rw [ne_eq, List.map_eq_nil_iff, List.ofFn_eq_nil_iff]
    omega
  have hitems : (List.ofFn fun i => (f i).formula) = (List.ofFn f).map formula := by
    rw [List.map_ofFn]
    rfl
  have hstack : Tensor.stack? ((List.ofFn f).map fun t => .scalar (g t)) =
      some (.ofVector (.ofFn fun i => g (f i))) := by
    have hcomp : (List.ofFn f).map (fun t => Tensor.scalar (g t)) =
        ((List.ofFn f).map g).map .scalar := by
      rw [List.map_map]
      rfl
    rw [hcomp, Tensor.stack?_map_scalar, List.map_ofFn, ← Tensor.ofList_toList, Vector.toList_ofFn]
    rfl
  refine ⟨g, hg, ?_⟩
  rw [array, Formula.expand, hitems, expandAll_formula, ok_bind,
    if_neg (mt List.isEmpty_iff.mp hne), hsteadied, hstack]
  rfl

end Arrays

def jacobianMatrix (f : Fin m → Term n) (x : Fin n → ℚ) : Matrix (Fin m) (Fin n) ℚ :=
  .of fun i j => ((f i).pderiv j).value x

section Linear

variable [Elementary ℚ] (x : Fin n → ℚ)

theorem getD_tangent (constancy : Constancy) (d : Fin n → ℚ) (t : Term n) :
    (t.expression.tangent constancy x d).getD 0 = ∑ j, (t.pderiv j).value x * d j := by
  induction t with
  | const c => simp [expression, Expression.tangent, pderiv, value]
  | coord index k placed => simp [expression, Expression.tangent, pderiv, value]
  | neg a ih =>
    have hneg : ((expression (neg a)).tangent constancy x d).getD 0 =
        ((a.expression.tangent constancy x d).map Neg.neg).getD 0 := rfl
    rw [hneg, getD_map neg_zero, ih, ← Finset.sum_neg_distrib]
    exact Finset.sum_congr rfl fun j _ => (neg_mul _ _).symm
  | binary f a b iha ihb =>
    have hleft (w : ℚ) : f.binary.slopeLeft (a.value x) (b.value x) w 0 = 0 := by
      rw [slopeLeft_binary, mul_zero]
    have hright (w : ℚ) : f.binary.slopeRight (a.value x) (b.value x) w 0 = 0 := by
      rw [slopeRight_binary, mul_zero]
    rw [expression, Expression.tangent, getD_joinTangents, value_expression, value_expression,
      getD_map (hleft _), getD_map (hright _), iha, ihb, slopeLeft_binary, slopeRight_binary,
      Finset.mul_sum, Finset.mul_sum, ← Finset.sum_add_distrib]
    refine Finset.sum_congr rfl fun j _ => ?_
    rw [value_pderiv_binary]
    ring
  | pow a k ih =>
    rw [expression, Expression.tangent, getD_powSlope, ih, value_expression, Finset.mul_sum]
    refine Finset.sum_congr rfl fun j _ => ?_
    rw [value_pderiv_pow]
    ring

theorem get_cotangent (t : Term n) (c : ℚ) (acc : Vector ℚ n) (j : Fin n) :
    (t.expression.cotangent x c acc).get j = acc.get j + c * (t.pderiv j).value x := by
  -- One operand starts from what the other has added, so that a shared coordinate gets both parts.
  induction t generalizing c acc with
  | const a => simp [expression, Expression.cotangent, pderiv, value]
  | coord index k placed =>
    rw [expression, Expression.cotangent, pderiv, value]
    by_cases hk : k = j
    · subst hk
      simp [Vector.get_eq_getElem]
    · have hne : k.val ≠ j.val := fun h => hk (Fin.ext h)
      simp [Vector.get_eq_getElem, hk, hne]
  | neg a ih =>
    refine (ih (-c) acc).trans ?_
    rw [pderiv, value]
    ring
  | binary f a b iha ihb =>
    rw [expression, Expression.cotangent]
    simp only [ihb, iha, slopeLeft_binary, pulledRight_binary, value_expression]
    rw [value_pderiv_binary]
    ring
  | pow a k ih =>
    rw [value_pderiv_pow]
    cases k with
    | zero =>
      have hzero : (expression (pow a 0)).cotangent x c acc = acc := rfl
      rw [hzero]
      simp
    | succ k =>
      rw [expression, Expression.cotangent]
      simp only [powSlope_succ, ih, value_expression]
      rw [Nat.add_sub_cancel]
      ring

section Settled

variable {t : Term n} {e : Expression ℚ n} (h : Settled t e)

include h

theorem Settled.eval_eq : e.eval x = t.value x := by
  rcases h with rfl | rfl
  · exact eval_expression x t
  · exact eval_expression x t

theorem Settled.getD_tangent (constancy : Constancy) (d : Fin n → ℚ) :
    (e.tangent constancy x d).getD 0 = ∑ j, (t.pderiv j).value x * d j := by
  rcases h with rfl | rfl
  · exact Term.getD_tangent x constancy d t
  · exact Term.getD_tangent x constancy d t

theorem Settled.get_cotangent (c : ℚ) (acc : Vector ℚ n) (j : Fin n) :
    (e.cotangent x c acc).get j = acc.get j + c * (t.pderiv j).value x := by
  rcases h with rfl | rfl
  · exact Term.get_cotangent x t c acc j
  · exact Term.get_cotangent x t c acc j

end Settled

section Rows

variable {f : Fin m → Term n} {g : Term n → Expression ℚ n} (hg : ∀ t, Settled t (g t))

include hg

theorem map_tangent_eq_mulVec (constancy : Constancy) (d : Fin n → ℚ) :
    (Vector.ofFn fun i => g (f i)).map (fun e => (e.tangent constancy x d).getD 0) =
      Vector.ofFn ((jacobianMatrix f x).mulVec d) := by
  ext i hi
  rw [Vector.getElem_map, Vector.getElem_ofFn, Vector.getElem_ofFn, (hg _).getD_tangent]
  rfl

theorem get_foldl_cotangent (c : Fin m → ℚ) (rows : List (Fin m)) (acc : Vector ℚ n)
    (j : Fin n) :
    (rows.foldl (fun acc i => (g (f i)).cotangent x (c i) acc) acc).get j =
      acc.get j + (rows.map fun i => ((f i).pderiv j).value x * c i).sum := by
  induction rows generalizing acc with
  | nil => exact (add_zero _).symm
  | cons i rest ih =>
    rw [List.foldl_cons, ih, (hg (f i)).get_cotangent, List.map_cons, List.sum_cons]
    ring

theorem foldl_cotangent_eq_mulVec (c : Fin m → ℚ) :
    (List.finRange m).foldl (fun acc i => (g (f i)).cotangent x (c i) acc)
      (Vector.replicate n 0) = Vector.ofFn ((jacobianMatrix f x).transpose.mulVec c) := by
  refine ext_get fun j => ?_
  rw [get_foldl_cotangent x hg, ← Fin.sum_univ_def]
  simp [Vector.get_eq_getElem]
  rfl

end Rows

end Linear

end Term

def matrixTensor {m n : Nat} (a : Matrix (Fin m) (Fin n) ℚ) : Tensor ℚ :=
  .ofRows (Vector.ofFn fun i => Vector.ofFn (a i))

theorem ofRows_ofFn_cast {m n k : Nat} (h : k = m) (a : Matrix (Fin m) (Fin n) ℚ) :
    Tensor.ofRows (Vector.ofFn fun i : Fin k => Vector.ofFn (a (i.cast h))) = matrixTensor a := by
  subst h
  rfl

section Operators

variable [Elementary ℚ] {m : Nat} {x : List ℚ} (f : Fin m → Term x.length)

theorem eval_array (hm : 0 < m) : (Term.array f).eval (.ofList x) =
    .ok (.ofVector (.ofFn fun i => (f i).value x.get)) := by
  obtain ⟨g, hg, hexpand⟩ := Term.exists_expand_array none f hm
  have hplaces : (Term.array f).expand none (Tensor.ofList x).places =
      .ok (.ofVector (.ofFn fun i => g (f i))) := hexpand
  have hmap : (Vector.ofFn fun i => g (f i)).map (Expression.eval x.get) =
      Vector.ofFn fun i => (f i).value x.get := by
    ext i hi
    simp [(hg _).eval_eq]
  rw [Formula.eval, hplaces]
  exact congrArg Except.ok ((Tensor.map_ofVector _ _).trans (congrArg Tensor.ofVector hmap))

theorem jacobian_array (hm : 0 < m) (hx : x ≠ []) : (Term.array f).jacobian x =
    .ok (matrixTensor (Term.jacobianMatrix f x.get)) := by
  obtain ⟨g, hg, hexpand⟩ := Term.exists_expand_array (some .handedOn) f hm
  have hlen : (Vector.ofFn fun i => g (f i)).toList.length = m := Vector.length_toList
  have htrace : (Term.array f).trace .handedOn x.length =
      .ok (.ofVector (.ofFn fun i => g (f i))) := hexpand
  have hentry (i : Fin (Vector.ofFn fun i => g (f i)).toList.length) (j : Fin x.length) :
      (((Vector.ofFn fun i => g (f i)).toList.get i).tangent .handedOn x.get
        (unitDirection j)).getD 0 = Term.jacobianMatrix f x.get (i.cast hlen) j := by
    have hget : (Vector.ofFn fun i => g (f i)).toList.get i = g (f (i.cast hlen)) := by
      simp only [List.get_eq_getElem, Vector.getElem_toList, Vector.getElem_ofFn]
      rfl
    rw [hget, (hg _).getD_tangent]
    simp [unitDirection, Term.jacobianMatrix]
  rw [Formula.jacobian, htrace, ok_bind, if_neg (by simpa using hx)]
  refine congrArg Except.ok (Eq.trans ?_ (ofRows_ofFn_cast hlen (Term.jacobianMatrix f x.get)))
  refine congrArg Tensor.ofRows (congrArg Vector.ofFn (funext fun i => congrArg Vector.ofFn ?_))
  exact funext fun j => hentry i j

/-- What is linearized at a point maps directions by the matrix and covectors by its transpose. -/
structure LinearizedBy {n : Nat} (a : Matrix (Fin m) (Fin n) ℚ) (l : Linearization ℚ) : Prop where
  shape_eq : l.shape = (m, n)
  apply_eq : ∀ (direction : Tensor ℚ) (d : Fin n → ℚ), direction.entries = List.ofFn d →
    l.apply direction = .ok (.ofVector (.ofFn (a.mulVec d)))
  applyTransposed_eq : ∀ (covector : Tensor ℚ) (c : Fin m → ℚ), covector.entries = List.ofFn c →
    l.applyTransposed covector = .ok (.ofVector (.ofFn (a.transpose.mulVec c)))

theorem exists_linearize_array (hm : 0 < m) : ∃ l, (Term.array f).linearize x = .ok l ∧
    LinearizedBy (Term.jacobianMatrix f x.get) l := by
  obtain ⟨g, hg, hexpand⟩ := Term.exists_expand_array (some .leftOut) f hm
  have htrace : (Term.array f).trace .leftOut x.length =
      .ok (.ofVector (.ofFn fun i => g (f i))) := hexpand
  refine ⟨⟨x.length, .ofVector (.ofFn fun i => g (f i)), x.get⟩, ?_, ?_, ?_, ?_⟩
  · rw [Formula.linearize, htrace]
    rfl
  · exact congrArg (·, x.length) Vector.length_toList
  · intro direction d hd
    have hlen : direction.entries.length = x.length := by rw [hd, List.length_ofFn]
    have hget : (fun i : Fin x.length => direction.entries.get (i.cast hlen.symm)) = d := by
      funext i
      simp [hd]
    refine (dif_pos hlen).trans (congrArg Except.ok ?_)
    rw [← Term.map_tangent_eq_mulVec x.get hg .leftOut, ← Tensor.map_ofVector]
    exact congrArg (fun d => Tensor.map (fun e : Expression ℚ x.length =>
      (e.tangent .leftOut x.get d).getD 0) _) hget
  · intro covector c hc
    have hsize : covector.size = m := by rw [Tensor.size, hc, List.length_ofFn]
    have hzip : (Vector.ofFn fun i => g (f i)).toList.zip covector.entries =
        (List.finRange m).map fun i => (g (f i), c i) := by
      rw [hc, Vector.toList_ofFn, List.ofFn_eq_map, List.ofFn_eq_map, List.zip_map']
    refine (if_pos (congrArg (fun k => [k]) hsize.symm)).trans (congrArg Except.ok ?_)
    refine congrArg Tensor.ofVector (Eq.trans ?_ (Term.foldl_cotangent_eq_mulVec x.get hg c))
    change List.foldl _ _ ((Vector.ofFn fun i => g (f i)).toList.zip covector.entries) = _
    rw [hzip, List.foldl_map]

end Operators

theorem dot_ofFn {k : Nat} (u v : Fin k → ℚ) :
    Tensor.dot (List.ofFn u) (List.ofFn v) = u ⬝ᵥ v := by
  rw [Tensor.dot, List.ofFn_eq_map, List.ofFn_eq_map, List.zipWith_map, List.zipWith_self]
  refine (Scalar.foldl_add_eq 0 _).trans ((zero_add _).trans ?_)
  exact (Fin.sum_univ_def _).symm

theorem exists_ofFn {k : Nat} {xs : List ℚ} (h : xs.length = k) :
    ∃ u : Fin k → ℚ, xs = List.ofFn u := by
  subst h
  exact ⟨xs.get, (List.ofFn_get xs).symm⟩

/-- The matrix, the operator and its transpose are one linear map, that of the formal partial
derivatives. -/
theorem jacobian_agrees [Elementary ℚ] {m n : Nat} (f : Fin m → Term n) (x : Vector ℚ n)
    (hm : 0 < m) (hn : 0 < n) (hf : ∀ i, (f i).Regular x.get) :
    (Term.array f).eval (.ofVector x) = .ok (.ofVector (.ofFn fun i => (f i).value x.get)) ∧
    (∀ i j, HasDerivAt (fun s => (f i).value (Function.update x.get j s))
      (Term.jacobianMatrix f x.get i j) (x.get j)) ∧
    (Term.array f).jacobian x.toList = .ok (matrixTensor (Term.jacobianMatrix f x.get)) ∧
    ∃ l, (Term.array f).linearize x.toList = .ok l ∧
      LinearizedBy (Term.jacobianMatrix f x.get) l ∧
      ∀ direction covector : Tensor ℚ, direction.size = n → covector.size = m → ∃ y z,
        l.apply direction = .ok y ∧ l.applyTransposed covector = .ok z ∧
        Tensor.dot covector.entries y.entries = Tensor.dot z.entries direction.entries := by
  obtain ⟨⟨x⟩, rfl⟩ := x
  have hx : x ≠ [] := List.ne_nil_of_length_pos hn
  obtain ⟨l, hl, hlinear⟩ := exists_linearize_array (x := x) f hm
  refine ⟨eval_array (x := x) f hm, fun i j => Term.hasDerivAt_value (hf i) j,
    jacobian_array (x := x) f hm hx, l, hl, hlinear, fun direction covector hd hc => ?_⟩
  obtain ⟨d, hd⟩ := exists_ofFn hd
  obtain ⟨c, hc⟩ := exists_ofFn hc
  refine ⟨_, _, hlinear.apply_eq direction d hd, hlinear.applyTransposed_eq covector c hc, ?_⟩
  have hvector {k : Nat} (u : Fin k → ℚ) :
      (Tensor.ofVector (Vector.ofFn u)).entries = List.ofFn u := Vector.toList_ofFn
  rw [hc, hd, hvector, hvector, dot_ofFn, dot_ofFn, Matrix.dotProduct_mulVec,
    ← Matrix.mulVec_transpose]

section Quotients

/-- The operations that terms do not use. -/
@[reducible] def unusedOperations : Elementary ℚ :=
  ⟨0, id, id, id, id, id, id, fun _ => id, fun _ => id⟩

attribute [local instance] unusedOperations

def quotients : Fin 2 → Term 4 :=
  ![.binary .div (.binary .mul (.coord 0 0 rfl) (.coord 1 1 rfl)) (.coord (-1) 3 rfl),
    .binary .sub (.pow (.coord 2 2 rfl) 2) (.pow (.coord 0 0 rfl) 0)]

theorem jacobian_agrees_quotients :
    (∀ i, (quotients i).Regular (#v[1, 2, 3, 4] : Vector ℚ 4).get) ∧
    (Term.array quotients).jacobian [1, 2, 3, 4] =
      .ok (matrixTensor !![1 / 2, 1 / 4, 0, -1 / 8; 0, 0, 6, 0]) ∧
    ∃ l, (Term.array quotients).linearize [1, 2, 3, 4] = .ok l ∧ l.shape = (2, 4) ∧
      l.apply (.ofList [1, 1, 1, 1]) = .ok (.ofList [5 / 8, 6]) ∧
      l.applyTransposed (.ofList [1, 1]) = .ok (.ofList [1 / 2, 1 / 4, 6, -1 / 8]) := by
  have hregular : ∀ i, (quotients i).Regular (#v[1, 2, 3, 4] : Vector ℚ 4).get := by
    refine Fin.forall_fin_two.mpr ⟨⟨⟨trivial, trivial⟩, trivial, ?_⟩, trivial, trivial⟩
    decide +kernel
  have hmatrix : Term.jacobianMatrix quotients (#v[1, 2, 3, 4] : Vector ℚ 4).get =
      !![1 / 2, 1 / 4, 0, -1 / 8; 0, 0, 6, 0] := by
    decide +kernel
  obtain ⟨-, -, hjacobian, l, hl, hlinear, -⟩ :=
    jacobian_agrees quotients #v[1, 2, 3, 4] (by decide) (by decide) hregular
  rw [hmatrix] at hjacobian hlinear
  have happly := hlinear.apply_eq (.ofList [1, 1, 1, 1]) ![1, 1, 1, 1] rfl
  have htransposed := hlinear.applyTransposed_eq (.ofList [1, 1]) ![1, 1] rfl
  refine ⟨hregular, hjacobian, l, hl, hlinear.shape_eq, happly.trans ?_, htransposed.trans ?_⟩
  · exact congrArg Except.ok (Tensor.eq_of_entries rfl (by decide +kernel))
  · exact congrArg Except.ok (Tensor.eq_of_entries rfl (by decide +kernel))

end Quotients

end VertexPlacement
