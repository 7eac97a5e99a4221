import VertexPlacement.Jacobian
import VertexPlacement.Proofs.Lookup
import VertexPlacement.Scalar.Binary64

namespace VertexPlacement

namespace Tensor

variable {α α' β β' γ γ' : Type}

theorem shape_eq_row_iff {t : Tensor α} {k : Nat} :
    t.shape = [k] ↔ t.shape.length = 1 ∧ k = t.size := by
  have hsize (m : Nat) (h : t.shape = [m]) : m = t.size := by
    rw [size, t.size_eq, h]
    exact (Nat.mul_one m).symm
  constructor
  · intro h
    exact ⟨congrArg List.length h, hsize k h⟩
  · rintro ⟨hlen, rfl⟩
    obtain ⟨m, hm⟩ := List.length_eq_one_iff.mp hlen
    rw [← hsize m hm, hm]

theorem length_spread_congr (s t : List Nat) {xs : List α} {ys : List β}
    (h : xs.length = ys.length) : (spread s t xs).length = (spread s t ys).length := by
  induction s generalizing t xs ys with
  | nil => exact h
  | cons m s ih =>
    cases t with
    | nil => exact h
    | cons n t =>
      rw [spread, spread]
      by_cases hmn : m = n
      · rw [if_pos hmn, if_pos hmn, List.length_flatMap, List.length_flatMap]
        refine congrArg List.sum (List.map_congr_left fun i _ => ih t ?_)
        rw [List.length_take, List.length_take, List.length_drop, List.length_drop, h]
      · rw [if_neg hmn, if_neg hmn, List.length_flatten, List.length_flatten, List.map_replicate,
          List.map_replicate, ih t h]

/-- Whether arrays can be combined, and to which extents, does not depend on their entries. -/
theorem shape_combine?_congr (f : α → β → γ) (g : α' → β' → γ') {a : Tensor α} {b : Tensor β}
    {a' : Tensor α'} {b' : Tensor β'} (ha : a'.shape = a.shape) (hb : b'.shape = b.shape) :
    (combine? g a' b').map shape = (combine? f a b).map shape := by
  unfold combine?
  rw [ha, hb]
  by_cases hs : a.shape = b.shape
  · rw [if_pos hs, if_pos hs, zip?, zip?, dif_pos hs, dif_pos (ha.trans (hs.trans hb.symm))]
    exact congrArg some ha
  · rw [if_neg hs, if_neg hs]
    dsimp only
    cases joinExtents? (padShape (max a.shape.length b.shape.length) a.shape)
      (padShape (max a.shape.length b.shape.length) b.shape) with
    | none => rfl
    | some extents =>
      simp only [Option.bind_some, List.length_zipWith,
        length_spread_congr _ _ (size_eq_of_shape ha),
        length_spread_congr _ _ (size_eq_of_shape hb)]
      split <;> rfl

theorem shape_stack?_congr {ts : List (Tensor α)} {us : List (Tensor β)}
    (h : us.map shape = ts.map shape) : (stack? us).map shape = (stack? ts).map shape := by
  cases ts with
  | nil =>
    obtain rfl : us = [] := List.map_eq_nil_iff.mp h
    rfl
  | cons t rest =>
    cases us with
    | nil => cases h
    | cons u rest' =>
      obtain ⟨hu, hrest⟩ := List.cons.inj h
      have hlen : rest'.length = rest.length := by simpa using congrArg List.length hrest
      have hsame : (∀ x ∈ u :: rest', x.shape = u.shape) ↔ ∀ x ∈ t :: rest, x.shape = t.shape := by
        rw [← List.forall_mem_map (f := shape) (P := (· = u.shape)), h, hu, List.forall_mem_map]
      rw [stack?, stack?]
      by_cases hts : ∀ x ∈ t :: rest, x.shape = t.shape
      · rw [dif_pos hts, dif_pos (hsame.mpr hts)]
        simp only [Option.map_some, List.length_cons, hlen, hu]
      · rw [dif_neg hts, dif_neg (mt hsame.mp hts)]
        rfl

theorem exists_of_map_shape {o : Option (Tensor α)} {o' : Option (Tensor β)} {t : Tensor α}
    (h : o'.map shape = o.map shape) (ho : o = some t) :
    ∃ t', o' = some t' ∧ t'.shape = t.shape := by
  subst ho
  exact Option.map_eq_some_iff.mp h

end Tensor

namespace Formula

variable {α : Type} {n : Nat}

mutual

/-- Every part of the formula is something that differentiation takes. -/
def Traceable : Formula α → Prop
  | const _ => True
  | fixed _ => True
  | changeless _ => False
  | coord _ => True
  | unary _ a => a.Traceable
  | binary _ a b => a.Traceable ∧ b.Traceable
  | pow a _ => a.Traceable
  | array items => AllTraceable items
  | faulty _ => True

def AllTraceable : List (Formula α) → Prop
  | [] => True
  | f :: rest => f.Traceable ∧ AllTraceable rest

end

theorem map_shape_steadied (mode : Option Constancy) (ts : List (Tensor (Expression α n))) :
    (steadied mode ts).map Tensor.shape = ts.map Tensor.shape := by
  unfold steadied
  cases mode with
  | none => rfl
  | some constancy =>
    by_cases h : (ts.any fun t => t.entries.any (Expression.varies constancy)) = true
    · refine (congrArg (List.map _) (if_pos h)).trans ?_
      rw [List.map_map]
      rfl
    · exact congrArg (List.map _) (if_neg h)

variable {coords : Tensor (Fin n)} (constancy : Constancy)

mutual

-- Extents are only looked at where arrays are joined or combined, and there the parts have the same
-- ones in both modes.
/-- What is evaluated can be differentiated, and its extents do not change. -/
theorem exists_expand : ∀ (f : Formula α), f.Traceable → ∀ {u : Tensor (Expression α n)},
    f.expand none coords = .ok u →
      ∃ v, f.expand (some constancy) coords = .ok v ∧ v.shape = u.shape
  | const _, _, u, h => ⟨u, h, rfl⟩
  | fixed _, _, u, h => ⟨u, h, rfl⟩
  | changeless _, hf, _, _ => hf.elim
  | coord _, _, u, h => ⟨u, h, rfl⟩
  | unary _ a, hf, _, h => by
    rw [expand] at h ⊢
    obtain ⟨u, hu, h⟩ := bind_eq_ok_iff.mp h
    cases h
    obtain ⟨v, hv, hs⟩ := exists_expand a hf hu
    rw [hv]
    exact ⟨_, rfl, hs⟩
  | binary f a b, hf, t, h => by
    rw [expand] at h ⊢
    obtain ⟨u, hu, h⟩ := bind_eq_ok_iff.mp h
    obtain ⟨v, hv, h⟩ := bind_eq_ok_iff.mp h
    obtain ⟨u', hu', hus⟩ := exists_expand a hf.1 hu
    obtain ⟨v', hv', hvs⟩ := exists_expand b hf.2 hv
    have hshape := Tensor.shape_combine?_congr (Expression.binary f) (Expression.binary f) hus hvs
    rw [hu', hv', ok_bind, ok_bind]
    cases hc : Tensor.combine? (Expression.binary f) u v with
    | none =>
      rw [hc] at h
      cases h
    | some w =>
      rw [hc] at h
      cases h
      obtain ⟨w, hw, hws⟩ := Tensor.exists_of_map_shape hshape hc
      rw [hw]
      exact ⟨w, rfl, hws⟩
  | pow a _, hf, _, h => by
    rw [expand] at h ⊢
    obtain ⟨u, hu, h⟩ := bind_eq_ok_iff.mp h
    cases h
    obtain ⟨v, hv, hs⟩ := exists_expand a hf hu
    rw [hv]
    exact ⟨_, rfl, hs⟩
  | array items, hf, t, h => by
    rw [expand] at h ⊢
    obtain ⟨us, hus, h⟩ := bind_eq_ok_iff.mp h
    obtain ⟨vs, hvs, hs⟩ := exists_expandAll items hf hus
    have hne : us ≠ [] := by
      rintro rfl
      cases h
    have hne' : vs ≠ [] := fun hnil => hne (by simpa [hnil] using hs)
    have hshape := Tensor.shape_stack?_congr ((map_shape_steadied (some constancy) vs).trans hs)
    rw [if_neg (mt List.isEmpty_iff.mp hne)] at h
    obtain ⟨w, hw, hws⟩ := Tensor.exists_of_map_shape hshape (Fault.fitted_eq_ok_iff.mp h)
    rw [hvs, ok_bind, if_neg (mt List.isEmpty_iff.mp hne')]
    exact ⟨w, Fault.fitted_eq_ok_iff.mpr hw, hws⟩
  | faulty _, _, u, h => ⟨u, h, rfl⟩

theorem exists_expandAll : ∀ (fs : List (Formula α)), AllTraceable fs →
    ∀ {us : List (Tensor (Expression α n))}, expandAll none coords fs = .ok us →
      ∃ vs, expandAll (some constancy) coords fs = .ok vs ∧
        vs.map Tensor.shape = us.map Tensor.shape
  | [], _, us, h => ⟨us, h, rfl⟩
  | f :: rest, hf, _, h => by
    rw [expandAll] at h ⊢
    obtain ⟨u, hu, h⟩ := bind_eq_ok_iff.mp h
    obtain ⟨us, hus, h⟩ := bind_eq_ok_iff.mp h
    cases h
    obtain ⟨v, hv, hs⟩ := exists_expand f hf.1 hu
    obtain ⟨vs, hvs, hss⟩ := exists_expandAll rest hf.2 hus
    rw [hv, hvs]
    exact ⟨v :: vs, rfl, congrArg₂ List.cons hs hss⟩

end

variable [Scalar α] [Elementary α] {f : Formula α} {x : List α}

theorem exists_trace (hf : f.Traceable) {y : Tensor α} (hy : f.eval (.ofList x) = .ok y) :
    ∃ values, f.trace constancy x.length = .ok values ∧ values.shape = y.shape := by
  obtain ⟨u, hu, h⟩ := bind_eq_ok_iff.mp hy
  cases h
  exact exists_expand constancy f hf hu

theorem exists_jacobian (hf : f.Traceable) (hx : x ≠ []) {y : Tensor α}
    (hy : f.eval (.ofList x) = .ok y) :
    ∃ a, f.jacobian x = .ok a ∧ a.shape = [y.size, x.length] := by
  obtain ⟨values, hvalues, hs⟩ := exists_trace .handedOn hf hy
  rw [jacobian, hvalues, ok_bind, if_neg (mt List.isEmpty_iff.mp hx)]
  exact ⟨_, rfl, congrArg (fun s => [s, x.length]) (Tensor.size_eq_of_shape hs)⟩

theorem exists_linearize (hf : f.Traceable) {y : Tensor α} (hy : f.eval (.ofList x) = .ok y) :
    ∃ l, f.linearize x = .ok l ∧ l.inputs = x.length ∧ l.values.shape = y.shape := by
  obtain ⟨values, hvalues, hs⟩ := exists_trace .leftOut hf hy
  rw [linearize, hvalues]
  exact ⟨_, rfl, rfl, hs⟩

end Formula

namespace Linearization

variable {α : Type} [Scalar α] [Elementary α] (l : Linearization α)

theorem exists_apply_iff (direction : Tensor α) :
    (∃ t, l.apply direction = .ok t) ↔ direction.size = l.inputs :=
  exists_dite_eq_ok_iff

theorem shape_of_apply {direction t : Tensor α} (h : l.apply direction = .ok t) :
    t.shape = l.values.shape := by
  obtain ⟨-, rfl⟩ := dite_eq_ok_iff.mp h
  rfl

theorem exists_applyTransposed_iff (covector : Tensor α) :
    (∃ t, l.applyTransposed covector = .ok t) ↔
      l.values.shape.length = 1 ∧ covector.size = l.values.size := by
  rw [← Tensor.shape_eq_row_iff]
  exact exists_dite_eq_ok_iff

theorem shape_of_applyTransposed {covector t : Tensor α}
    (h : l.applyTransposed covector = .ok t) : t.shape = [l.inputs] := by
  obtain ⟨-, rfl⟩ := dite_eq_ok_iff.mp h
  rfl

end Linearization

namespace Formula

variable {α : Type} [Scalar α] [Elementary α]

/-- A formula that can be evaluated, and of which no part is without a change, has a matrix and an
operator with a row for each value and a column for each coordinate, whatever extents the values
have. The operator takes directions that have as many entries as there are columns, and covectors
that have as many entries as there are rows, but the latter only of values in a single row. -/
theorem linearize_accepts (f : Formula α) (x : List α) (hf : f.Traceable) (hx : x ≠ [])
    {y : Tensor α} (hy : f.eval (.ofList x) = .ok y) :
    ∃ a l, f.jacobian x = .ok a ∧ f.linearize x = .ok l ∧
      a.shape = [y.size, x.length] ∧ l.shape = (y.size, x.length) ∧
      (∀ direction, (∃ t, l.apply direction = .ok t) ↔ direction.size = x.length) ∧
      (∀ direction t, l.apply direction = .ok t → t.shape = y.shape) ∧
      (∀ covector, (∃ t, l.applyTransposed covector = .ok t) ↔
        y.shape.length = 1 ∧ covector.size = y.size) ∧
      ∀ covector t, l.applyTransposed covector = .ok t → t.shape = [x.length] := by
  obtain ⟨a, ha, hrows⟩ := exists_jacobian hf hx hy
  obtain ⟨l, hl, hinputs, hvalues⟩ := exists_linearize hf hy
  have hsize : l.values.size = y.size := Tensor.size_eq_of_shape hvalues
  refine ⟨a, l, ha, hl, hrows, Prod.ext hsize hinputs, fun direction => ?_,
    fun direction t ht => ?_, fun covector => ?_, fun covector t ht => ?_⟩
  · rw [l.exists_apply_iff, hinputs]
  · rw [l.shape_of_apply ht, hvalues]
  · rw [l.exists_applyTransposed_iff, hvalues, hsize]
  · rw [l.shape_of_applyTransposed ht, hinputs]

def sides : Formula Float := .array [.coord 0, .binary .mul (.coord 0) (.coord (-1)), .const 1]

theorem linearize_accepts_sides : sides.Traceable ∧
    ∃ y l, sides.eval (.ofList [2, 3]) = .ok y ∧ y.shape = [3] ∧ sides.linearize [2, 3] = .ok l ∧
      l.shape = (3, 2) ∧ (∃ t, l.apply ⟨[1, 2], [1, 0], rfl⟩ = .ok t ∧ t.shape = [3]) ∧
      (∃ t, l.applyTransposed ⟨[3, 1], [1, 0, 1], rfl⟩ = .ok t ∧ t.shape = [2]) ∧
      ¬ ∃ t, l.applyTransposed (.ofList [1, 0]) = .ok t := by
  have hf : sides.Traceable := ⟨trivial, ⟨trivial, trivial⟩, trivial, trivial⟩
  obtain ⟨y, hy, hshape⟩ : ∃ y, sides.eval (.ofList [2, 3]) = .ok y ∧ y.shape = [3] :=
    ⟨_, rfl, rfl⟩
  obtain ⟨a, l, -, hl, -, hdeclared, happly, hvalues, htransposed, hpulled⟩ :=
    linearize_accepts sides [2, 3] hf (List.cons_ne_nil _ _) hy
  have hsize : y.size = 3 := by rw [Tensor.size, y.size_eq, hshape]; rfl
  rw [hshape, hsize] at htransposed
  obtain ⟨t, ht⟩ := (happly ⟨[1, 2], [1, 0], rfl⟩).mpr (by simp [Tensor.size])
  obtain ⟨u, hu⟩ := (htransposed ⟨[3, 1], [1, 0, 1], rfl⟩).mpr ⟨rfl, rfl⟩
  refine ⟨hf, y, l, hy, hshape, hl, hdeclared.trans (congrArg (·, 2) hsize),
    ⟨t, ht, (hvalues _ t ht).trans hshape⟩, ⟨u, hu, hpulled _ u hu⟩, fun hshort => ?_⟩
  have hlen : (Tensor.ofList [(1 : Float), 0]).size = 3 := ((htransposed _).mp hshort).2
  cases hlen

/-- The product of the coordinates, which is a single number without extents. -/
def area : Formula Float := .binary .mul (.coord 0) (.coord 1)

/-- The operator is declared to have one row, but there is no covector that it takes. -/
theorem area_accepts_no_covector : ∃ l, area.linearize [2, 3] = .ok l ∧ l.shape = (1, 2) ∧
    (∃ t, l.apply (.ofList [1, 0]) = .ok t) ∧
    ∀ covector, l.applyTransposed covector = .error .badValue :=
  ⟨_, rfl, rfl, ⟨_, rfl⟩, fun _ => if_neg nofun⟩

end Formula

end VertexPlacement
