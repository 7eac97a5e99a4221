import VertexPlacement.Proofs.Lookup

namespace VertexPlacement

section

variable {β γ δ ε : Type} {steps : List β} {fails fails' : β → ε → Prop} {e : ε}

/-- The first of the steps that fails has this fault. -/
def FirstFailure (steps : List β) (fails : β → ε → Prop) (e : ε) : Prop :=
  ∃ before s after, steps = before ++ s :: after ∧ (∀ t ∈ before, ∀ f, ¬ fails t f) ∧ fails s e

theorem FirstFailure.exists_fails (h : FirstFailure steps fails e) : ∃ s ∈ steps, fails s e := by
  obtain ⟨before, s, after, rfl, -, hs⟩ := h
  exact ⟨s, by simp, hs⟩

@[simp] theorem not_firstFailure_nil : ¬ FirstFailure ([] : List β) fails e := by
  rintro h
  obtain ⟨s, hs, -⟩ := h.exists_fails
  simp at hs

@[simp] theorem firstFailure_cons {s : β} : FirstFailure (s :: steps) fails e ↔
    fails s e ∨ (∀ f, ¬ fails s f) ∧ FirstFailure steps fails e := by
  constructor
  · rintro ⟨before, t, after, hsteps, hbefore, ht⟩
    cases before with
    | nil =>
      cases hsteps
      exact .inl ht
    | cons _ before =>
      cases hsteps
      exact .inr ⟨hbefore s (by simp), before, t, after, rfl,
        fun u hu => hbefore u (by simp [hu]), ht⟩
  · rintro (hs | ⟨hs, before, t, after, rfl, hbefore, ht⟩)
    · exact ⟨[], s, steps, rfl, by simp, hs⟩
    · exact ⟨s :: before, t, after, rfl, List.forall_mem_cons.mpr ⟨hs, hbefore⟩, ht⟩

theorem firstFailure_cons_of_passes {s : β} (h : ∀ f, ¬ fails s f) :
    FirstFailure (s :: steps) fails e ↔ FirstFailure steps fails e := by
  simp [h]

theorem firstFailure_append {xs ys : List β} : FirstFailure (xs ++ ys) fails e ↔
    FirstFailure xs fails e ∨ (∀ x ∈ xs, ∀ f, ¬ fails x f) ∧ FirstFailure ys fails e := by
  induction xs with
  | nil => simp
  | cons x rest ih =>
    rw [List.cons_append, firstFailure_cons, firstFailure_cons, ih, List.forall_mem_cons]
    tauto

theorem firstFailure_map {g : γ → β} {xs : List γ} :
    FirstFailure (xs.map g) fails e ↔ FirstFailure xs (fun x => fails (g x)) e := by
  induction xs with
  | nil => simp
  | cons x rest ih => rw [List.map_cons, firstFailure_cons, firstFailure_cons, ih]

theorem firstFailure_congr (h : ∀ s ∈ steps, ∀ f, fails s f ↔ fails' s f) :
    FirstFailure steps fails e ↔ FirstFailure steps fails' e := by
  induction steps with
  | nil => simp
  | cons s rest ih =>
    obtain ⟨hs, hrest⟩ := List.forall_mem_cons.mp h
    simp only [firstFailure_cons, hs, ih hrest]

theorem exists_firstFailure_iff (steps : List β) (fails : β → ε → Prop) :
    (∃ e, FirstFailure steps fails e) ↔ ∃ s ∈ steps, ∃ e, fails s e := by
  induction steps with
  | nil => simp
  | cons s rest ih =>
    simp only [firstFailure_cons, List.mem_cons, exists_eq_or_imp, exists_or, exists_and_left, ih]
    by_cases hs : ∃ e, fails s e
    · simp [hs]
    · simp [not_exists.mp hs]

/-- What fails as its steps do succeeds if and only if all of them pass. -/
theorem exists_eq_ok_iff {x : Except ε γ} (h : ∀ e, x = .error e ↔ FirstFailure steps fails e) :
    (∃ y, x = .ok y) ↔ ∀ s ∈ steps, ∀ e, ¬ fails s e := by
  constructor
  · rintro ⟨y, hy⟩ s hs e he
    obtain ⟨e', he'⟩ := (exists_firstFailure_iff steps fails).mpr ⟨s, hs, e, he⟩
    cases hy.symm.trans ((h e').mpr he')
  · refine fun hpass => exists_eq_ok fun e he => ?_
    obtain ⟨s, hs, hfail⟩ := ((h e).mp he).exists_fails
    exact hpass s hs e hfail

theorem error_eq_error_iff_firstFailure {g : ε} {s : β} (h : ∀ f, fails s f ↔ f = g) :
    (.error g : Except ε γ) = .error e ↔ FirstFailure (s :: steps) fails e := by
  simp [h, eq_comm]

theorem bind_eq_error_iff_firstFailure {x : Except ε γ} {f : γ → Except ε δ}
    {s : β} (hx : ∀ e, x = .error e ↔ fails s e)
    (hf : ∀ y, x = .ok y → (f y = .error e ↔ FirstFailure steps fails e)) :
    x >>= f = .error e ↔ FirstFailure (s :: steps) fails e := by
  rw [firstFailure_cons, ← hx, bind_eq_error_iff_or]
  refine or_congr_right ⟨?_, ?_⟩
  · rintro ⟨y, hy, he⟩
    exact ⟨fun g hg => (by cases hy.symm.trans ((hx g).mpr hg)), (hf y hy).mp he⟩
  · rintro ⟨hpass, he⟩
    obtain ⟨y, hy⟩ := exists_eq_ok fun g hg => hpass g ((hx g).mp hg)
    exact ⟨y, hy, (hf y hy).mpr he⟩

theorem mapM_eq_error_iff {f : β → Except ε γ} {xs : List β} :
    xs.mapM f = .error e ↔ FirstFailure xs (fun x e => f x = .error e) e := by
  induction xs with
  | nil =>
    rw [List.mapM_nil]
    exact ⟨nofun, fun h => absurd h not_firstFailure_nil⟩
  | cons x rest ih =>
    rw [List.mapM_cons]
    exact bind_eq_error_iff_firstFailure (fun _ => Iff.rfl) fun y _ =>
      (bind_eq_error_iff fun ys _ => ⟨y :: ys, rfl⟩).trans ih

end

end VertexPlacement
