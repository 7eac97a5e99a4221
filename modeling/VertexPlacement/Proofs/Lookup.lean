import Mathlib.Data.List.Forall2
import VertexPlacement.Entity

namespace VertexPlacement

section

variable {β γ ε : Type}

theorem ok_bind (y : β) (f : β → Except ε γ) : .ok y >>= f = f y := rfl

theorem bind_eq_ok_iff {x : Except ε β} {f : β → Except ε γ} {z : γ} :
    x >>= f = .ok z ↔ ∃ y, x = .ok y ∧ f y = .ok z := by
  cases x with
  | error e => exact ⟨nofun, nofun⟩
  | ok y => exact ⟨fun h => ⟨y, rfl, h⟩, fun ⟨_, hy, hz⟩ => by cases hy; exact hz⟩

theorem eq_ok_of_isOk {x : Except ε Unit} (h : x.isOk = true) : x = .ok () := by
  cases x with
  | error e => cases h
  | ok _ => rfl

theorem exists_eq_ok {x : Except ε β} (h : ∀ e, x ≠ .error e) : ∃ y, x = .ok y := by
  cases x with
  | error e => exact absurd rfl (h e)
  | ok y => exact ⟨y, rfl⟩

theorem filterMap_toOption_cons (x : Except ε β) (xs : List (Except ε β)) :
    (x :: xs).filterMap Except.toOption = x.toOption.toList ++ xs.filterMap Except.toOption := by
  cases x with
  | error _ => rfl
  | ok _ => rfl

theorem bind_eq_error_iff_or {x : Except ε β} {f : β → Except ε γ} {e : ε} :
    x >>= f = .error e ↔ x = .error e ∨ ∃ y, x = .ok y ∧ f y = .error e := by
  cases x with
  | error e' => exact ⟨fun h => .inl (by cases h; rfl), fun h => by
      rcases h with h | ⟨y, h, -⟩
      · cases h
        rfl
      · cases h⟩
  | ok y => exact ⟨fun h => .inr ⟨y, rfl, h⟩, fun h => by
      rcases h with h | ⟨z, h, hz⟩
      · cases h
      · cases h
        exact hz⟩

section Guarded

variable {p : Prop} [Decidable p] {f : p → γ} {e : ε}

theorem dite_eq_ok_iff {z : γ} :
    (if h : p then .ok (f h) else .error e : Except ε γ) = .ok z ↔ ∃ h, f h = z := by
  by_cases h : p
  · rw [dif_pos h, Except.ok.injEq]
    exact ⟨fun hz => ⟨h, hz⟩, fun ⟨_, hz⟩ => hz⟩
  · rw [dif_neg h]
    exact ⟨nofun, fun ⟨hp, _⟩ => absurd hp h⟩

theorem exists_dite_eq_ok_iff :
    (∃ z, (if h : p then .ok (f h) else .error e : Except ε γ) = .ok z) ↔ p := by
  simp only [dite_eq_ok_iff]
  exact ⟨fun ⟨_, h, _⟩ => h, fun h => ⟨f h, h, rfl⟩⟩

end Guarded

theorem Fault.fitted_eq_ok_iff {α : Type} {o : Option β} {y : β} :
    (Fault.fitted o : Except (Fault α) β) = .ok y ↔ o = some y := by
  cases o with
  | none => exact ⟨nofun, nofun⟩
  | some z => simp [Fault.fitted]

/-- A step that always succeeds brings no fault. -/
theorem bind_eq_error_iff {x : Except ε β} {f : β → Except ε γ} {e : ε}
    (h : ∀ y, x = .ok y → ∃ z, f y = .ok z) : x >>= f = .error e ↔ x = .error e := by
  rw [bind_eq_error_iff_or]
  refine or_iff_left ?_
  rintro ⟨y, hy, he⟩
  obtain ⟨z, hz⟩ := h y hy
  cases hz.symm.trans he

theorem exists_mapM_forall₂ {δ : Type} {f : β → Except ε γ} {g : δ → γ} {R : β → δ → Prop}
    {xs : List β} (h : ∀ x ∈ xs, ∃ y, f x = .ok (g y) ∧ R x y) :
    ∃ ys : List δ, xs.mapM f = .ok (ys.map g) ∧ List.Forall₂ R xs ys := by
  induction xs with
  | nil => exact ⟨[], rfl, .nil⟩
  | cons x rest ih =>
    obtain ⟨y, hy, hR⟩ := h x (by simp)
    obtain ⟨ys, hys, hRs⟩ := ih fun u hu => h u (by simp [hu])
    refine ⟨y :: ys, ?_, .cons hR hRs⟩
    rw [List.mapM_cons, hy, hys]
    rfl

theorem exists_mapM_eq_ok {δ : Type} {f : β → Except ε γ} {g : δ → γ} {P : δ → Prop} {xs : List β}
    (h : ∀ x ∈ xs, ∃ y, f x = .ok (g y) ∧ P y) :
    ∃ ys : List δ, xs.mapM f = .ok (ys.map g) ∧ ys.length = xs.length ∧ ∀ y ∈ ys, P y := by
  obtain ⟨ys, hys, hP⟩ := exists_mapM_forall₂ (R := fun _ y => P y) h
  have hflip : List.Forall₂ (fun y _ => P y ∧ True) ys xs := hP.flip.imp fun _ _ hy => ⟨hy, trivial⟩
  exact ⟨ys, hys, hP.length_eq.symm, ((List.forall₂_and_left _ _).mp hflip).1⟩

theorem mapM_eq_ok_iff {f : β → Except ε γ} {xs : List β} {ys : List γ} :
    xs.mapM f = .ok ys ↔ List.Forall₂ (fun x y => f x = .ok y) xs ys := by
  refine ⟨fun h => ?_, fun h => ?_⟩
  · induction xs generalizing ys with
    | nil =>
      cases h
      exact .nil
    | cons x rest ih =>
      rw [List.mapM_cons] at h
      obtain ⟨y, hy, h⟩ := bind_eq_ok_iff.mp h
      obtain ⟨zs, hzs, h⟩ := bind_eq_ok_iff.mp h
      cases h
      exact .cons hy (ih hzs)
  · induction h with
    | nil => rfl
    | cons hy _ ih =>
      rw [List.mapM_cons, hy, ih]
      rfl

theorem of_mapM_eq_ok {f : β → Except ε γ} {P : β → Prop} {Q : γ → Prop} {xs : List β}
    {ys : List γ} (h : xs.mapM f = .ok ys) (hf : ∀ x ∈ xs, ∀ y, f x = .ok y → P x ∧ Q y) :
    (∀ x ∈ xs, P x) ∧ (∀ y ∈ ys, Q y) ∧ ys.length = xs.length := by
  replace h := mapM_eq_ok_iff.mp h
  induction h with
  | nil => simp
  | @cons x y xs ys hx _ ih =>
    obtain ⟨hP, hQ⟩ := hf x (by simp) y hx
    obtain ⟨hPs, hQs, hlen⟩ := ih fun u hu => hf u (by simp [hu])
    exact ⟨List.forall_mem_cons.mpr ⟨hP, hPs⟩, List.forall_mem_cons.mpr ⟨hQ, hQs⟩, by simp [hlen]⟩

theorem mapM_congr {f g : β → Except ε γ} {xs : List β} (h : ∀ x ∈ xs, f x = g x) :
    xs.mapM f = xs.mapM g := by
  induction xs with
  | nil => rfl
  | cons x rest ih =>
    obtain ⟨hx, hrest⟩ := List.forall_mem_cons.mp h
    rw [List.mapM_cons, List.mapM_cons, hx, ih hrest]

theorem filterMap_range_getElem? (items : List β) :
    (List.range items.length).filterMap (items[·]?) = items := by
  induction items with
  | nil => rfl
  | cons x rest ih =>
    have htail : (List.range rest.length).filterMap (fun i => (x :: rest)[i + 1]?) = rest := ih
    rw [List.length_cons, List.range_succ_eq_map, List.filterMap_cons, List.filterMap_map]
    exact congrArg (x :: ·) htail

end

namespace Entity

variable {α β : Type} {items : List β} {i : Nat}

theorem item_of_lt (hi : i < items.length) :
    item items i = (.ok items[i] : Except (Fault α) β) := by
  rw [item, List.getElem?_eq_getElem hi]

theorem item_of_le (hi : items.length ≤ i) :
    (item items i : Except (Fault α) β) = .error .badIndex := by
  rw [item, List.getElem?_eq_none hi]

theorem item_eq_ok_iff {x : β} :
    (item items i : Except (Fault α) β) = .ok x ↔ items[i]? = some x := by
  rw [item]
  split
  · next y hy => simp [hy]
  · next hy => simp [hy]

theorem item_bind_congr {γ δ : Type} {items' : List γ} {f : β → Except (Fault α) δ}
    {g : γ → Except (Fault α) δ} (hlen : items'.length = items.length)
    (h : ∀ x y, items[i]? = some x → items'[i]? = some y → f x = g y) :
    item items i >>= f = item items' i >>= g := by
  by_cases hi : i < items.length
  · have hi' : i < items'.length := by rwa [hlen]
    rw [item_of_lt hi, item_of_lt hi', ok_bind, ok_bind]
    exact h _ _ (List.getElem?_eq_getElem hi) (List.getElem?_eq_getElem hi')
  · have hi' : ¬ i < items'.length := by rwa [hlen]
    rw [item_of_le (Nat.not_lt.mp hi), item_of_le (Nat.not_lt.mp hi')]
    rfl

theorem mapM_range_item {γ : Type} (f : β → Except (Fault α) γ) (items : List β) :
    ((List.range items.length).mapM fun i => item items i >>= f) = items.mapM f := by
  induction items with
  | nil => rfl
  | cons x rest ih =>
    have htail : ((List.range rest.length).mapM ((fun i => item (x :: rest) i >>= f) ∘ Nat.succ)) =
        rest.mapM f := ih
    rw [List.length_cons, List.range_succ_eq_map, List.mapM_cons, List.mapM_map, htail,
      List.mapM_cons]
    rfl

end Entity

end VertexPlacement
