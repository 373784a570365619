import Mathlib.Data.List.Forall2

/-!
What a traversal that may fail gives: one result for each element, or the first failure. And what two
traversals give that go in step.
-/

namespace Trendline

variable {α β ε : Type} {f : α → Except ε β}

theorem mapError_eq_error_iff {ε' : Type} {x : Except ε α} {g : ε → ε'} {e : ε'} :
    x.mapError g = .error e ↔ ∃ e₀, x = .error e₀ ∧ g e₀ = e := by
  cases x with
  | ok a => simp [Except.mapError]
  | error e₀ => simp [Except.mapError]

@[simp]
theorem ok_bind (x : α) (f : α → Except ε β) : (Except.ok x >>= f) = f x :=
  rfl

theorem bind_eq_ok_iff {x : Except ε α} {b : β} :
    (x >>= f) = .ok b ↔ ∃ a, x = .ok a ∧ f a = .ok b := by
  cases x with
  | error e => simp [bind, Except.bind]
  | ok a => simp

@[simp]
theorem pure_eq_ok (x : α) : (pure x : Except ε α) = .ok x :=
  rfl

theorem mapM_congr {g : α → Except ε β} {xs : List α} (h : ∀ x ∈ xs, f x = g x) :
    xs.mapM f = xs.mapM g := by
  induction xs with
  | nil => rfl
  | cons x xs ih =>
      rw [List.forall_mem_cons] at h
      rw [List.mapM_cons, List.mapM_cons, h.1, ih h.2]

theorem mapM_ok_iff {xs : List α} {ys : List β} :
    xs.mapM f = .ok ys ↔ List.Forall₂ (fun x y => f x = .ok y) xs ys := by
  induction xs generalizing ys with
  | nil => cases ys <;> simp [pure, Except.pure]
  | cons x xs ih =>
      rw [List.mapM_cons, List.forall₂_cons_left_iff]
      cases head : f x with
      | error e => simp [bind, Except.bind]
      | ok y =>
          cases tail : xs.mapM f with
          | error e => simp [bind, Except.bind, ← ih, tail]
          | ok zs =>
              simp only [bind, Except.bind, pure, Except.pure, Except.ok.injEq, ← ih, tail]
              constructor
              · intro same
                cases same
                exact ⟨y, zs, rfl, rfl, rfl⟩
              · intro h
                obtain ⟨y', zs', rfl, rfl, rfl⟩ := h
                rfl

theorem mapM_error_iff {xs : List α} {e : ε} :
    xs.mapM f = .error e ↔ ∃ before x later, xs = before ++ x :: later ∧ f x = .error e ∧
      ∀ y ∈ before, ∃ b, f y = .ok b := by
  induction xs with
  | nil => simp [pure, Except.pure]
  | cons x xs ih =>
      rw [List.mapM_cons]
      cases head : f x with
      | error err =>
          simp only [bind, Except.bind, Except.error.injEq]
          constructor
          · intro same
            cases same
            exact ⟨[], x, xs, rfl, head, by simp⟩
          · intro ⟨before, z, later, split, failure, fine⟩
            cases before with
            | nil =>
                cases split
                exact Except.error.inj (head.symm.trans failure)
            | cons y before =>
                cases split
                obtain ⟨b, success⟩ := fine x List.mem_cons_self
                cases head.symm.trans success
      | ok y =>
          have step : (Except.ok y >>= fun b => xs.mapM f >>= fun bs => pure (b :: bs)) =
              (.error e : Except ε (List β)) ↔ xs.mapM f = .error e := by
            cases tail : xs.mapM f <;> simp [bind, Except.bind, pure, Except.pure]
          rw [step, ih]
          constructor
          · intro h
            obtain ⟨before, z, later, rfl, failure, fine⟩ := h
            exact ⟨x :: before, z, later, rfl, failure, by simpa [head] using fine⟩
          · intro ⟨before, z, later, split, failure, fine⟩
            cases before with
            | nil =>
                cases split
                cases head.symm.trans failure
            | cons w before =>
                cases split
                exact ⟨before, z, later, rfl, failure,
                  fun v mem => fine v (List.mem_cons_of_mem _ mem)⟩

theorem forM_ok_iff {f : α → Except ε Unit} {xs : List α} :
    xs.forM f = .ok () ↔ ∀ x ∈ xs, f x = .ok () := by
  induction xs with
  | nil => simp [pure, Except.pure]
  | cons x xs ih =>
      have step : (x :: xs).forM f = f x >>= fun _ => xs.forM f := rfl
      rw [step, bind_eq_ok_iff, List.forall_mem_cons, ih]
      exact ⟨fun ⟨_, h⟩ => h, fun h => ⟨(), h⟩⟩

theorem exists_mapM_ok_iff {xs : List α} :
    (∃ ys, xs.mapM f = .ok ys) ↔ ∀ x ∈ xs, ∃ y, f x = .ok y := by
  simp only [mapM_ok_iff]
  induction xs with
  | nil => simp
  | cons x xs ih =>
      simp only [List.forall₂_cons_left_iff, List.forall_mem_cons, ← ih]
      constructor
      · intro h
        obtain ⟨-, y, ys, head, tail, rfl⟩ := h
        exact ⟨⟨y, head⟩, ys, tail⟩
      · intro ⟨⟨y, head⟩, ys, tail⟩
        exact ⟨y :: ys, y, ys, head, tail, rfl⟩

section Total

variable {xs : List α}

theorem mapM_eq_ok {g : α → β} (h : ∀ x ∈ xs, f x = .ok (g x)) : xs.mapM f = .ok (xs.map g) := by
  rw [mapM_ok_iff, List.forall₂_map_right_iff, List.forall₂_same]
  exact h

theorem filterMapM_eq_ok {f : α → Except ε (Option β)} {g : α → Option β}
    (h : ∀ x ∈ xs, f x = .ok (g x)) : xs.filterMapM f = .ok (xs.filterMap g) := by
  induction xs with
  | nil => rfl
  | cons x xs ih =>
      rw [List.forall_mem_cons] at h
      rw [List.filterMapM_cons, h.1, ih h.2, ok_bind, List.filterMap_cons]
      cases g x with
      | none | some y => rfl

theorem findSomeM?_eq_ok {f : α → Except ε (Option β)} {g : α → Option β}
    (h : ∀ x ∈ xs, f x = .ok (g x)) : xs.findSomeM? f = .ok (xs.findSome? g) := by
  induction xs with
  | nil => rfl
  | cons x xs ih =>
      rw [List.forall_mem_cons] at h
      rw [List.findSomeM?_cons, h.1, ok_bind, List.findSome?_cons]
      cases g x with
      | none => exact ih h.2
      | some y => rfl

end Total

section InStep

variable {β' γ γ' : Type} {R : β → β' → Prop} {xs : List β} {ys : List β'}

theorem map_eq_of_forall₂ (h : List.Forall₂ R xs ys) {f : β → γ} {g : β' → γ}
    (same : ∀ x y, R x y → g y = f x) : ys.map g = xs.map f := by
  induction h with
  | nil => rfl
  | cons hx _ ih => rw [List.map_cons, same _ _ hx, ih, List.map_cons]

theorem forall₂_map_map (h : List.Forall₂ R xs ys) {P : γ → γ' → Prop} {f : β → γ} {g : β' → γ'}
    (step : ∀ x y, R x y → P (f x) (g y)) : List.Forall₂ P (xs.map f) (ys.map g) :=
  List.rel_map (fun x y => step x y) h

theorem forall₂_filter (h : List.Forall₂ R xs ys) {p : β → Bool} {q : β' → Bool}
    (same : ∀ x y, R x y → q y = p x) : List.Forall₂ R (xs.filter p) (ys.filter q) :=
  List.rel_filter (fun x y hx => Bool.eq_iff_iff.mp (same x y hx).symm) h

theorem rel_map_map {o : Option β} {o' : Option β'} (h : Option.Rel R o o') {P : γ → γ' → Prop}
    {f : β → γ} {g : β' → γ'} (step : ∀ x y, R x y → P (f x) (g y)) :
    Option.Rel P (o.map f) (o'.map g) := by
  cases h with
  | none => exact .none
  | some hx => exact .some (step _ _ hx)

theorem forall₂_filterMap (h : List.Forall₂ R xs ys) {P : γ → γ' → Prop} {f : β → Option γ}
    {g : β' → Option γ'} (step : ∀ x y, R x y → Option.Rel P (f x) (g y)) :
    List.Forall₂ P (xs.filterMap f) (ys.filterMap g) :=
  List.rel_filterMap (fun x y hx => step x y hx) h

theorem forall₂_self_map (f : β → β') (xs : List β) :
    List.Forall₂ (fun x y => y = f x) xs (xs.map f) := by
  induction xs with
  | nil => exact .nil
  | cons x xs ih => exact .cons rfl ih

end InStep

end Trendline
