import Mathlib.Data.List.Basic

/-!
# Computations that stop at an error

A computation with parts succeeds only if every part does. With these rules one that succeeded
is taken apart, and one whose parts are known is put together.
-/
namespace Kepryx.Results

universe u v
variable {ε : Type u} {α β : Type v}

@[simp] theorem ok_bind (a : α) (f : α → Except ε β) : (Except.ok a >>= f) = f a := rfl

@[simp] theorem error_bind (e : ε) (f : α → Except ε β) :
    ((Except.error e : Except ε α) >>= f) = .error e := rfl

@[simp] theorem pure_eq_ok (a : α) : (pure a : Except ε α) = .ok a := rfl

@[simp] theorem throw_eq_error (e : ε) : (throw e : Except ε α) = .error e := rfl

/-- A first part, and the rest on its result. -/
theorem bind_eq_ok {x : Except ε α} {f : α → Except ε β} {b : β} :
    (x >>= f) = .ok b ↔ ∃ a, x = .ok a ∧ f a = .ok b := by
  cases x with
  | error e => simp
  | ok a => simp

theorem bind_eq_error {x : Except ε α} {f : α → Except ε β} {e : ε} :
    (x >>= f) = .error e ↔ x = .error e ∨ ∃ a, x = .ok a ∧ f a = .error e := by
  cases x with
  | error e' => simp
  | ok a => simp

/-- A check that raises if `p` holds, and the rest. -/
theorem guard_eq_ok {p : Prop} [Decidable p] {e : ε} {x : Except ε α} {a : α} :
    (if p then .error e else x) = .ok a ↔ ¬ p ∧ x = .ok a := by
  by_cases h : p
  · simp [h]
  · simp [h]

/-! ## Loops -/

section Loops
variable {σ α : Type v} {f : σ → α → Except ε σ}

/-- A loop that goes through keeps what every turn keeps, where a turn may rely on the turns
before it and on being one of the list. -/
theorem foldlM_invariant (I : List α → σ → Prop) {xs : List α}
    (hstep : ∀ before a after s s', xs = before ++ a :: after → I before s → f s a = .ok s' →
      I (before ++ [a]) s') {s s' : σ} (h0 : I [] s) (h : xs.foldlM f s = .ok s') : I xs s' := by
  have hloop : ∀ (rest before : List α) (s : σ), xs = before ++ rest → I before s →
      rest.foldlM f s = .ok s' → I xs s' := by
    intro rest
    induction rest with
    | nil =>
      intro before s hxs hI h
      cases h
      rw [hxs, List.append_nil]
      exact hI
    | cons a rest ih =>
      intro before s hxs hI h
      rw [List.foldlM_cons] at h
      obtain ⟨t, ht, h⟩ := bind_eq_ok.mp h
      have hnext := hstep before a rest s t hxs hI ht
      exact ih (before ++ [a]) t (by simp [hxs]) hnext h
  exact hloop xs [] s rfl h0 h

/-- A loop goes through if every turn does, and keeps what every turn keeps. -/
theorem foldlM_total (I : List α → σ → Prop) {xs : List α}
    (hstep : ∀ before a after s, xs = before ++ a :: after → I before s →
      ∃ s', f s a = .ok s' ∧ I (before ++ [a]) s') {s : σ} (h0 : I [] s) :
    ∃ s', xs.foldlM f s = .ok s' ∧ I xs s' := by
  have hloop : ∀ (rest before : List α) (s : σ), xs = before ++ rest → I before s →
      ∃ s', rest.foldlM f s = .ok s' ∧ I xs s' := by
    intro rest
    induction rest with
    | nil =>
      intro before s hxs hI
      rw [hxs, List.append_nil]
      exact ⟨s, rfl, hI⟩
    | cons a rest ih =>
      intro before s hxs hI
      obtain ⟨t, ht, hnext⟩ := hstep before a rest s hxs hI
      obtain ⟨s', hs', hI'⟩ := ih (before ++ [a]) t (by simp [hxs]) hnext
      refine ⟨s', ?_, hI'⟩
      rw [List.foldlM_cons, ht]
      exact hs'
  exact hloop xs [] s rfl h0

/-- A loop that went through did so up to any turn, in it and after it. -/
theorem foldlM_split {before after : List α} {a : α} {s s' : σ}
    (h : (before ++ a :: after).foldlM f s = .ok s') : ∃ s₀ s₁,
      before.foldlM f s = .ok s₀ ∧ f s₀ a = .ok s₁ ∧ after.foldlM f s₁ = .ok s' := by
  rw [List.foldlM_append] at h
  obtain ⟨s₀, h₀, h⟩ := bind_eq_ok.mp h
  rw [List.foldlM_cons] at h
  obtain ⟨s₁, h₁, h⟩ := bind_eq_ok.mp h
  exact ⟨s₀, s₁, h₀, h₁, h⟩

/-- A loop whose turns go through under a condition on the element alone. -/
theorem foldlM_eq_ok_iff {C : α → Prop} {g : σ → α → σ} (hok : ∀ a, C a → ∀ s, f s a = .ok (g s a))
    (herror : ∀ a, ¬ C a → ∀ s, ∃ e, f s a = .error e) {xs : List α} {s s' : σ} :
    xs.foldlM f s = .ok s' ↔ (∀ a ∈ xs, C a) ∧ s' = xs.foldl g s := by
  induction xs generalizing s with
  | nil => simp [eq_comm]
  | cons a xs ih =>
    rw [List.foldlM_cons]
    by_cases ha : C a
    · simp [hok a ha, ih, ha]
    · obtain ⟨e, he⟩ := herror a ha s
      simp [he, ha]

/-- A loop that stops at an error does so in one of its turns. -/
theorem foldlM_error {xs : List α} {s : σ} {e : ε} (h : xs.foldlM f s = .error e) :
    ∃ a ∈ xs, ∃ s', f s' a = .error e := by
  induction xs generalizing s with
  | nil => cases h
  | cons a xs ih =>
    rw [List.foldlM_cons] at h
    rcases bind_eq_error.mp h with ha | ⟨s', -, hrest⟩
    · exact ⟨a, List.mem_cons_self .., s, ha⟩
    · obtain ⟨b, hb, hturn⟩ := ih hrest
      exact ⟨b, List.mem_cons_of_mem _ hb, hturn⟩

end Loops

section Maps
variable {α : Type*} {f : α → Except ε β} {xs : List α} {ys : List β}

theorem mem_of_mapM (h : xs.mapM f = .ok ys) {y : β} : y ∈ ys ↔ ∃ x ∈ xs, f x = .ok y := by
  induction xs generalizing ys with
  | nil =>
    cases h
    simp
  | cons x xs ih =>
    rw [List.mapM_cons] at h
    obtain ⟨z, hz, h⟩ := bind_eq_ok.mp h
    obtain ⟨rest, hrest, h⟩ := bind_eq_ok.mp h
    cases h
    simp [ih hrest, hz, eq_comm]

theorem exists_mapM_eq_ok : (∃ ys, xs.mapM f = .ok ys) ↔ ∀ x ∈ xs, ∃ y, f x = .ok y := by
  induction xs with
  | nil => simp
  | cons x xs ih => simp [List.mapM_cons, bind_eq_ok, ← ih]

end Maps

end Kepryx.Results
