import Mathlib.Data.List.Basic

/-!
# Runs of a total step function

A system is a total function from a state and an event to the next state; an
event that is refused leaves the state as it is. A run is a left fold over any
finite list of events, so a statement about every list of events is a statement
about every run and every state reached by one.
-/
namespace Kepryx.Runs

variable {σ ε : Type*}

/-- The state after the events of `es`, in order. -/
def run (step : σ → ε → σ) (s : σ) (es : List ε) : σ := es.foldl step s

@[simp] theorem run_nil (step : σ → ε → σ) (s : σ) : run step s [] = s := rfl

@[simp] theorem run_cons (step : σ → ε → σ) (s : σ) (e : ε) (es : List ε) :
    run step s (e :: es) = run step (step s e) es := rfl

/-- Every event of the run meets `C` in the state it is applied to. -/
def Along (step : σ → ε → σ) (C : σ → ε → Prop) : σ → List ε → Prop
  | _, [] => True
  | s, e :: es => C s e ∧ Along step C (step s e) es

instance Along.decidable (step : σ → ε → σ) (C : σ → ε → Prop) [∀ s e, Decidable (C s e)] :
    (s : σ) → (es : List ε) → Decidable (Along step C s es)
  | _, [] => isTrue trivial
  | s, e :: es =>
    have := Along.decidable step C (step s e) es
    inferInstanceAs (Decidable (_ ∧ _))

variable {step : σ → ε → σ} {C D : σ → ε → Prop}

/-- An invariant that each event meeting `C` keeps holds after a run along which `C` holds. -/
theorem run_invariant_along (I : σ → Prop)
    (hstep : ∀ s e, I s → C s e → I (step s e)) {s : σ} {es : List ε}
    (h0 : I s) (hC : Along step C s es) : I (run step s es) := by
  induction es generalizing s with
  | nil => exact h0
  | cons e es ih => exact ih (hstep s e h0 hC.1) hC.2

/-- An invariant that each event keeps holds after every run. -/
theorem run_invariant (I : σ → Prop) (hstep : ∀ s e, I s → I (step s e))
    {s : σ} (h0 : I s) (es : List ε) : I (run step s es) := by
  induction es generalizing s with
  | nil => exact h0
  | cons e es ih => exact ih (hstep s e h0)

/-- Under an invariant of the run, two conditions that agree in every state with the
invariant hold along the same runs. The invariant may itself rest on the condition. -/
theorem along_iff_of_invariant (I : σ → Prop)
    (hiff : ∀ s e, I s → (C s e ↔ D s e))
    (hstep : ∀ s e, I s → C s e → I (step s e)) {s : σ} (h0 : I s) (es : List ε) :
    Along step C s es ↔ Along step D s es := by
  induction es generalizing s with
  | nil => rfl
  | cons e es ih =>
    constructor
    · rintro ⟨hc, hrest⟩
      exact ⟨(hiff s e h0).mp hc, (ih (hstep s e h0 hc)).mp hrest⟩
    · rintro ⟨hd, hrest⟩
      have hc := (hiff s e h0).mpr hd
      exact ⟨hc, (ih (hstep s e h0 hc)).mpr hrest⟩

theorem Along.mono {s : σ} {es : List ε} (h : ∀ s e, C s e → D s e)
    (hC : Along step C s es) : Along step D s es := by
  induction es generalizing s with
  | nil => trivial
  | cons e es ih => exact ⟨h s e hC.1, ih hC.2⟩

/-- A condition that the events of the run meet in every state. -/
theorem along_of_forall {s : σ} {es : List ε} (h : ∀ e ∈ es, ∀ s, C s e) : Along step C s es := by
  induction es generalizing s with
  | nil => trivial
  | cons e es ih =>
    exact ⟨h e List.mem_cons_self s, ih fun e' he' => h e' (List.mem_cons_of_mem e he')⟩

/-- Events that leave a choice open: if `D` says of a request when every choice meets `C`, then
all runs of a script meet `C` exactly when all of them meet `D`. -/
theorem along_choices_iff {ρ χ : Type*} {step : σ → ρ × χ → σ} {C : σ → ρ × χ → Prop}
    {D : σ → ρ → Prop} (hiff : ∀ s r, (∀ c, C s (r, c)) ↔ D s r) (s : σ) (script : List ρ) :
    (∀ es, es.map Prod.fst = script → Along step C s es) ↔
      ∀ es, es.map Prod.fst = script → Along step (fun s e => D s e.1) s es := by
  induction script generalizing s with
  | nil =>
    refine forall_congr' fun es => imp_congr_right fun hes => ?_
    rw [List.map_eq_nil_iff.mp hes]
    exact Iff.rfl
  | cons r rs ih =>
    have hcons : ∀ P : List (ρ × χ) → Prop, (∀ es, es.map Prod.fst = r :: rs → P es) ↔
        ∀ c es, es.map Prod.fst = rs → P ((r, c) :: es) := by
      intro P
      constructor
      · intro h c es hes
        exact h ((r, c) :: es) (by rw [List.map_cons, hes])
      · intro h es hes
        obtain ⟨⟨r', c⟩, es, rfl, hr, hrest⟩ := List.map_eq_cons_iff.mp hes
        cases hr
        exact h c es hrest
    rw [hcons, hcons]
    constructor
    · intro h c es hes
      refine ⟨(hiff s r).mp fun c' => (h c' es hes).1, ?_⟩
      exact (ih (step s (r, c))).mp (fun es' hes' => (h c es' hes').2) es hes
    · intro h c es hes
      refine ⟨(hiff s r).mpr (h c es hes).1 c, ?_⟩
      exact (ih (step s (r, c))).mpr (fun es' hes' => (h c es' hes').2) es hes

/-- `I` holds in every state that the run reaches. -/
def Always (step : σ → ε → σ) (I : σ → Prop) (s : σ) (es : List ε) : Prop :=
  ∀ es', es' <+: es → I (run step s es')

@[simp] theorem always_nil {I : σ → Prop} {s : σ} : Always step I s [] ↔ I s := by
  simp [Always]

theorem always_cons {I : σ → Prop} {s : σ} {e : ε} {es : List ε} :
    Always step I s (e :: es) ↔ I s ∧ Always step I (step s e) es := by
  constructor
  · intro h
    refine ⟨h [] List.nil_prefix, fun es' hes' => ?_⟩
    exact h (e :: es') (List.cons_prefix_cons.mpr ⟨rfl, hes'⟩)
  · rintro ⟨h0, h⟩ es' hes'
    rcases List.prefix_cons_iff.mp hes' with rfl | ⟨rest, rfl, hrest⟩
    · exact h0
    · exact h rest hrest

/-- If under an invariant of the runs along `C` an event leads to `I` exactly when it meets `C`,
then `I` always holds exactly along `C`. -/
theorem always_iff_along_of_invariant {I J : σ → Prop} (hJI : ∀ s, J s → I s)
    (hiff : ∀ s e, J s → (I (step s e) ↔ C s e)) (hstep : ∀ s e, J s → C s e → J (step s e))
    {s : σ} (h0 : J s) (es : List ε) : Always step I s es ↔ Along step C s es := by
  induction es generalizing s with
  | nil => exact iff_of_true (always_nil.mpr (hJI s h0)) trivial
  | cons e es ih =>
    rw [always_cons]
    constructor
    · rintro ⟨-, h⟩
      have hc : C s e := (hiff s e h0).mp (h [] List.nil_prefix)
      exact ⟨hc, (ih (hstep s e h0 hc)).mp h⟩
    · rintro ⟨hc, h⟩
      exact ⟨hJI s h0, (ih (hstep s e h0 hc)).mpr h⟩

/-- If `C` says when an event keeps `I`, then `I` always holds exactly along `C`. -/
theorem always_iff_along {I : σ → Prop} (hiff : ∀ s e, I s → (I (step s e) ↔ C s e)) {s : σ}
    (h0 : I s) (es : List ε) : Always step I s es ↔ Along step C s es :=
  always_iff_along_of_invariant (fun _ hs => hs) hiff (fun s e hs => (hiff s e hs).mpr) h0 es

/-- An invariant that each event meeting `C` keeps holds in every state of a run along `C`. -/
theorem always_of_along {I : σ → Prop} (hstep : ∀ s e, I s → C s e → I (step s e)) {s : σ}
    {es : List ε} (h0 : I s) (hC : Along step C s es) : Always step I s es := by
  induction es generalizing s with
  | nil => exact always_nil.mpr h0
  | cons e es ih => exact always_cons.mpr ⟨h0, ih (hstep s e h0 hC.1) hC.2⟩

/-- What every event meets in a state with `I` is met along a run on which `I` always holds. -/
theorem Always.along {I : σ → Prop} (h : ∀ s, I s → ∀ e, C s e) {s : σ} {es : List ε}
    (hI : Always step I s es) : Along step C s es := by
  induction es generalizing s with
  | nil => trivial
  | cons e es ih =>
    obtain ⟨hs, hrest⟩ := always_cons.mp hI
    exact ⟨h s hs e, ih hrest⟩

theorem Always.mono {I J : σ → Prop} (h : ∀ s, I s → J s) {s : σ} {es : List ε}
    (hI : Always step I s es) : Always step J s es :=
  fun es' hes' => h _ (hI es' hes')

end Kepryx.Runs
