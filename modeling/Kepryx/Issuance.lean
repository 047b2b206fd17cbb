import Mathlib.Data.List.Induction
import Kepryx.Runs

/-!
# What was issued and not withdrawn

A system issues things in its steps and withdraws them again. What is outstanding after a run is
read off its events: it was issued by one of them and no later one withdrew it. A state agrees
with its history if each step changes what it holds by what it issues and withdraws.
-/
namespace Kepryx.Issuance
open Kepryx.Runs

variable {σ ε α : Type*}

section Append
variable (step : σ → ε → σ)

theorem run_append (s : σ) (es es' : List ε) :
    run step s (es ++ es') = run step (run step s es) es' := List.foldl_append

variable {step} {C : σ → ε → Prop}

theorem along_append {s : σ} {es es' : List ε} :
    Along step C s (es ++ es') ↔ Along step C s es ∧ Along step C (run step s es) es' := by
  induction es generalizing s with
  | nil => exact (and_iff_right trivial).symm
  | cons e es ih =>
    rw [List.cons_append, Along, Along, ih, run_cons, and_assoc]

end Append

variable (step : σ → ε → σ) (issued : σ → ε → α → Prop) (withdrawn : σ → ε → α → Prop)

/-- An event of the run issued `a`, and no later one withdrew it. -/
def Outstanding (s : σ) (es : List ε) (a : α) : Prop :=
  ∃ before e after, es = before ++ e :: after ∧ issued (run step s before) e a ∧
    Along step (fun s e => ¬ withdrawn s e a) (run step s (before ++ [e])) after

variable {step issued withdrawn}

theorem outstanding_nil {s : σ} {a : α} : ¬ Outstanding step issued withdrawn s [] a := by
  rintro ⟨before, e, after, hes, -⟩
  exact List.append_ne_nil_of_right_ne_nil before (List.cons_ne_nil e after) hes.symm

theorem outstanding_append_singleton {s : σ} {es : List ε} {e : ε} {a : α} :
    Outstanding step issued withdrawn s (es ++ [e]) a ↔
      issued (run step s es) e a ∨
        Outstanding step issued withdrawn s es a ∧ ¬ withdrawn (run step s es) e a := by
  constructor
  · rintro ⟨before, e', after, hes, hissued, hkept⟩
    rcases List.eq_nil_or_concat after with rfl | ⟨after, last, rfl⟩
    · obtain ⟨rfl, rfl⟩ := List.append_singleton_inj.mp hes
      exact .inl hissued
    · rw [List.concat_eq_append] at hes hkept
      rw [← List.cons_append, ← List.append_assoc] at hes
      obtain ⟨rfl, rfl⟩ := List.append_singleton_inj.mp hes
      obtain ⟨hkept, hlast, -⟩ := along_append.mp hkept
      rw [← run_append, List.append_assoc, List.singleton_append] at hlast
      exact .inr ⟨⟨before, e', after, rfl, hissued, hkept⟩, hlast⟩
  · rintro (hissued | ⟨⟨before, e', after, rfl, hissued, hkept⟩, hlast⟩)
    · exact ⟨es, e, [], rfl, hissued, trivial⟩
    · refine ⟨before, e', after ++ [e], by simp, hissued, along_append.mpr ⟨hkept, ?_, trivial⟩⟩
      rwa [← run_append, List.append_assoc, List.singleton_append]

/-- What a state holds is outstanding if, under an invariant, each step of the run changes it by
what it issues and withdraws. -/
theorem holds_iff_outstanding {holds : σ → α → Prop} {I : σ → Prop} {C : σ → ε → Prop} {s : σ}
    (hstart : I s) (hempty : ∀ a, ¬ holds s a) (hinvariant : ∀ s e, I s → C s e → I (step s e))
    (hstep : ∀ s e a, I s → C s e →
      (holds (step s e) a ↔ issued s e a ∨ holds s a ∧ ¬ withdrawn s e a))
    {es : List ε} (hC : Along step C s es) (a : α) :
    holds (run step s es) a ↔ Outstanding step issued withdrawn s es a := by
  induction es using List.reverseRecOn with
  | nil => exact iff_of_false (hempty a) outstanding_nil
  | append_singleton es e ih =>
    obtain ⟨hC, hlast, -⟩ := along_append.mp hC
    have hI : I (run step s es) := run_invariant_along I hinvariant hstart hC
    rw [run_append, run_cons, run_nil, hstep _ _ _ hI hlast, outstanding_append_singleton, ih hC]

/-- What was issued at some time, withdrawn or not. -/
theorem outstanding_issued {s : σ} {es : List ε} {a : α}
    (h : Outstanding step issued withdrawn s es a) :
    ∃ before e, before ++ [e] <+: es ∧ issued (run step s before) e a := by
  obtain ⟨before, e, after, rfl, hissued, -⟩ := h
  exact ⟨before, e, ⟨after, by simp⟩, hissued⟩

/-! ## What a run shows -/

/-- What an observer notes of the events of a run, in their order. -/
def observed (step : σ → ε → σ) (seen : σ → ε → Option α) : σ → List ε → List α
  | _, [] => []
  | s, e :: es => (seen s e).toList ++ observed step seen (step s e) es

theorem observed_append_singleton (step : σ → ε → σ) (seen : σ → ε → Option α) (s : σ)
    (es : List ε) (e : ε) : observed step seen s (es ++ [e]) =
      observed step seen s es ++ (seen (run step s es) e).toList := by
  induction es generalizing s with
  | nil => simp [observed]
  | cons e' es ih => simp [observed, ih]

/-- What each step keeps of the state and of what was seen before. -/
theorem run_observed {step : σ → ε → σ} {seen : σ → ε → Option α} {C : σ → ε → Prop}
    (J : σ → List α → Prop)
    (hstep : ∀ s e xs, J s xs → C s e → J (step s e) (xs ++ (seen s e).toList)) {s : σ}
    {es : List ε} (h0 : J s []) (hC : Along step C s es) :
    J (run step s es) (observed step seen s es) := by
  induction es using List.reverseRecOn with
  | nil => exact h0
  | append_singleton es e ih =>
    obtain ⟨hC, hlast, -⟩ := along_append.mp hC
    rw [run_append, run_cons, run_nil, observed_append_singleton]
    exact hstep _ e _ (ih hC) hlast

end Kepryx.Issuance
