import Mathlib.Algebra.Order.Field.Rat
import Mathlib.Data.Int.ConditionallyCompleteOrder
import Mathlib.Data.Rat.Floor
import Mathlib.Order.Monotone.Basic
import Mathlib.Tactic.Linarith
import Mathlib.Tactic.NormNum

/-!
# Grading the worst item of a list

An evidence score takes the greatest of several measurements, rounds it to an integer
grade and clamps the grade. A grade is monotone in the measurement, so the grade of the
greatest measurement is the greatest of the grades.
-/
namespace Kepryx.Grading

/-- Round to the nearest integer, an exact half to the even one. -/
def roundHalfEven (q : ℚ) : ℤ :=
  if q - ⌊q⌋ < 1 / 2 then ⌊q⌋
  else if 1 / 2 < q - ⌊q⌋ then ⌊q⌋ + 1
  else ⌊q⌋ + ⌊q⌋ % 2

theorem floor_le_roundHalfEven (q : ℚ) : ⌊q⌋ ≤ roundHalfEven q := by
  unfold roundHalfEven
  split_ifs <;> omega

theorem roundHalfEven_le_floor_add_one (q : ℚ) : roundHalfEven q ≤ ⌊q⌋ + 1 := by
  unfold roundHalfEven
  split_ifs <;> omega

theorem roundHalfEven_mono : Monotone roundHalfEven := by
  intro p q hpq
  rcases (Int.floor_le_floor hpq).lt_or_eq with hlt | heq
  · calc roundHalfEven p ≤ ⌊p⌋ + 1 := roundHalfEven_le_floor_add_one p
      _ ≤ ⌊q⌋ := hlt
      _ ≤ roundHalfEven q := floor_le_roundHalfEven q
  · have hfrac : p - ⌊p⌋ ≤ q - ⌊q⌋ := by rw [heq]; linarith
    have hmod : 0 ≤ ⌊q⌋ % 2 ∧ ⌊q⌋ % 2 ≤ 1 := by omega
    unfold roundHalfEven
    rw [heq] at hfrac ⊢
    split_ifs <;> first | omega | linarith

/-- Clamp a grade to the scale from 1 to `top`. -/
def clamp (top k : ℤ) : ℤ := min top (max 1 k)

theorem clamp_mono (top : ℤ) : Monotone (clamp top) := fun _ _ h =>
  min_le_min_left top (max_le_max_left 1 h)

theorem one_le_clamp {top : ℤ} (htop : 1 ≤ top) (k : ℤ) : 1 ≤ clamp top k :=
  le_min htop (le_max_left 1 k)

section Worst
variable {α : Type*} [LinearOrder α]

/-- `max(xs, default=d)` -/
def maxOr (d : α) (xs : List α) : α := xs.max?.getD d

theorem maxOr_mem {d : α} {xs : List α} (hne : xs ≠ []) : maxOr d xs ∈ xs := by
  cases h : xs.max? with
  | none => exact absurd (List.max?_eq_none_iff.mp h) hne
  | some m =>
    rw [maxOr, h]
    exact List.max?_mem h

theorem le_maxOr {d x : α} {xs : List α} (hx : x ∈ xs) : x ≤ maxOr d xs := by
  cases h : xs.max? with
  | none => exact absurd (List.max?_eq_none_iff.mp h) (List.ne_nil_of_mem hx)
  | some m =>
    rw [maxOr, h]
    exact (List.max?_eq_some_iff.mp h).2 x hx

/-- The grade of the greatest item is bounded by what bounds every grade. -/
theorem grade_maxOr_le {β : Type*} [Preorder β] {g : α → β} (hg : Monotone g) {d : α}
    {xs : List α} (hne : xs ≠ []) {k : β} : g (maxOr d xs) ≤ k ↔ ∀ x ∈ xs, g x ≤ k := by
  constructor
  · intro h x hx
    exact (hg (le_maxOr hx)).trans h
  · intro h
    exact h _ (maxOr_mem hne)

end Worst

end Kepryx.Grading
