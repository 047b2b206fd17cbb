import Kepryx.RecentDigits

/-!
# Counts in the repaired answer

A count is kept from one substitution to the next; what the substitutions can spoil is a digit
before a count that is written as a word, since the digits of the replacement join it.
-/
namespace Kepryx.AssistantAnswers

open Regex
open ComplianceCatalog (isSpace frameworkCatalogs)

/-! ## The substitution of another phrase -/

/-- No count of the phrase begins in what has just been read. -/
structure Settled (p : Phrase) (r : Recent) (text : List Char) : Prop where
  digits : ∀ c ∈ r.run, digit c = true
  letters_nil : r.run = [] → r.letters = []
  no_count : ∀ a b, r.run ++ r.letters = a ++ b → b ≠ [] →
    ¬ Begins (.seq counted p.tail) (b ++ text)

theorem settled_empty (p : Phrase) (text : List Char) : Settled p .empty text where
  digits := List.forall_mem_nil _
  letters_nil _ := rfl
  no_count _ _ h hb := absurd (List.append_eq_nil_iff.mp h.symm).2 hb

theorem append_eq_concat {α : Type} {a b x : List α} {c : α} (h : a ++ b = x ++ [c])
    (hb : b ≠ []) : ∃ b', b = b' ++ [c] ∧ x = a ++ b' := by
  obtain ⟨b', d, rfl⟩ := (List.eq_nil_or_concat b).resolve_left hb
  rw [List.concat_eq_append, ← List.append_assoc] at h
  obtain ⟨hx, hd⟩ := List.append_inj' h rfl
  exact ⟨b', by rw [List.concat_eq_append, List.singleton_inj.mp hd], hx.symm⟩

namespace Settled

variable {p : Phrase} {r : Recent} {text : List Char}

theorem keep {c : Char} (h : Settled p r (c :: text))
    (hc : ¬ Begins (.seq counted p.tail) (c :: text)) : Settled p (r.next c) text := by
  -- what is remembered grows by the character, or is the character, or is nothing
  have hgrow : ∀ x : List Char, (x = [] ∨ x = r.run ++ r.letters) → ∀ a b,
      x ++ [c] = a ++ b → b ≠ [] → ¬ Begins (.seq counted p.tail) (b ++ text) := by
    intro x hx a b hab hb
    obtain ⟨b', rfl, hb'⟩ := append_eq_concat hab.symm hb
    rw [List.append_assoc, List.singleton_append]
    by_cases hnil : b' = []
    · rw [hnil]
      exact hc
    · obtain rfl | rfl := hx
      · exact absurd (List.append_eq_nil_iff.mp hb'.symm).2 hnil
      · exact h.no_count a b' hb' hnil
  unfold Recent.next
  split_ifs with hdigit hletters hmore
  · refine ⟨List.forall_mem_append.mpr ⟨h.digits, by simpa using hdigit⟩, fun _ => rfl, ?_⟩
    rw [List.append_nil]
    exact hgrow r.run (.inr (by rw [hletters, List.append_nil]))
  · exact ⟨by simpa using hdigit, fun _ => rfl, hgrow [] (.inl rfl)⟩
  · refine ⟨h.digits, fun hnil => absurd hnil hmore.1, ?_⟩
    rw [← List.append_assoc]
    exact hgrow _ (.inr rfl)
  · exact settled_empty p text

end Settled

/-- A name of a framework in any case. -/
def Named (f : Framework) (w : List Char) : Prop :=
  w.map foldCase = f.val.toList.map foldCase

section Neutral

variable {X : Recent → Prop} {p : Phrase}

end Neutral

/-! ## All substitutions -/

end Kepryx.AssistantAnswers
