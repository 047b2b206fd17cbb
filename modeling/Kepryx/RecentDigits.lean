import Kepryx.CountPhrases

/-!
# What stands before a phrase

A scan of a text remembers the digits before a place and the letters of a count behind them. That
is enough to tell whether the counts of an answer are right, and whether a count that is written as
a word follows a digit.
-/
namespace Kepryx.AssistantAnswers

open Regex
open ComplianceCatalog (isSpace)

/-! ## What stands before a place -/

/-- The digits before a place, and the letters of a count behind them. -/
structure Recent where
  run : List Char
  letters : List Char

def Recent.empty : Recent := ⟨[], []⟩

/-- One character later. -/
def Recent.next (r : Recent) (c : Char) : Recent :=
  if digit c then ⟨if r.letters = [] then r.run ++ [c] else [c], []⟩
  else if r.run ≠ [] ∧ foldCase c ∈ "zeron".toList then ⟨r.run, r.letters ++ [c]⟩
  else .empty

namespace Recent

end Recent

/-- A record of the digits and the letters at the end of a text. -/
structure Ends (u : List Char) (r : Recent) : Prop where
  digits : ∀ c ∈ r.run, digit c = true
  others : ∀ c ∈ r.letters, digit c = false
  letters_nil : r.run = [] → r.letters = []
  maximal : ∃ u', u = u' ++ (r.run ++ r.letters) ∧ ∀ c ∈ u'.getLast?, digit c = false

theorem Ends.next {u : List Char} {r : Recent} (h : Ends u r) (c : Char) :
    Ends (u ++ [c]) (r.next c) := by
  obtain ⟨u', hu, hlast⟩ := h.maximal
  unfold Recent.next
  split_ifs with hdigit hletters hmore
  · refine ⟨List.forall_mem_append.mpr ⟨h.digits, by simpa using hdigit⟩, List.forall_mem_nil _,
      fun _ => rfl, u', ?_, hlast⟩
    rw [hu, hletters]
    simp
  · refine ⟨by simpa using hdigit, List.forall_mem_nil _, fun _ => rfl, u, by simp, ?_⟩
    -- the letters end the run of digits
    intro d hd
    rw [hu, List.getLast?_append_of_ne_nil _ (by simp [hletters]),
      List.getLast?_append_of_ne_nil _ hletters] at hd
    exact h.others d (List.mem_of_getLast? hd)
  · refine ⟨h.digits, List.forall_mem_append.mpr ⟨h.others, by simpa using hdigit⟩,
      fun hnil => absurd hnil hmore.1, u', ?_, hlast⟩
    rw [hu]
    simp
  · refine ⟨List.forall_mem_nil _, List.forall_mem_nil _, fun _ => rfl, u ++ [c], by
      simp [Recent.empty], ?_⟩
    intro d hd
    rw [List.getLast?_concat] at hd
    obtain rfl := Option.some.inj hd
    exact Bool.eq_false_iff.mpr hdigit

/-- Somewhere a count that is written as a word follows a digit. -/
def Joined (text : List Char) : Prop :=
  ∃ (p : Phrase) (u : List Char) (c : Char) (w v : List Char), text = u ++ (c :: (w ++ v)) ∧
    digit c = true ∧ w.map foldCase ∈ countWords ∧ Begins p.tail v

section Inside

variable {X : Recent → Prop} {p q : Phrase} {r : Recent} {w s : List Char}

end Inside

end Kepryx.AssistantAnswers
