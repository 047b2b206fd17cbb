import Mathlib.Algebra.GroupWithZero.Nat
import Mathlib.Algebra.Order.BigOperators.Group.List
import Mathlib.Algebra.Order.Group.Nat
import Kepryx.Substitution

/-!
# Places in a text before and after a substitution

What begins at a place of a text is still there after a substitution, if neither a match of the
replaced pattern nor a replacement can begin inside of it. The text before a place is known only
by what a scan from the left remembers of it.
-/
namespace Kepryx.Regex

/-- `r?`, taken if possible. -/
def opt (r : Regex) : Regex := .alt r .eps

/-- The pattern matches at the beginning of a text. -/
def Begins (q : Regex) (s : List Char) : Prop := ∃ w y, s = w ++ y ∧ q.Matches none w none

/-- What is not to be met begins nowhere inside of a match, whatever follows it. -/
def Clear (S : List Char → Prop) (q : Regex) : Prop :=
  ∀ before after a b y, q.Matches before (a ++ b) after → b ≠ [] → ¬ S (b ++ y)

variable {S : List Char → Prop} {r q : Regex} {repl : List Char}

theorem clear_eps : Clear S .eps := by
  intro before after a b y h hb
  exact absurd (List.append_eq_nil_iff.mp h).2 hb

theorem Clear.alt (hr : Clear S r) (hq : Clear S q) : Clear S (.alt r q) := by
  rintro before after a b y (h | h) hb
  · exact hr before after a b y h hb
  · exact hq before after a b y h hb

theorem Clear.opt (hr : Clear S r) : Clear S (opt r) := hr.alt clear_eps

theorem Clear.seq (hr : Clear S r) (hq : Clear S q) : Clear S (.seq r q) := by
  rintro before after a b y ⟨u, v, huv, hu, hv⟩ hb
  obtain ⟨x, rfl, rfl⟩ | ⟨x, rfl, rfl⟩ := List.append_eq_append_iff.mp huv
  · by_cases hx : x = []
    · subst hx
      exact hq _ after [] v y hv hb
    · rw [List.append_assoc]
      exact hr before _ a x (v ++ y) hu hx
  · exact hq _ after x b y hv hb

/-- Where the replaced pattern matches, and where the replacement stands, `S` begins. -/
structure Announces (S : List Char → Prop) (r : Regex) (repl : List Char) : Prop where
  hit : ∀ {before : Option Char} {w s : List Char}, r.Matches before w s.head? → S (w ++ s)
  replaced : ∀ t, S (repl ++ t)

theorem Subst.kept_of_source (hS : Announces S r repl) {before : Option Char} {s t w y : List Char}
    (h : Subst r repl before s t) (hs : s = w ++ y)
    (hw : ∀ a b, w = a ++ b → b ≠ [] → ¬ S (b ++ y)) :
    ∃ before' y', t = w ++ y' ∧ Subst r repl before' y y' := by
  induction w generalizing before s t with
  | nil =>
    subst hs
    exact ⟨before, t, rfl, h⟩
  | cons c w ih =>
    cases h with
    | nil => cases hs
    | @keep _ d _ _ _ rest =>
      rw [List.cons_append, List.cons.injEq] at hs
      obtain ⟨rfl, rfl⟩ := hs
      obtain ⟨before', y', rfl, hy⟩ := ih rest rfl fun a b hab hb => by
        refine hw (d :: a) b ?_ hb
        rw [hab, List.cons_append]
      exact ⟨before', y', rfl, hy⟩
    | hit ne first _ =>
      have hannounced := hS.hit (mem_run.mp (List.mem_of_head? first)).2
      rw [hs] at hannounced
      exact absurd hannounced (hw [] (c :: w) rfl (List.cons_ne_nil c w))

theorem Subst.kept_of_result (hS : Announces S r repl) {before : Option Char} {s t w y : List Char}
    (h : Subst r repl before s t) (ht : t = w ++ y)
    (hw : ∀ a b, w = a ++ b → b ≠ [] → ¬ S (b ++ y)) :
    ∃ before' y', s = w ++ y' ∧ Subst r repl before' y' y := by
  induction w generalizing before s t with
  | nil =>
    subst ht
    exact ⟨before, s, rfl, h⟩
  | cons c w ih =>
    cases h with
    | nil => cases ht
    | @keep _ d _ _ _ rest =>
      rw [List.cons_append, List.cons.injEq] at ht
      obtain ⟨rfl, rfl⟩ := ht
      obtain ⟨before', y', rfl, hy⟩ := ih rest rfl fun a b hab hb => by
        refine hw (d :: a) b ?_ hb
        rw [hab, List.cons_append]
      exact ⟨before', y', rfl, hy⟩
    | @hit _ _ _ t' _ _ _ =>
      have hannounced := hS.replaced t'
      rw [ht] at hannounced
      exact absurd hannounced (hw [] (c :: w) rfl (List.cons_ne_nil c w))

/-- What nothing begins inside of begins a text if and only if it begins the result. -/
theorem Subst.begins_iff (hS : Announces S r repl) (hq : Clear S q) {before : Option Char}
    {s t : List Char} (h : Subst r repl before s t) : Begins q s ↔ Begins q t := by
  constructor
  · rintro ⟨w, y, hs, hm⟩
    obtain ⟨_, y', rfl, -⟩ := h.kept_of_source hS hs fun a b hab hb =>
      hq none none a b y (hab ▸ hm) hb
    exact ⟨w, y', rfl, hm⟩
  · rintro ⟨w, y, ht, hm⟩
    obtain ⟨_, y', rfl, -⟩ := h.kept_of_result hS ht fun a b hab hb =>
      hq none none a b y (hab ▸ hm) hb
    exact ⟨w, y', rfl, hm⟩

/-! ## Places and what a scan remembers -/

section Scan

variable {σ : Type} (next : σ → Char → σ) (P : σ → List Char → Prop)

variable {next P}

end Scan

/-! ## What is found -/

/-- What a pattern finds from a place on, one match after the other. -/
def foundFrom (r : Regex) : Option Char → ℕ → List Char → List (List Char)
  | _, _, [] => []
  | _, skip + 1, c :: s => foundFrom r (some c) skip s
  | before, 0, c :: s =>
    match (r.run before (c :: s)).head? with
    | some (_ :: w, _) => (c :: w) :: foundFrom r (some c) w.length s
    | _ => foundFrom r (some c) 0 s

/-- The matches that `re.sub` replaces. -/
def found (r : Regex) (s : List Char) : List (List Char) := foundFrom r none 0 s

end Kepryx.Regex
