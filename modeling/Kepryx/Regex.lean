import Mathlib.Data.List.Basic

/-!
# Regular expressions with backtracking

Patterns over character classes, as a backtracking engine runs them: the matches at a place are
listed in the order in which the engine tries them. What a pattern matches does not depend on
that order.
-/
namespace Kepryx

/-- A pattern. Only classes are repeated, as many times as possible or as few. -/
inductive Regex where
  | eps
  | char (p : Char → Bool)
  | many (greedy : Bool) (p : Char → Bool)
  | boundary (word : Char → Bool)
  | seq (r q : Regex)
  | alt (r q : Regex)

namespace Regex

/-- Between a word character and none. -/
def atBoundary (word : Char → Bool) (before after : Option Char) : Bool :=
  before.any word != after.any word

/-! ## What a pattern matches -/

/-- The pattern matches a word between two characters, or the ends of the text. -/
def Matches : Regex → Option Char → List Char → Option Char → Prop
  | .eps, _, w, _ => w = []
  | .char p, _, w, _ => ∃ c, w = [c] ∧ p c = true
  | .many _ p, _, w, _ => ∀ c ∈ w, p c = true
  | .boundary word, before, w, after => w = [] ∧ atBoundary word before after = true
  | .seq r q, before, w, after => ∃ u v, w = u ++ v ∧
      r.Matches before u (v.head?.or after) ∧ q.Matches (u.getLast?.or before) v after
  | .alt r q, before, w, after => r.Matches before w after ∨ q.Matches before w after

/-- `re.search(pattern, text)` finds something. -/
def Occurs (r : Regex) (s : List Char) : Prop :=
  ∃ u w v, s = u ++ (w ++ v) ∧ r.Matches u.getLast? w v.head?

/-! ## The engine -/

/-- The ways to split off characters of a class, the longest first. -/
def splits (p : Char → Bool) : List Char → List (List Char × List Char)
  | [] => [([], [])]
  | c :: s =>
    if p c then (splits p s).map (fun m => (c :: m.1, m.2)) ++ [([], c :: s)] else [([], c :: s)]

/-- The matches at a place, each with the text after it, in the order in which they are tried. -/
def run : Regex → Option Char → List Char → List (List Char × List Char)
  | .eps, _, s => [([], s)]
  | .char _, _, [] => []
  | .char p, _, c :: s => if p c then [([c], s)] else []
  | .many greedy p, _, s => if greedy then splits p s else (splits p s).reverse
  | .boundary word, before, s => if atBoundary word before s.head? then [([], s)] else []
  | .seq r q, before, s => (run r before s).flatMap fun m =>
      (run q (m.1.getLast?.or before) m.2).map fun n => (m.1 ++ n.1, n.2)
  | .alt r q, before, s => run r before s ++ run q before s

theorem mem_splits {p : Char → Bool} {s w t : List Char} :
    (w, t) ∈ splits p s ↔ s = w ++ t ∧ ∀ c ∈ w, p c = true := by
  induction s generalizing w with
  | nil =>
    simp only [splits, List.mem_singleton, Prod.mk.injEq, List.nil_eq_append_iff]
    refine ⟨fun h => ⟨h, by simp [h.1]⟩, fun h => h.1⟩
  | cons c s ih =>
    unfold splits
    cases w with
    | nil =>
      have hnil : (([] : List Char), t) ∈ [(([] : List Char), c :: s)] ↔ c :: s = t := by
        rw [List.mem_singleton, Prod.mk.injEq, eq_self, true_and, eq_comm]
      split_ifs with hc
      · rw [List.mem_append, hnil]
        simp
      · rw [hnil]
        simp
    | cons d w =>
      by_cases hc : p c = true
      · rw [if_pos hc, List.mem_append, List.mem_map]
        constructor
        · rintro (⟨⟨u, v⟩, hm, he⟩ | hm)
          · obtain ⟨rfl, rfl, rfl⟩ : c = d ∧ u = w ∧ v = t := by
              simpa [and_assoc] using he
            obtain ⟨rfl, hw⟩ := ih.mp hm
            exact ⟨rfl, List.forall_mem_cons.mpr ⟨hc, hw⟩⟩
          · simp at hm
        · rintro ⟨he, hw⟩
          rw [List.cons_append, List.cons.injEq] at he
          obtain ⟨rfl, rfl⟩ := he
          exact .inl ⟨(w, t), ih.mpr ⟨rfl, fun d hd => hw d (List.mem_cons_of_mem c hd)⟩, rfl⟩
      · rw [if_neg hc]
        constructor
        · intro hm
          simp at hm
        · rintro ⟨he, hw⟩
          rw [List.cons_append, List.cons.injEq] at he
          exact absurd (he.1 ▸ hw d List.mem_cons_self) hc

/-- The engine finds exactly what the pattern matches. -/
theorem mem_run {r : Regex} {before : Option Char} {s w t : List Char} :
    (w, t) ∈ r.run before s ↔ s = w ++ t ∧ r.Matches before w t.head? := by
  induction r generalizing before s w t with
  | eps =>
    simp only [run, Matches, List.mem_singleton, Prod.mk.injEq]
    constructor
    · rintro ⟨rfl, rfl⟩
      exact ⟨rfl, rfl⟩
    · rintro ⟨rfl, rfl⟩
      exact ⟨rfl, rfl⟩
  | char p =>
    cases s with
    | nil =>
      simp only [run, Matches, List.not_mem_nil, false_iff]
      rintro ⟨he, c, rfl, -⟩
      cases he
    | cons c s =>
      simp only [run, Matches]
      constructor
      · intro h
        split_ifs at h with hc
        · obtain ⟨rfl, rfl⟩ : w = [c] ∧ t = s := by simpa using h
          exact ⟨rfl, c, rfl, hc⟩
        · cases h
      · rintro ⟨he, d, rfl, hd⟩
        rw [List.singleton_append, List.cons.injEq] at he
        obtain ⟨rfl, rfl⟩ := he
        rw [if_pos hd]
        exact List.mem_singleton_self _
  | many greedy p =>
    simp only [run, Matches]
    split_ifs
    · exact mem_splits
    · rw [List.mem_reverse]
      exact mem_splits
  | boundary word =>
    simp only [run, Matches]
    constructor
    · intro h
      split_ifs at h with hb
      · obtain ⟨rfl, rfl⟩ : w = [] ∧ t = s := by simpa using h
        exact ⟨rfl, rfl, hb⟩
      · cases h
    · rintro ⟨rfl, rfl, hb⟩
      rw [List.nil_append, if_pos hb]
      exact List.mem_singleton_self _
  | seq r q ihr ihq =>
    simp only [run, Matches, List.mem_flatMap, List.mem_map, Prod.exists, Prod.mk.injEq]
    constructor
    · rintro ⟨u, s', hr, v, _, hq, rfl, rfl⟩
      obtain ⟨rfl, hr'⟩ := ihr.mp hr
      obtain ⟨rfl, hq'⟩ := ihq.mp hq
      rw [List.head?_append] at hr'
      exact ⟨(List.append_assoc u v _).symm, u, v, rfl, hr', hq'⟩
    · rintro ⟨rfl, u, v, rfl, hr, hq⟩
      rw [← List.head?_append] at hr
      exact ⟨u, v ++ t, ihr.mpr ⟨List.append_assoc u v t, hr⟩, v, t, ihq.mpr ⟨rfl, hq⟩, rfl, rfl⟩
  | alt r q ihr ihq =>
    simp only [run, Matches, List.mem_append, ihr, ihq]
    exact and_or_left.symm

/-- The last character before a place, one character later. -/
theorem getLast?_cons_or (c : Char) (u : List Char) (before : Option Char) :
    (c :: u).getLast?.or before = u.getLast?.or (some c) := by
  rw [List.getLast?_cons]
  cases u.getLast? <;> rfl

/-- `re.search` from a place on. -/
def searchFrom (r : Regex) : Option Char → List Char → Bool
  | before, [] => !(r.run before []).isEmpty
  | before, c :: s => !(r.run before (c :: s)).isEmpty || searchFrom r (some c) s

theorem run_ne_nil {r : Regex} {before : Option Char} {s : List Char} :
    (!(r.run before s).isEmpty) = true ↔ ∃ w t, s = w ++ t ∧ r.Matches before w t.head? := by
  rw [Bool.not_eq_true', List.isEmpty_eq_false_iff_exists_mem, Prod.exists]
  exact exists₂_congr fun w t => mem_run

theorem searchFrom_iff {r : Regex} {before : Option Char} {s : List Char} :
    r.searchFrom before s = true ↔
      ∃ u w v, s = u ++ (w ++ v) ∧ r.Matches (u.getLast?.or before) w v.head? := by
  induction s generalizing before with
  | nil =>
    rw [searchFrom, run_ne_nil]
    constructor
    · rintro ⟨w, t, hs, hm⟩
      exact ⟨[], w, t, hs, hm⟩
    · rintro ⟨u, w, v, hs, hm⟩
      obtain ⟨rfl, hwv⟩ := List.nil_eq_append_iff.mp hs
      exact ⟨w, v, hwv.symm, hm⟩
  | cons c s ih =>
    rw [searchFrom, Bool.or_eq_true, run_ne_nil, ih]
    constructor
    · rintro (⟨w, t, hs, hm⟩ | ⟨u, w, v, rfl, hm⟩)
      · exact ⟨[], w, t, hs, hm⟩
      · exact ⟨c :: u, w, v, rfl, by rwa [getLast?_cons_or]⟩
    · rintro ⟨u, w, v, hs, hm⟩
      cases u with
      | nil => exact .inl ⟨w, v, hs, hm⟩
      | cons d u =>
        rw [List.cons_append, List.cons.injEq] at hs
        obtain ⟨rfl, rfl⟩ := hs
        exact .inr ⟨u, w, v, rfl, by rwa [getLast?_cons_or] at hm⟩

theorem search_iff {r : Regex} {s : List Char} : r.searchFrom none s = true ↔ r.Occurs s := by
  rw [searchFrom_iff]
  simp only [Option.or_none, Occurs]

instance (r : Regex) (s : List Char) : Decidable (r.Occurs s) := decidable_of_iff _ search_iff

/-! ## Building blocks -/

/-- A text as it is. -/
def lit (s : List Char) : Regex := s.foldr (fun c r => .seq (.char (· == c)) r) .eps

/-- `[p]{n,}` -/
def atLeast (p : Char → Bool) : ℕ → Regex
  | 0 => .many true p
  | n + 1 => .seq (.char p) (atLeast p n)

/-- `[p]+` -/
def plus (p : Char → Bool) : Regex := atLeast p 1

/-- `[p]{n}` -/
def exactly (p : Char → Bool) : ℕ → Regex
  | 0 => .eps
  | n + 1 => .seq (.char p) (exactly p n)

/-- `[p]+?` -/
def lazyPlus (p : Char → Bool) : Regex := .seq (.char p) (.many false p)

/-- One pattern after the other. -/
def seqs (rs : List Regex) : Regex := rs.foldr .seq .eps

/-- What the engine compares without regard to case, as far as a pattern of ASCII characters can
tell: besides the capitals, four other characters have an ASCII letter for another case. -/
def foldCase (c : Char) : Char :=
  if c = '\u0130' || c = '\u0131' then 'i'
  else if c = '\u017f' then 's'
  else if c = '\u212a' then 'k'
  else c.toLower

/-- A text in any case. -/
def litAnyCase (s : List Char) : Regex :=
  s.foldr (fun c r => .seq (.char fun d => foldCase d == foldCase c) r) .eps

/-- Some class of the pattern has the character. -/
def admits : Regex → Char → Bool
  | .eps, _ => false
  | .char p, c => p c
  | .many _ p, c => p c
  | .boundary _, _ => false
  | .seq r q, c => r.admits c || q.admits c
  | .alt r q, c => r.admits c || q.admits c

theorem admits_of_matches {r : Regex} {before after : Option Char} {w : List Char}
    (h : r.Matches before w after) {c : Char} (hc : c ∈ w) : r.admits c = true := by
  induction r generalizing before w after with
  | eps =>
    rw [show w = [] from h] at hc
    cases hc
  | char p =>
    obtain ⟨d, rfl, hd⟩ := h
    rw [List.mem_singleton.mp hc]
    exact hd
  | many greedy p => exact h c hc
  | boundary word =>
    rw [h.1] at hc
    cases hc
  | seq r q ihr ihq =>
    obtain ⟨u, v, rfl, hr, hq⟩ := h
    rw [admits, Bool.or_eq_true]
    exact (List.mem_append.mp hc).imp (ihr hr) (ihq hq)
  | alt r q ihr ihq =>
    rw [admits, Bool.or_eq_true]
    exact Or.imp (ihr · hc) (ihq · hc) h

/-- No match is shorter. -/
def minLength : Regex → ℕ
  | .eps => 0
  | .char _ => 1
  | .many _ _ => 0
  | .boundary _ => 0
  | .seq r q => r.minLength + q.minLength
  | .alt r q => min r.minLength q.minLength

theorem minLength_le {r : Regex} {before after : Option Char} {w : List Char}
    (h : r.Matches before w after) : r.minLength ≤ w.length := by
  induction r generalizing before w after with
  | eps => exact Nat.zero_le _
  | char p =>
    obtain ⟨c, rfl, -⟩ := h
    exact Nat.le_refl 1
  | many greedy p => exact Nat.zero_le _
  | boundary word => exact Nat.zero_le _
  | seq r q ihr ihq =>
    obtain ⟨u, v, rfl, hr, hq⟩ := h
    rw [minLength, List.length_append]
    exact Nat.add_le_add (ihr hr) (ihq hq)
  | alt r q ihr ihq =>
    obtain h | h := h
    · exact Nat.le_trans (Nat.min_le_left _ _) (ihr h)
    · exact Nat.le_trans (Nat.min_le_right _ _) (ihq h)

/-- Without boundaries: the text around a match does not count. -/
def plain : Regex → Bool
  | .boundary _ => false
  | .seq r q => r.plain && q.plain
  | .alt r q => r.plain && q.plain
  | _ => true

theorem matches_of_plain {r : Regex} (hr : r.plain = true)
    {before after before' after' : Option Char} {w : List Char}
    (h : r.Matches before w after) : r.Matches before' w after' := by
  induction r generalizing before after before' after' w with
  | eps => exact h
  | char p => exact h
  | many greedy p => exact h
  | boundary word => cases hr
  | seq r q ihr ihq =>
    rw [plain, Bool.and_eq_true] at hr
    obtain ⟨u, v, rfl, hu, hv⟩ := h
    exact ⟨u, v, rfl, ihr hr.1 hu, ihq hr.2 hv⟩
  | alt r q ihr ihq =>
    rw [plain, Bool.and_eq_true] at hr
    exact h.imp (ihr hr.1) (ihq hr.2)

/-! ## Matches in joined texts -/

theorem Occurs.of_infix {r : Regex} (hr : r.plain = true) {s t : List Char} (h : r.Occurs s)
    (hst : s <:+: t) : r.Occurs t := by
  obtain ⟨u, w, v, rfl, hm⟩ := h
  obtain ⟨x, y, rfl⟩ := hst
  exact ⟨x ++ u, w, v ++ y, by simp, matches_of_plain hr hm⟩

/-- A match begins in one of the texts and ends in a later one. -/
def Straddles (r : Regex) (ts : List (List Char)) : Prop :=
  ∃ left right u a b v, ts = left ++ right ∧ left.flatten = u ++ a ∧ right.flatten = b ++ v ∧
    a ≠ [] ∧ b ≠ [] ∧ r.Matches none (a ++ b) none

/-- A match in a joined text lies in one of the texts or goes across a border. -/
theorem occurs_flatten {r : Regex} (hr : r.plain = true) (hpos : 0 < r.minLength)
    {ts : List (List Char)} :
    r.Occurs ts.flatten ↔ (∃ t ∈ ts, r.Occurs t) ∨ r.Straddles ts := by
  constructor
  · rintro ⟨u, w, v, hs, hm⟩
    have hw : w ≠ [] := by
      rintro rfl
      exact absurd (minLength_le hm) (Nat.not_le.mpr hpos)
    replace hm : r.Matches none w none := matches_of_plain hr hm
    induction ts generalizing u with
    | nil => simp [hw] at hs
    | cons t ts ih =>
      have hlater : ∀ u', ts.flatten = u' ++ (w ++ v) →
          (∃ t' ∈ t :: ts, r.Occurs t') ∨ r.Straddles (t :: ts) := by
        intro u' hrest
        obtain ⟨t', ht', hoccurs⟩ | ⟨left, right, u, a, b, v, rfl, hleft, hright, ha, hb, hab⟩ :=
          ih u' hrest
        · exact .inl ⟨t', List.mem_cons_of_mem t ht', hoccurs⟩
        · exact .inr ⟨t :: left, right, t ++ u, a, b, v, rfl, by simp [hleft], hright, ha, hb, hab⟩
      rw [List.flatten_cons] at hs
      obtain ⟨u', -, hrest⟩ | ⟨z, rfl, hrest⟩ := List.append_eq_append_iff.mp hs
      · exact hlater u' hrest
      · by_cases hz : z = []
        · subst hz
          exact hlater [] hrest.symm
        · obtain ⟨z', rfl, -⟩ | ⟨w', rfl, hts⟩ := List.append_eq_append_iff.mp hrest
          · exact .inl ⟨u ++ (w ++ z'), List.mem_cons_self, u, w, z', rfl, matches_of_plain hr hm⟩
          · by_cases hw' : w' = []
            · subst hw'
              rw [List.append_nil] at hm
              exact .inl ⟨u ++ z, List.mem_cons_self, u, z, [], by simp, matches_of_plain hr hm⟩
            · exact .inr ⟨[u ++ z], ts, u, z, w', v, rfl, by simp, hts, hz, hw', hm⟩
  · rintro (⟨t, ht, hoccurs⟩ | ⟨left, right, u, a, b, v, rfl, hleft, hright, -, -, hab⟩)
    · exact hoccurs.of_infix hr (List.infix_of_mem_flatten ht)
    · refine ⟨u, a ++ b, v, ?_, matches_of_plain hr hab⟩
      rw [List.flatten_append, hleft, hright]
      simp

end Regex

end Kepryx
