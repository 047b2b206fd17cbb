import Kepryx.Occurrences

/-!
# Patterns that take the longest match

The first match of a backtracking engine depends on the order in which it tries. A pattern that
always takes the longest match finds what it finds by what it matches alone. So it finds the same
after the substitution of another pattern, if no match of the one begins inside of a match of the
other.
-/
namespace Kepryx.Regex

variable {S : List Char → Prop} {r q : Regex} {repl : List Char}

/-- The first of the matches at a place is the longest one. -/
def Longest (r : Regex) : Prop :=
  ∀ (before : Option Char) (s : List Char) (m n : List Char × List Char),
    (r.run before s).head? = some m → n ∈ r.run before s → n.1.length ≤ m.1.length

/-- At every place there is only one match of `r` that is followed by one of `q`. -/
def Decided (r q : Regex) : Prop :=
  ∀ (before after before' after' : Option Char) (u t u' t' : List Char), u ++ t = u' ++ t' →
    r.Matches before u after → r.Matches before' u' after' → Begins q t → Begins q t' → u = u'

theorem exists_first {α : Type*} {x : α} {l : List α} (h : x ∈ l) : ∃ y, l.head? = some y :=
  ⟨_, List.head?_eq_some_head (List.ne_nil_of_mem h)⟩

/-! ## What takes the longest match -/

theorem Longest.opt (hr : Longest r) : Longest (opt r) := by
  intro before s m n hm hn
  have hrun : (Regex.opt r).run before s = r.run before s ++ [([], s)] := rfl
  rw [hrun, List.head?_append] at hm
  rw [hrun, List.mem_append, List.mem_singleton] at hn
  rcases hn with hn | rfl
  · obtain ⟨m', hm'⟩ := exists_first hn
    rw [hm', Option.some_or] at hm
    rw [← Option.some.inj hm]
    exact hr before s m' n hm' hn
  · exact Nat.zero_le _

theorem begins_of_mem_run (hq : q.plain = true) {before : Option Char} {s : List Char}
    {m : List Char × List Char} (h : m ∈ q.run before s) : Begins q s := by
  obtain ⟨w, t⟩ := m
  obtain ⟨rfl, hm⟩ := mem_run.mp h
  exact ⟨w, t, rfl, matches_of_plain hq hm⟩

theorem Longest.seq (hplain : q.plain = true) (hdecided : Decided r q) (hq : Longest q) :
    Longest (.seq r q) := by
  intro before s m n hm hn
  rw [run, List.head?_flatMap] at hm
  obtain ⟨⟨u, t⟩, hu, hm⟩ := List.exists_of_findSome?_eq_some hm
  obtain ⟨⟨v, y⟩, hv, rfl⟩ := Option.map_eq_some_iff.mp (List.head?_map ▸ hm)
  obtain ⟨⟨u', t'⟩, hu', hn⟩ := List.mem_flatMap.mp hn
  obtain ⟨⟨v', y'⟩, hv', rfl⟩ := List.mem_map.mp hn
  obtain ⟨hs, hmatch⟩ := mem_run.mp hu
  obtain ⟨hs', hmatch'⟩ := mem_run.mp hu'
  -- both go on from the same match
  obtain rfl : u = u' := hdecided _ _ _ _ _ _ _ _ (hs.symm.trans hs') hmatch hmatch'
    (begins_of_mem_run hplain (List.mem_of_head? hv)) (begins_of_mem_run hplain hv')
  obtain rfl : t = t' := List.append_cancel_left (hs.symm.trans hs')
  rw [List.length_append, List.length_append]
  exact Nat.add_le_add_left (hq _ _ _ _ hv hv') _

/-! ## What is decided -/

theorem Decided.seq {r' : Regex} {n : ℕ}
    (hr : ∀ {before after : Option Char} {w : List Char}, r.Matches before w after → w.length = n)
    (h : Decided r' q) : Decided (.seq r r') q := by
  rintro _ _ _ _ _ t _ t' hut ⟨u, v, rfl, hu, hv⟩ ⟨u', v', rfl, hu', hv'⟩ ht ht'
  rw [List.append_assoc, List.append_assoc] at hut
  obtain ⟨rfl, hvt⟩ := List.append_inj hut ((hr hu).trans (hr hu').symm)
  rw [h _ _ _ _ _ _ _ _ hvt hv hv' ht ht']

theorem Decided.opt (h : Decided r q)
    (hne : ∀ {before after : Option Char} {u t : List Char}, r.Matches before u after →
      Begins q t → ¬ Begins q (u ++ t)) : Decided (opt r) q := by
  rintro b a b' a' u t u' t' hut (hu | hu) (hu' | hu') ht ht'
  · exact h b a b' a' u t u' t' hut hu hu' ht ht'
  · obtain rfl : u' = [] := hu'
    exact absurd (hut ▸ ht') (hne hu ht)
  · obtain rfl : u = [] := hu
    exact absurd (hut.symm ▸ ht) (hne hu' ht')
  · rw [show u = [] from hu, show u' = [] from hu']

/-! ## What is found without looking back -/

theorem run_of_plain (hr : r.plain = true) (before before' : Option Char) (s : List Char) :
    r.run before s = r.run before' s := by
  induction r generalizing before before' s with
  | eps => rfl
  | char p => cases s <;> rfl
  | many greedy p => rfl
  | boundary word => cases hr
  | seq r q ihr ihq =>
    rw [plain, Bool.and_eq_true] at hr
    rw [run, run, ihr hr.1 before before']
    exact List.flatMap_congr fun m _ => by
      rw [ihq hr.2 (m.1.getLast?.or before) (m.1.getLast?.or before')]
  | alt r q ihr ihq =>
    rw [plain, Bool.and_eq_true] at hr
    rw [run, run, ihr hr.1 before before', ihq hr.2 before before']

theorem foundFrom_of_plain (hr : r.plain = true) (before before' : Option Char) (skip : ℕ)
    (s : List Char) : foundFrom r before skip s = foundFrom r before' skip s := by
  cases s with
  | nil => rfl
  | cons c s =>
    cases skip with
    | succ skip => rfl
    | zero => rw [foundFrom, foundFrom, run_of_plain hr before before']

theorem foundFrom_skip (hr : r.plain = true) (before : Option Char) (w s : List Char) :
    foundFrom r before w.length (w ++ s) = found r s := by
  induction w generalizing before with
  | nil => exact foundFrom_of_plain hr before none 0 s
  | cons c w ih => exact ih (some c)

theorem found_of_not_begins (hr : r.plain = true) {c : Char} {s : List Char}
    (h : ¬ Begins r (c :: s)) : found r (c :: s) = found r s := by
  have hrun : (r.run none (c :: s)).head? = none := by
    rw [List.head?_eq_none_iff, List.eq_nil_iff_forall_not_mem]
    exact fun m hm => h (begins_of_mem_run hr hm)
  rw [found, foundFrom]
  simp only [hrun]
  exact foundFrom_of_plain hr (some c) none 0 s

/-- Nothing is found inside of a text that no match begins in. -/
theorem found_append (hr : r.plain = true) {w s : List Char}
    (h : ∀ a b, w = a ++ b → b ≠ [] → ¬ Begins r (b ++ s)) : found r (w ++ s) = found r s := by
  induction w with
  | nil => rfl
  | cons c w ih =>
    have hc : ¬ Begins r (c :: (w ++ s)) := h [] (c :: w) rfl (List.cons_ne_nil c w)
    rw [List.cons_append, found_of_not_begins hr hc]
    exact ih fun a b hab hb => h (c :: a) b (by rw [hab, List.cons_append]) hb

theorem found_of_head (hr : r.plain = true) {w s : List Char} (hne : w ≠ [])
    (h : (r.run none (w ++ s)).head? = some (w, s)) : found r (w ++ s) = w :: found r s := by
  obtain ⟨c, w, rfl⟩ := List.exists_cons_of_ne_nil hne
  rw [List.cons_append] at h
  rw [found, List.cons_append, foundFrom]
  simp only [h]
  rw [foundFrom_skip hr]

theorem exists_head (hr : r.plain = true) {s : List Char} (h : Begins r s) :
    ∃ w y, s = w ++ y ∧ (r.run none s).head? = some (w, y) ∧ r.Matches none w none := by
  obtain ⟨w, y, rfl, hm⟩ := h
  have hmem : (w, y) ∈ r.run none (w ++ y) := mem_run.mpr ⟨rfl, matches_of_plain hr hm⟩
  obtain ⟨⟨w', y'⟩, hhead⟩ := exists_first hmem
  obtain ⟨hs, hm'⟩ := mem_run.mp (List.mem_of_head? hhead)
  exact ⟨w', y', hs, hhead, matches_of_plain hr hm'⟩

/-! ## Another substitution -/

section Found

variable (hS : Announces S r repl) (hq : Clear S q) (hplain : q.plain = true) (hlong : Longest q)
include hS hq hplain hlong

/-- The first match at a place is the same before and after a substitution. -/
theorem Subst.head_eq {before : Option Char} {s t w y : List Char} (h : Subst r repl before s t)
    (hw : (q.run none s).head? = some (w, y)) : ∃ before' y',
      t = w ++ y' ∧ (q.run none t).head? = some (w, y') ∧ Subst r repl before' y y' := by
  obtain ⟨hs, hm⟩ := mem_run.mp (List.mem_of_head? hw)
  obtain ⟨before', y', ht, hrest⟩ := h.kept_of_source hS hs fun a b hab hb =>
    hq _ _ a b y (hab ▸ hm) hb
  have hmem : (w, y') ∈ q.run none t := mem_run.mpr ⟨ht, matches_of_plain hplain hm⟩
  obtain ⟨⟨w', z⟩, hw'⟩ := exists_first hmem
  obtain ⟨ht', hm'⟩ := mem_run.mp (List.mem_of_head? hw')
  obtain ⟨-, z', hs', -⟩ := h.kept_of_result hS ht' fun a b hab hb =>
    hq _ _ a b z (hab ▸ hm') hb
  have hmem' : (w', z') ∈ q.run none s := mem_run.mpr ⟨hs', matches_of_plain hplain hm'⟩
  -- each of the two first matches is at least as long as the other
  have hlength : w.length = w'.length :=
    Nat.le_antisymm (hlong _ _ _ _ hw' hmem) (hlong _ _ _ _ hw hmem')
  obtain ⟨rfl, rfl⟩ := List.append_inj (ht.symm.trans ht') hlength
  exact ⟨before', y', ht, hw', hrest⟩

/-- A pattern finds the same before and after a substitution, if it begins inside of none of the
replaced matches and not inside of the replacement. -/
theorem Subst.found_eq (hpos : 0 < q.minLength) (hr : Clear (Begins q) r)
    (hrepl : ∀ a b y, repl = a ++ b → b ≠ [] → ¬ Begins q (b ++ y)) {before : Option Char}
    {s t : List Char} (h : Subst r repl before s t) : found q s = found q t := by
  induction hn : s.length using Nat.strong_induction_on generalizing before s t with
  | _ n ih =>
    subst hn
    by_cases hbegins : Begins q s
    · obtain ⟨w, y, rfl, hhead, hm⟩ := exists_head hplain hbegins
      obtain ⟨before', y', rfl, hhead', hrest⟩ := h.head_eq hS hq hplain hlong hhead
      have hne : w ≠ [] := ne_nil_of_matches hpos hm
      have hlt : y.length < (w ++ y).length := by
        rw [List.length_append]
        exact Nat.lt_add_of_pos_left (List.length_pos_of_ne_nil hne)
      rw [found_of_head hplain hne hhead, found_of_head hplain hne hhead', ih _ hlt hrest rfl]
    · have hbegins' : ¬ Begins q t := fun h' => hbegins ((h.begins_iff hS hq).mpr h')
      cases h with
      | nil => rfl
      | keep _ rest =>
        rw [found_of_not_begins hplain hbegins, found_of_not_begins hplain hbegins']
        exact ih _ (Nat.lt_succ_self _) rest rfl
      | @hit _ w s _ hne first rest =>
        have hm := (mem_run.mp (List.mem_of_head? first)).2
        have hlt : s.length < (w ++ s).length := by
          rw [List.length_append]
          exact Nat.lt_add_of_pos_left (List.length_pos_of_ne_nil hne)
        rw [found_append hplain fun a b hab hb => hr _ _ a b s (hab ▸ hm) hb,
          found_append hplain fun a b hab hb => hrepl a b _ hab hb]
        exact ih _ hlt rest rfl

end Found

end Kepryx.Regex
