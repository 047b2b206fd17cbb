import Kepryx.Regex
import Mathlib.Data.List.Infix

/-!
# Replacing the matches of a pattern

`re.sub` goes through a text from the left and puts a replacement in the place of every match.
A replacement with fence characters keeps what it puts in apart from the text around it: a match
that comes out of a substitution was there before.
-/
namespace Kepryx.Regex

/-- `re.sub` from a place on, with a number of characters that a match has used up. The patterns
have no empty match. -/
def subFrom (r : Regex) (repl : List Char) : Option Char → ℕ → List Char → List Char
  | _, _, [] => []
  | _, skip + 1, c :: s => subFrom r repl (some c) skip s
  | before, 0, c :: s =>
    match (r.run before (c :: s)).head? with
    | some (_ :: w, _) => repl ++ subFrom r repl (some c) w.length s
    | _ => c :: subFrom r repl (some c) 0 s

/-- `re.sub(pattern, replacement, text)` -/
def sub (r : Regex) (repl s : List Char) : List Char := subFrom r repl none 0 s

/-- What a substitution does, match by match. -/
inductive Subst (r : Regex) (repl : List Char) : Option Char → List Char → List Char → Prop
  | nil (before : Option Char) : Subst r repl before [] []
  | keep {before : Option Char} {c : Char} {s t : List Char} (none : r.run before (c :: s) = [])
      (rest : Subst r repl (some c) s t) : Subst r repl before (c :: s) (c :: t)
  | hit {before : Option Char} {w s t : List Char} (ne : w ≠ [])
      (first : (r.run before (w ++ s)).head? = some (w, s)) (rest : Subst r repl w.getLast? s t) :
      Subst r repl before (w ++ s) (repl ++ t)

variable {r : Regex} {repl : List Char}

theorem subFrom_skip (before : Option Char) (w s : List Char) :
    subFrom r repl before w.length (w ++ s) = subFrom r repl (w.getLast?.or before) 0 s := by
  induction w generalizing before with
  | nil => rfl
  | cons c w ih => rw [getLast?_cons_or, ← ih]; rfl

theorem ne_nil_of_matches (hr : 0 < r.minLength) {before after : Option Char} {w : List Char}
    (h : r.Matches before w after) : w ≠ [] := by
  rintro rfl
  exact absurd (minLength_le h) (Nat.not_le.mpr hr)

theorem subst_subFrom (hr : 0 < r.minLength) (before : Option Char) (s : List Char) :
    Subst r repl before s (subFrom r repl before 0 s) := by
  cases s with
  | nil => exact .nil before
  | cons c s =>
    cases hrun : (r.run before (c :: s)).head? with
    | none =>
      have hnil := List.head?_eq_none_iff.mp hrun
      simp only [subFrom, hrun]
      exact .keep hnil (subst_subFrom hr _ s)
    | some m =>
      obtain ⟨w, t⟩ := m
      obtain ⟨hs, hm⟩ := mem_run.mp (List.mem_of_head? hrun)
      cases w with
      | nil => exact absurd rfl (ne_nil_of_matches hr hm)
      | cons d w =>
        have hsub : subFrom r repl before 0 (c :: s) =
            repl ++ subFrom r repl (some c) w.length s := by simp only [subFrom, hrun]
        rw [hsub]
        rw [List.cons_append, List.cons.injEq] at hs
        obtain ⟨rfl, rfl⟩ := hs
        have hlast : (c :: w).getLast? = w.getLast?.or (some c) := by
          rw [← getLast?_cons_or c w none, Option.or_none]
        rw [subFrom_skip, ← hlast]
        exact .hit (List.cons_ne_nil c w) hrun (subst_subFrom hr _ t)
termination_by s.length

theorem subst_sub (hr : 0 < r.minLength) (s : List Char) :
    Subst r repl none s (sub r repl s) := subst_subFrom hr none s

/-! ## Text that is kept -/

/-- No match begins here. -/
def NoMatchAt (r : Regex) (before : Option Char) (s : List Char) : Prop := r.run before s = []

theorem NoMatchAt.not_matches {before : Option Char} {w t : List Char}
    (h : r.NoMatchAt before (w ++ t)) : ¬ r.Matches before w t.head? := by
  intro hm
  have hmem : (w, t) ∈ r.run before (w ++ t) := mem_run.mpr ⟨rfl, hm⟩
  rw [show r.run before (w ++ t) = [] from h] at hmem
  cases hmem

/-- Without matches nothing is replaced. -/
theorem Subst.eq_self {before : Option Char} {s t : List Char} (h : Subst r repl before s t)
    (u : List Char) (hbefore : before = u.getLast?) (hno : ¬ r.Occurs (u ++ s)) : t = s := by
  induction h generalizing u with
  | nil => rfl
  | @keep _ c s t _ _ ih =>
    rw [ih (u ++ [c]) (by simp) (by simpa using hno)]
  | @hit _ w s t _ first _ _ =>
    subst hbefore
    exact absurd ⟨u, w, s, rfl, (mem_run.mp (List.mem_of_head? first)).2⟩ hno

theorem sub_of_not_occurs (hr : 0 < r.minLength) {s : List Char} (h : ¬ r.Occurs s) :
    sub r repl s = s := (subst_sub hr s).eq_self [] rfl h

/-- Characters that the text does not have. -/
def Avoids (fs w : List Char) : Prop := ∀ c ∈ w, c ∉ fs

/-- The replacement begins with a fence, ends with one, and has only few characters between two
of them. -/
def Fence (fs : List Char) (n : ℕ) (repl : List Char) : Prop :=
  (∃ c ∈ repl.head?, c ∈ fs) ∧ ∀ z ∈ repl.tails, z ≠ [] →
    (z.takeWhile (· ∉ fs)).length ≤ n ∧ (z.takeWhile (· ∉ fs)).length < z.length

variable {fs : List Char} {n : ℕ}

/-- A text without fences at the beginning of a result stood at the beginning before. -/
theorem Subst.kept_prefix (hrepl : Fence fs n repl) {before : Option Char} {s t w y : List Char}
    (h : Subst r repl before s t) (ht : t = w ++ y) (hw : Avoids fs w) :
    ∃ before' y', s = w ++ y' ∧ Subst r repl before' y' y := by
  induction w generalizing before s t with
  | nil =>
    subst ht
    exact ⟨before, s, rfl, h⟩
  | cons c w ih =>
    cases h with
    | nil => cases ht
    | keep _ rest =>
      rw [List.cons_append, List.cons.injEq] at ht
      obtain ⟨rfl, rfl⟩ := ht
      obtain ⟨before', y', rfl, hy⟩ := ih rest rfl fun d hd => hw d (List.mem_cons_of_mem _ hd)
      exact ⟨before', y', rfl, hy⟩
    | hit _ _ _ =>
      -- the replacement would begin with a character of the text
      obtain ⟨⟨f, hf, hmem⟩, -⟩ := hrepl
      have hhead := congrArg List.head? ht
      rw [List.head?_append_of_ne_nil _ (List.ne_nil_of_mem (List.mem_of_head? hf)), hf] at hhead
      obtain rfl : f = c := Option.some.inj hhead
      exact absurd hmem (hw f List.mem_cons_self)

theorem takeWhile_append_of_avoids {w : List Char} (hw : Avoids fs w) (y : List Char) :
    w.length ≤ ((w ++ y).takeWhile (· ∉ fs)).length := by
  rw [List.takeWhile_append_of_pos fun c hc => by simpa using hw c hc, List.length_append]
  exact Nat.le_add_right _ _

/-- A long text without fences does not begin inside of a replacement. -/
theorem Fence.outside (hrepl : Fence fs n repl) {x w y t : List Char} (hw : Avoids fs w)
    (hlong : n < w.length) (h : repl ++ t = x ++ (w ++ y)) :
    ∃ x', x = repl ++ x' ∧ t = x' ++ (w ++ y) := by
  obtain ⟨x', rfl, ht⟩ | ⟨z, rfl, hz⟩ := List.append_eq_append_iff.mp h
  · exact ⟨x', rfl, ht⟩
  · by_cases hnil : z = []
    · subst hnil
      rw [List.nil_append] at hz
      exact ⟨[], by simp, by simpa using hz.symm⟩
    · obtain ⟨hshort, hfence⟩ := hrepl.2 z ((List.mem_tails _ _).mpr (List.suffix_append x z)) hnil
      have hle := takeWhile_append_of_avoids hw y
      rw [hz, List.takeWhile_append, if_neg (by omega)] at hle
      omega

/-- A long text without fences in a result stood in the text before, and no match began there. -/
theorem Subst.kept (hrepl : Fence fs n repl) {before : Option Char} {s t x w y : List Char}
    (h : Subst r repl before s t) (ht : t = x ++ (w ++ y)) (hw : Avoids fs w)
    (hlong : n < w.length) :
    ∃ x' y' before' before'', s = x' ++ (w ++ y') ∧ (x' = [] → x = []) ∧
      r.NoMatchAt before' (w ++ y') ∧ Subst r repl before'' y' y := by
  induction h generalizing x with
  | nil =>
    obtain ⟨-, hnil⟩ := List.nil_eq_append_iff.mp ht
    rw [(List.nil_eq_append_iff.mp hnil.symm).1] at hlong
    exact absurd hlong (Nat.not_lt_zero n)
  | @keep before c s t hrun rest ih =>
    cases x with
    | nil =>
      cases w with
      | nil => exact absurd hlong (Nat.not_lt_zero n)
      | cons d w =>
        simp only [List.nil_append, List.cons_append, List.cons.injEq] at ht
        obtain ⟨rfl, rfl⟩ := ht
        obtain ⟨before'', y', rfl, hy⟩ :=
          rest.kept_prefix hrepl rfl fun d hd => hw d (List.mem_cons_of_mem _ hd)
        exact ⟨[], y', before, before'', rfl, fun _ => rfl, hrun, hy⟩
    | cons d x =>
      rw [List.cons_append, List.cons.injEq] at ht
      obtain ⟨rfl, ht⟩ := ht
      obtain ⟨x', y', before', before'', rfl, -, hno, hy⟩ := ih ht
      exact ⟨c :: x', y', before', before'', rfl, fun h => absurd h (List.cons_ne_nil c x'), hno,
        hy⟩
  | @hit before v s t hne _ rest ih =>
    obtain ⟨x₁, rfl, hx₁⟩ := hrepl.outside hw hlong ht
    obtain ⟨x', y', before', before'', rfl, -, hno, hy⟩ := ih hx₁
    refine ⟨v ++ x', y', before', before'', by simp, fun h => ?_, hno, hy⟩
    exact absurd (List.append_eq_nil_iff.mp h).1 hne

/-! ## Patterns and fences -/

/-- A pattern whose matches are longer than what stands between two fences. -/
structure Solid (fs : List Char) (n : ℕ) (r : Regex) : Prop where
  plain : r.plain = true
  admits : ∀ f ∈ fs, r.admits f = false
  long : n < r.minLength

theorem Solid.avoids {q : Regex} (hq : Solid fs n q) {before after : Option Char} {w : List Char}
    (h : q.Matches before w after) : Avoids fs w := by
  intro c hc hf
  have hadmits := admits_of_matches h hc
  rw [hq.admits c hf] at hadmits
  cases hadmits

/-- A pattern that no replacement with fences completes: a solid one, or any text between two
solid ones. -/
inductive Fenceproof (fs : List Char) (n : ℕ) : Regex → Prop
  | solid {r : Regex} (h : Solid fs n r) : Fenceproof fs n r
  | between {a b : Regex} (ha : Solid fs n a) (hb : Solid fs n b) :
      Fenceproof fs n (.seq a (.seq (lazyPlus fun _ => true) b))

theorem Fenceproof.plain {q : Regex} (hq : Fenceproof fs n q) : q.plain = true := by
  cases hq with
  | solid h => exact h.plain
  | between ha hb => simp [Regex.plain, lazyPlus, ha.plain, hb.plain]

theorem Fenceproof.minLength_pos {q : Regex} (hq : Fenceproof fs n q) : 0 < q.minLength := by
  cases hq with
  | solid h => exact Nat.zero_lt_of_lt h.long
  | between ha hb => exact Nat.add_pos_left (Nat.zero_lt_of_lt ha.long) _

theorem matches_lazyPlus {before after : Option Char} {w : List Char} :
    (lazyPlus fun _ => true).Matches before w after ↔ w ≠ [] := by
  constructor
  · exact ne_nil_of_matches (by simp [lazyPlus, minLength])
  · intro hw
    obtain ⟨c, w, rfl⟩ := List.exists_cons_of_ne_nil hw
    exact ⟨[c], w, rfl, ⟨c, rfl, rfl⟩, fun _ _ => rfl⟩

/-- A match in a result was there before, and no match of the replaced pattern began there. -/
theorem Subst.kept_match (hrepl : Fence fs n repl) {q : Regex} (hq : Fenceproof fs n q)
    {before : Option Char} {s t x w y : List Char} (h : Subst r repl before s t)
    (ht : t = x ++ (w ++ y)) (hm : q.Matches none w none) :
    ∃ x' w' y' before', s = x' ++ (w' ++ y') ∧ q.Matches none w' none ∧
      r.NoMatchAt before' (w' ++ y') := by
  cases hq with
  | solid hsolid =>
    have hlong := Nat.lt_of_lt_of_le hsolid.long (minLength_le hm)
    obtain ⟨x', y', before', _, hs, -, hno, -⟩ := h.kept hrepl ht (hsolid.avoids hm) hlong
    exact ⟨x', w, y', before', hs, hm, hno⟩
  | @between a b ha hb =>
    obtain ⟨u, v, rfl, hu, body, v, rfl, hbody, hv⟩ := hm
    -- the two ends are kept one after the other
    have ht' : t = x ++ (u ++ (body ++ (v ++ y))) := by simpa using ht
    obtain ⟨x', y', before', before'', hs, -, hno, hrest⟩ := h.kept hrepl ht' (ha.avoids hu)
      (Nat.lt_of_lt_of_le ha.long (minLength_le hu))
    obtain ⟨body', y'', _, _, rfl, hbody', -, -⟩ := hrest.kept hrepl rfl (hb.avoids hv)
      (Nat.lt_of_lt_of_le hb.long (minLength_le hv))
    have hne : body' ≠ [] := fun he => matches_lazyPlus.mp hbody (hbody' he)
    refine ⟨x', u ++ (body' ++ v), y'', before', by simpa using hs, ?_, by simpa using hno⟩
    exact ⟨u, body' ++ v, rfl, matches_of_plain ha.plain hu, body', v, rfl,
      matches_lazyPlus.mpr hne, matches_of_plain hb.plain hv⟩

theorem occurs_of_occurs_sub (hrepl : Fence fs n repl) (hr : 0 < r.minLength) {q : Regex}
    (hq : Fenceproof fs n q) {s : List Char} (h : q.Occurs (sub r repl s)) : q.Occurs s := by
  obtain ⟨x, w, y, ht, hm⟩ := h
  obtain ⟨x', w', y', _, hs, hm', -⟩ :=
    (subst_sub hr s).kept_match hrepl hq ht (matches_of_plain hq.plain hm)
  exact ⟨x', w', y', hs, matches_of_plain hq.plain hm'⟩

theorem not_occurs_sub (hrepl : Fence fs n repl) (hr : Fenceproof fs n r) (s : List Char) :
    ¬ r.Occurs (sub r repl s) := by
  rintro ⟨x, w, y, ht, hm⟩
  obtain ⟨x', w', y', _, -, hm', hno⟩ := (subst_sub hr.minLength_pos s).kept_match hrepl hr ht
    (matches_of_plain hr.plain hm)
  exact hno.not_matches (matches_of_plain hr.plain hm')

/-! ## One pattern after the other -/

/-- The substitutions of a list of patterns, in their order. -/
def subAll (rs : List Regex) (repl s : List Char) : List Char :=
  rs.foldl (fun t r => sub r repl t) s

variable {rs : List Regex}

theorem occurs_of_occurs_subAll (hrepl : Fence fs n repl) (hrs : ∀ r ∈ rs, Fenceproof fs n r)
    {q : Regex} (hq : Fenceproof fs n q) {s : List Char} (h : q.Occurs (subAll rs repl s)) :
    q.Occurs s := by
  induction rs generalizing s with
  | nil => exact h
  | cons r rs ih =>
    rw [List.forall_mem_cons] at hrs
    exact occurs_of_occurs_sub hrepl hrs.1.minLength_pos hq (ih hrs.2 h)

/-- After all substitutions no pattern of the list matches anywhere. -/
theorem not_occurs_subAll (hrepl : Fence fs n repl) (hrs : ∀ r ∈ rs, Fenceproof fs n r)
    (s : List Char) : ∀ r ∈ rs, ¬ r.Occurs (subAll rs repl s) := by
  induction rs generalizing s with
  | nil => exact List.forall_mem_nil _
  | cons r rs ih =>
    rw [List.forall_mem_cons] at hrs
    refine List.forall_mem_cons.mpr ⟨fun h => ?_, ih hrs.2 _⟩
    exact not_occurs_sub hrepl hrs.1 s (occurs_of_occurs_subAll hrepl hrs.2 hrs.1 h)

theorem subAll_of_not_occurs (hrs : ∀ r ∈ rs, 0 < r.minLength) {s : List Char}
    (h : ∀ r ∈ rs, ¬ r.Occurs s) : subAll rs repl s = s := by
  induction rs with
  | nil => rfl
  | cons r rs ih =>
    rw [List.forall_mem_cons] at hrs h
    rw [subAll, List.foldl_cons, sub_of_not_occurs hrs.1 h.1]
    exact ih hrs.2 h.2

end Kepryx.Regex
