import Mathlib.Data.List.Dedup
import Mathlib.Data.List.Duplicate
import Kepryx.SelfSecurity

/-!
# When a dependency scan leaves exactly the reported findings

An advisory list that repeats an identifier inserts a finding twice when it is new, and
counts it twice when it is stored. Without repetitions a completed scan leaves for every
installed package the findings that OSV reported.
-/
namespace Kepryx.DependencyScan
open Kepryx.Models Kepryx.Tables Kepryx.SelfSecurity

variable {V : Type} [LinearOrder V]

/-! ## What a scan should leave -/

/-- The findings of an installed package after a scan: one for each reported identifier, with
the suppression it had before, and as many as the package counts. -/
structure Exact (scan : Scan V) (before after : ScanDatabase) (dep : DepRecord)
    (p : PlatformDependency) : Prop where
  reported : ∀ x, (after.findings.find (p.id, x)).isSome ↔ x ∈ scan.reportedIds dep
  suppression : ∀ x f f', before.findings.find (p.id, x) = some f →
    after.findings.find (p.id, x) = some f' → f'.toSuppression = f.toSuppression
  cveCount : p.cveCount = (after.findings.rows.filter fun f => f.dependencyId = p.id).length

/-- The scan does not violate the constraint, and if it commits, every installed package is
stored in one row with exactly the findings that were reported for it. -/
def ScanExact (now : Time) (scan : Scan V) (db : ScanDatabase) : Prop :=
  persistScan now scan db ≠ .error .uniqueViolation ∧
  ∀ db', persistScan now scan db = .ok db' → ∀ dep ∈ scan.inventory.deps,
    (∃ p ∈ db'.dependencies.rows, matchesDep dep p) ∧
    ∀ p ∈ db'.dependencies.rows, matchesDep dep p → Exact scan db db' dep p

/-- The package has at most one stored row. -/
def AtMostOne (dependencies : Table PlatformDependency.id) (dep : DepRecord) : Prop :=
  ∀ p ∈ dependencies.rows, ∀ q ∈ dependencies.rows, matchesDep dep p → matchesDep dep q → p = q

/-- An identifier that is reported twice for the package is the one of a stored finding. -/
def RepeatsStored (scan : Scan V) (s : ScanState) (dep : DepRecord) : Prop :=
  ∀ x, List.Duplicate x (scan.reportedIds dep) →
    ∃ p ∈ s.dependencies.rows, matchesDep dep p ∧ (s.findings.find (p.id, x)).isSome

/-! ## The loop over the findings of a package -/

@[simp] theorem writeFinding_key (kevIds : List String) (f : Finding) (item : DependencyFinding) :
    (writeFinding kevIds f item).key = item.key := rfl

/-- What the loop leaves: the loaded findings of other packages as they were, those of this
one with their suppression, and a new object for each reported identifier without a row. -/
structure StagedFrom (depId : ℕ) (fs : List Finding) (s s' : Staged) : Prop where
  suppression : ∀ k, (s'.findings.find k).map DependencyFinding.toSuppression =
    (s.findings.find k).map DependencyFinding.toSuppression
  other : ∀ i x, i ≠ depId → s'.findings.find (i, x) = s.findings.find (i, x)
  added : s'.added.map DependencyFinding.key = s.added.map DependencyFinding.key ++
    (fs.filter fun f => (s.findings.find (depId, f.cveId)).isNone).map fun f => (depId, f.cveId)

theorem stageFinding_from (kevIds : List String) (depId : ℕ) (s : Staged) (f : Finding) :
    StagedFrom depId [f] s (stageFinding kevIds depId s f) := by
  unfold stageFinding
  cases h : s.findings.find (depId, f.cveId) with
  | none => exact ⟨fun _ => rfl, fun _ _ _ => rfl, by
      simp [h, DependencyFinding.key, writeFinding]⟩
  | some item =>
    have hkey : item.key = (depId, f.cveId) := Table.find_some_key h
    have hput : (s.findings.put (writeFinding kevIds f item)).find (depId, f.cveId) =
        some (writeFinding kevIds f item) := by
      have hself := Table.find_put_self (t := s.findings) (r := writeFinding kevIds f item)
        (by simp [hkey, h])
      simpa [hkey] using hself
    refine ⟨fun k => ?_, fun i x hi => ?_, by simp [h]⟩
    · by_cases hk : k = (depId, f.cveId)
      · rw [hk, hput, h]
        rfl
      · rw [Table.find_put_of_ne (by simpa [hkey] using hk)]
    · exact Table.find_put_of_ne (by simp [hkey, hi])

theorem StagedFrom.isNone {depId : ℕ} {fs : List Finding} {s s' : Staged}
    (h : StagedFrom depId fs s s') (k : ℕ × String) :
    (s'.findings.find k).isNone = (s.findings.find k).isNone := by
  have hk := congrArg Option.isNone (h.suppression k)
  simpa using hk

theorem stageFindings_from (kevIds : List String) (depId : ℕ) (fs : List Finding) (s : Staged) :
    StagedFrom depId fs s (fs.foldl (stageFinding kevIds depId) s) := by
  induction fs generalizing s with
  | nil => exact ⟨fun _ => rfl, fun _ _ _ => rfl, by simp⟩
  | cons f fs ih =>
    have hstep := stageFinding_from kevIds depId s f
    have hrest := ih (stageFinding kevIds depId s f)
    refine ⟨fun k => (hrest.suppression k).trans (hstep.suppression k),
      fun i x hi => (hrest.other i x hi).trans (hstep.other i x hi), ?_⟩
    rw [List.foldl_cons, hrest.added, hstep.added, List.append_assoc]
    simp only [hstep.isNone]
    rw [← List.map_append, ← List.filter_append, List.singleton_append]

theorem nodup_filter_iff {α : Type*} [DecidableEq α] {l : List α} {p : α → Bool} :
    (l.filter p).Nodup ↔ ∀ x, List.Duplicate x l → p x = false := by
  simp only [List.nodup_iff_count_le_one, List.duplicate_iff_two_le_count]
  constructor
  · intro h x hx
    by_contra hp
    have hcount := h x
    rw [List.count_filter (by simpa using hp)] at hcount
    omega
  · intro h x
    cases hp : p x with
    | true =>
      rw [List.count_filter hp]
      by_contra hlt
      rw [h x (by omega)] at hp
      cases hp
    | false =>
      have hnot : x ∉ l.filter p := by simp [hp]
      rw [List.count_eq_zero_of_not_mem hnot]
      omega

/-- The flush of the new findings fails exactly when a repeated identifier has no row. -/
theorem insertAll_staged_eq_none (kevIds : List String) (depId : ℕ) (fs : List Finding)
    (t : Table DependencyFinding.key) (s : Staged)
    (hs : s = fs.foldl (stageFinding kevIds depId) ⟨t, []⟩) :
    s.findings.insertAll s.added = none ↔
      ¬ ∀ x, List.Duplicate x (fs.map Finding.cveId) → (t.find (depId, x)).isSome := by
  have hfrom : StagedFrom depId fs ⟨t, []⟩ s := hs ▸ stageFindings_from kevIds depId fs ⟨t, []⟩
  have hkeys : s.added.map DependencyFinding.key =
      ((fs.map Finding.cveId).filter fun x => (t.find (depId, x)).isNone).map (depId, ·) := by
    rw [hfrom.added, List.filter_map, List.map_map]
    rfl
  have hnew : ∀ r ∈ s.added, s.findings.find r.key = none := by
    intro r hr
    have hmem : r.key ∈ s.added.map DependencyFinding.key := List.mem_map.mpr ⟨r, hr, rfl⟩
    rw [hkeys] at hmem
    obtain ⟨x, hx, hkey⟩ := List.mem_map.mp hmem
    have hnone := (List.mem_filter.mp hx).2
    rw [← hkey, ← Option.isNone_iff_eq_none, hfrom.isNone]
    exact hnone
  have hinj : Function.Injective (fun x : String => (depId, x)) := fun _ _ h => congrArg Prod.snd h
  rw [Table.insertAll_eq_none, hkeys, List.nodup_map_iff hinj, nodup_filter_iff]
  simp only [Option.isNone_eq_false_iff]
  exact not_congr (and_iff_left hnew)

/-- The findings after the flush and the deletion of those that are not reported. -/
theorem flushed_findings (kevIds : List String) (depId : ℕ) (fs : List Finding)
    (t : Table DependencyFinding.key) (s : Staged)
    (hs : s = fs.foldl (stageFinding kevIds depId) ⟨t, []⟩)
    {stored t' : Table DependencyFinding.key}
    (hstored : s.findings.insertAll s.added = some stored)
    (ht' : t' = stored.delete fun f =>
      f.dependencyId = depId && f.cveId ∉ fs.map Finding.cveId) :
    (∀ x, (t'.find (depId, x)).isSome ↔ x ∈ fs.map Finding.cveId) ∧
    (∀ x f f', t.find (depId, x) = some f → t'.find (depId, x) = some f' →
      f'.toSuppression = f.toSuppression) ∧
    ∀ i x, i ≠ depId → t'.find (i, x) = t.find (i, x) := by
  have hfrom : StagedFrom depId fs ⟨t, []⟩ s := hs ▸ stageFindings_from kevIds depId fs ⟨t, []⟩
  have hkeys : s.added.map DependencyFinding.key =
      (fs.filter fun f => (t.find (depId, f.cveId)).isNone).map fun f => (depId, f.cveId) :=
    hfrom.added
  have hfind : ∀ i x, t'.find (i, x) =
      if i = depId ∧ x ∉ fs.map Finding.cveId then none
      else (s.findings.find (i, x)).or (s.added.find? fun r => r.key = (i, x)) := by
    intro i x
    rw [ht', Table.find_delete, ← Table.find_insertAll hstored]
    cases hrow : stored.find (i, x) with
    | none => simp
    | some f =>
      have hkey : f.key = (i, x) := Table.find_some_key hrow
      obtain ⟨rfl, rfl⟩ : f.dependencyId = i ∧ f.cveId = x := by
        simpa [DependencyFinding.key] using hkey
      by_cases hgone : f.dependencyId = depId ∧ f.cveId ∉ fs.map Finding.cveId
      · rw [if_pos hgone]
        exact Option.filter_some_neg (by rw [← Bool.decide_and, decide_eq_true hgone]; rfl)
      · rw [if_neg hgone]
        exact Option.filter_some_pos (by rw [← Bool.decide_and, decide_eq_false hgone]; rfl)
  refine ⟨fun x => ?_, fun x f f' hf hf' => ?_, fun i x hi => ?_⟩
  · rw [hfind]
    by_cases hx : x ∈ fs.map Finding.cveId
    · simp only [hx, not_true_eq_false, and_false, if_false, iff_true]
      cases hold : s.findings.find (depId, x) with
      | some item => rfl
      | none =>
        have hnone : (t.find (depId, x)).isNone := by
          rw [← hfrom.isNone, hold]
          rfl
        obtain ⟨f, hf, rfl⟩ := List.mem_map.mp hx
        have hmem : (depId, f.cveId) ∈ s.added.map DependencyFinding.key := by
          rw [hkeys]
          exact List.mem_map.mpr ⟨f, List.mem_filter.mpr ⟨hf, hnone⟩, rfl⟩
        obtain ⟨r, hr, hkey⟩ := List.mem_map.mp hmem
        rw [Option.none_or, List.find?_isSome]
        exact ⟨r, hr, by simpa using hkey⟩
    · simp [hx]
  · have hx : ¬ (depId = depId ∧ x ∉ fs.map Finding.cveId) := by
      intro hgone
      rw [hfind, if_pos hgone] at hf'
      cases hf'
    rw [hfind, if_neg hx] at hf'
    have hsup := hfrom.suppression (depId, x)
    simp only [hf, Option.map_some] at hsup
    obtain ⟨item, hitem, hsame⟩ := Option.map_eq_some_iff.mp hsup
    rw [hitem, Option.some_or] at hf'
    cases hf'
    exact hsame
  · have hnone : (s.added.find? fun r => r.key = (i, x)) = none := by
      rw [List.find?_eq_none]
      intro r hr hkey
      have hmem : r.key ∈ s.added.map DependencyFinding.key := List.mem_map.mpr ⟨r, hr, rfl⟩
      rw [hkeys] at hmem
      obtain ⟨f, -, hf⟩ := List.mem_map.mp hmem
      rw [← hf] at hkey
      exact hi (congrArg Prod.fst (by simpa using hkey : (depId, f.cveId) = (i, x))).symm
    rw [hfind, if_neg fun h => hi h.1, hnone, Option.or_none]
    exact hfrom.other i x hi

/-! ## One package -/

/-- What a processed package has: one row, with the reported findings and their count. -/
def Processed (scan : Scan V) (before : Table DependencyFinding.key) (s : ScanState)
    (dep : DepRecord) : Prop :=
  ∃ p ∈ s.dependencies.rows, matchesDep dep p ∧ AtMostOne s.dependencies dep ∧
    p.cveCount = (scan.reported dep).length ∧
    (∀ x, (s.findings.find (p.id, x)).isSome ↔ x ∈ scan.reportedIds dep) ∧
    ∀ x f f', before.find (p.id, x) = some f → s.findings.find (p.id, x) = some f' →
      f'.toSuppression = f.toSuppression

/-- The rows of other packages stay, and so do all findings but those of the package. -/
structure Untouched (dep : DepRecord) (s s' : ScanState) : Prop where
  rows : ∀ q, ¬ matchesDep dep q → (q ∈ s'.dependencies.rows ↔ q ∈ s.dependencies.rows)
  findings : ∃ r ∈ s'.dependencies.rows, matchesDep dep r ∧
    ∀ i x, i ≠ r.id → s'.findings.find (i, x) = s.findings.find (i, x)

theorem lt_freshId {s : ScanState} {i : ℕ}
    (hi : i ∈ s.dependencies.rows.map (·.id) ++ s.findings.rows.map (·.dependencyId)) :
    i < s.freshId := Nat.lt_succ_of_le (le_foldl_max (.inr hi))

theorem find_freshId (s : ScanState) (x : String) : s.findings.find (s.freshId, x) = none := by
  rw [Table.find_eq_none]
  intro f hf hkey
  have hid : f.dependencyId = s.freshId := congrArg Prod.fst hkey
  have hlt : f.dependencyId < s.freshId :=
    lt_freshId (List.mem_append_right _ (List.mem_map.mpr ⟨f, hf, rfl⟩))
  omega

theorem matchesDep_currentRow {s : ScanState} {dep : DepRecord} {found : Option PlatformDependency}
    (h : ∀ p ∈ found, matchesDep dep p) : matchesDep dep (currentRow s dep found) := by
  cases found with
  | none => simp [matchesDep, currentRow]
  | some p => exact h p rfl

/-- What the lookup of a package finds. -/
theorem lookup_cases (s : ScanState) (dep : DepRecord) :
    (∃ found, scalarOneOrNone DbError.multipleResultsFound
        (s.dependencies.rows.filter (matchesDep dep)) = .ok found ∧
      AtMostOne s.dependencies dep ∧
      ∀ p, found = some p ↔ p ∈ s.dependencies.rows ∧ matchesDep dep p) ∨
    (scalarOneOrNone DbError.multipleResultsFound
        (s.dependencies.rows.filter (matchesDep dep)) = .error .multipleResultsFound ∧
      ¬ AtMostOne s.dependencies dep) := by
  cases h : scalarOneOrNone DbError.multipleResultsFound
      (s.dependencies.rows.filter (matchesDep dep)) with
  | error e =>
    obtain ⟨rfl, hlen⟩ := scalarOneOrNone_error h
    refine .inr ⟨rfl, fun hone => ?_⟩
    have := Table.filter_length_le_one (t := s.dependencies) (p := matchesDep dep) hone
    omega
  | ok found =>
    refine .inl ⟨found, rfl, ?_⟩
    cases found with
    | none =>
      have hnil := scalarOneOrNone_none h
      have hno : ∀ p ∈ s.dependencies.rows, ¬ matchesDep dep p := by simpa using hnil
      refine ⟨fun p hp q _ hm _ => absurd hm (hno p hp), fun p => ?_⟩
      simpa using hno p
    | some p =>
      have hrows := scalarOneOrNone_some h
      have hmem : ∀ q, q ∈ s.dependencies.rows ∧ matchesDep dep q ↔ q = p := by
        intro q
        rw [← List.mem_filter, hrows, List.mem_singleton]
      refine ⟨fun q hq q' hq' hm hm' => ?_, fun q => ?_⟩
      · rw [(hmem q).mp ⟨hq, hm⟩, (hmem q').mp ⟨hq', hm'⟩]
      · rw [hmem, Option.some.injEq, eq_comm]

theorem repeatsStored_iff {scan : Scan V} {s : ScanState} {dep : DepRecord}
    {found : Option PlatformDependency}
    (hfound : ∀ p, found = some p ↔ p ∈ s.dependencies.rows ∧ matchesDep dep p) :
    RepeatsStored scan s dep ↔ ∀ x, List.Duplicate x (scan.reportedIds dep) →
      (s.findings.find ((currentRow s dep found).id, x)).isSome := by
  refine forall₂_congr fun x _ => ?_
  cases found with
  | none =>
    have hno : ∀ p ∈ s.dependencies.rows, ¬ matchesDep dep p := by
      intro p hp hm
      have hp' := (hfound p).mpr ⟨hp, hm⟩
      cases hp'
    simp only [currentRow, find_freshId, Option.isSome_none, Bool.false_eq_true, iff_false]
    rintro ⟨p, hp, hm, -⟩
    exact hno p hp hm
  | some p =>
    constructor
    · rintro ⟨q, hq, hm, hx⟩
      have hqp := (hfound q).mpr ⟨hq, hm⟩
      cases hqp
      exact hx
    · intro hx
      obtain ⟨hp, hm⟩ := (hfound p).mp rfl
      exact ⟨p, hp, hm, hx⟩

/-- The row that is written is the one of the package. -/
theorem id_ne_currentRow {s : ScanState} {dep : DepRecord} {found : Option PlatformDependency}
    (hfound : ∀ p, found = some p ↔ p ∈ s.dependencies.rows ∧ matchesDep dep p)
    {q : PlatformDependency} (hq : q ∈ s.dependencies.rows) :
    q.id ≠ (currentRow s dep found).id ↔ ¬ matchesDep dep q := by
  cases found with
  | none =>
    have hlt : q.id < s.freshId :=
      lt_freshId (List.mem_append_left _ (List.mem_map.mpr ⟨q, hq, rfl⟩))
    have hno : ¬ matchesDep dep q := by
      intro hm
      have hq' := (hfound q).mpr ⟨hq, hm⟩
      cases hq'
    exact ⟨fun _ => hno, fun _ => Nat.ne_of_lt hlt⟩
  | some p =>
    obtain ⟨hp, hm⟩ := (hfound p).mp rfl
    refine not_congr ⟨fun hid => ?_, fun hmq => ?_⟩
    · rw [Table.eq_of_key hq hp hid]
      exact hm
    · have hqp := (hfound q).mpr ⟨hq, hmq⟩
      cases hqp
      rfl

theorem syncDependency_error {scan : Scan V} {kevIds : List String} {now : Time} {s : ScanState}
    {dep : DepRecord} {e : DbError} (h : syncDependency scan kevIds now s dep = .error e) :
    (e = .multipleResultsFound ∧ ¬ AtMostOne s.dependencies dep) ∨
      (e = .uniqueViolation ∧ AtMostOne s.dependencies dep ∧ ¬ RepeatsStored scan s dep) := by
  unfold syncDependency at h
  rcases lookup_cases s dep with ⟨found, hlookup, hone, hfound⟩ | ⟨hlookup, hmany⟩
  · rw [hlookup] at h
    dsimp only at h
    split at h
    · rename_i hnone
      cases h
      have hrepeat := (insertAll_staged_eq_none kevIds (currentRow s dep found).id
        (scan.reported dep) s.findings _ rfl).mp hnone
      exact .inr ⟨rfl, hone, fun hstored => hrepeat ((repeatsStored_iff hfound).mp hstored)⟩
    · cases h
  · rw [hlookup] at h
    cases h
    exact .inl ⟨rfl, hmany⟩

theorem syncDependency_ok {scan : Scan V} {kevIds : List String} {now : Time} {s s' : ScanState}
    {dep : DepRecord} (h : syncDependency scan kevIds now s dep = .ok s') :
    AtMostOne s.dependencies dep ∧ RepeatsStored scan s dep ∧
      Processed scan s.findings s' dep ∧ Untouched dep s s' := by
  unfold syncDependency at h
  rcases lookup_cases s dep with ⟨found, hlookup, hone, hfound⟩ | ⟨hlookup, -⟩
  · rw [hlookup] at h
    dsimp only at h
    split at h
    · cases h
    · rename_i stored hstored
      simp only [Except.ok.injEq] at h
      have hrow : matchesDep dep (currentRow s dep found) :=
        matchesDep_currentRow fun p hp => ((hfound p).mp hp).2
      obtain ⟨hids, hsup, hrest⟩ := flushed_findings kevIds (currentRow s dep found).id
        (scan.reported dep) s.findings _ rfl hstored rfl
      have hrepeat : RepeatsStored scan s dep := by
        rw [repeatsStored_iff hfound]
        by_contra hnot
        have hnone := (insertAll_staged_eq_none kevIds (currentRow s dep found).id
          (scan.reported dep) s.findings _ rfl).mpr hnot
        rw [hstored] at hnone
        cases hnone
      subst h
      refine ⟨hone, hrepeat,
        ⟨_, Table.mem_upsert.mpr (.inl rfl), hrow, ?_, rfl, hids, hsup⟩, ?_, ?_⟩
      · intro a ha b hb hma hmb
        rcases Table.mem_upsert.mp ha with rfl | ⟨ha, hna⟩ <;>
          rcases Table.mem_upsert.mp hb with rfl | ⟨hb, hnb⟩
        · rfl
        · exact absurd hmb ((id_ne_currentRow hfound hb).mp hnb)
        · exact absurd hma ((id_ne_currentRow hfound ha).mp hna)
        · exact absurd hma ((id_ne_currentRow hfound ha).mp hna)
      · intro q hq
        refine Table.mem_upsert.trans
          ⟨?_, fun hold => .inr ⟨hold, (id_ne_currentRow hfound hold).mpr hq⟩⟩
        rintro (rfl | ⟨hold, -⟩)
        · exact absurd hrow hq
        · exact hold
      · exact ⟨_, Table.mem_upsert.mpr (.inl rfl), hrow, hrest⟩
  · rw [hlookup] at h
    cases h

/-! ## The loop over the packages -/

/-- What holds after the packages of `done`: the rows of all others are the first ones, the
findings changed only under the rows of `done`, and each of these is processed. -/
structure LoopInv (scan : Scan V) (s₀ : ScanState) (done : List DepRecord) (s : ScanState) :
    Prop where
  rows : ∀ q, (∀ d ∈ done, ¬ matchesDep d q) →
    (q ∈ s.dependencies.rows ↔ q ∈ s₀.dependencies.rows)
  findings : ∀ i x, (∀ r ∈ s.dependencies.rows, r.id = i → ∀ d ∈ done, ¬ matchesDep d r) →
    s.findings.find (i, x) = s₀.findings.find (i, x)
  processed : ∀ d ∈ done, Processed scan s₀.findings s d

theorem loopInv_nil (scan : Scan V) (s : ScanState) : LoopInv scan s [] s :=
  ⟨fun _ _ => Iff.rfl, fun _ _ _ => rfl, fun _ h => (List.not_mem_nil h).elim⟩

theorem name_eq_of_matchesDep {d d' : DepRecord} {q : PlatformDependency}
    (h : matchesDep d q) (h' : matchesDep d' q) : d.name = d'.name := by
  simp only [matchesDep, Bool.and_eq_true, decide_eq_true_eq] at h h'
  exact h.1.symm.trans h'.1

section Loop
variable {scan : Scan V} {s₀ s : ScanState} {done : List DepRecord} {dep : DepRecord}

/-- A row of a package that is still to come is not one of `done`. -/
theorem not_done (hname : dep.name ∉ done.map (·.name)) {q : PlatformDependency}
    (hq : matchesDep dep q) : ∀ d ∈ done, ¬ matchesDep d q := by
  intro d hd hm
  exact hname (List.mem_map.mpr ⟨d, hd, name_eq_of_matchesDep hm hq⟩)

theorem LoopInv.rows_of (h : LoopInv scan s₀ done s) (hname : dep.name ∉ done.map (·.name))
    {q : PlatformDependency} (hq : matchesDep dep q) :
    q ∈ s.dependencies.rows ↔ q ∈ s₀.dependencies.rows := h.rows q (not_done hname hq)

/-- The findings of a package that is still to come are the first ones. -/
theorem LoopInv.findings_of (h : LoopInv scan s₀ done s) (hname : dep.name ∉ done.map (·.name))
    {q : PlatformDependency} (hmem : q ∈ s.dependencies.rows) (hq : matchesDep dep q)
    (x : String) : s.findings.find (q.id, x) = s₀.findings.find (q.id, x) := by
  refine h.findings q.id x fun r hr hid d hd => ?_
  rw [Table.eq_of_key hr hmem hid]
  exact not_done hname hq d hd

theorem LoopInv.atMostOne_iff (h : LoopInv scan s₀ done s) (hname : dep.name ∉ done.map (·.name)) :
    AtMostOne s.dependencies dep ↔ AtMostOne s₀.dependencies dep := by
  constructor
  · intro hone p hp q hq hmp hmq
    exact hone p ((h.rows_of hname hmp).mpr hp) q ((h.rows_of hname hmq).mpr hq) hmp hmq
  · intro hone p hp q hq hmp hmq
    exact hone p ((h.rows_of hname hmp).mp hp) q ((h.rows_of hname hmq).mp hq) hmp hmq

theorem LoopInv.repeatsStored_iff (h : LoopInv scan s₀ done s)
    (hname : dep.name ∉ done.map (·.name)) :
    RepeatsStored scan s dep ↔ RepeatsStored scan s₀ dep := by
  refine forall₂_congr fun x _ => ⟨?_, ?_⟩
  · rintro ⟨p, hp, hm, hx⟩
    exact ⟨p, (h.rows_of hname hm).mp hp, hm, by rwa [← h.findings_of hname hp hm]⟩
  · rintro ⟨p, hp, hm, hx⟩
    have hp' := (h.rows_of hname hm).mpr hp
    exact ⟨p, hp', hm, by rwa [h.findings_of hname hp' hm]⟩

/-- Processing one more package. -/
theorem LoopInv.step (h : LoopInv scan s₀ done s) (hname : dep.name ∉ done.map (·.name))
    {kevIds : List String} {now : Time} {s' : ScanState}
    (hs : syncDependency scan kevIds now s dep = .ok s') : LoopInv scan s₀ (dep :: done) s' := by
  obtain ⟨-, -, ⟨p, hp, hm, hone, hcount, hids, hsup⟩, hrows, r, hr, hmr, hrest⟩ :=
    syncDependency_ok hs
  have hdone : ∀ d ∈ done, ∀ q : PlatformDependency, matchesDep d q → ¬ matchesDep dep q :=
    fun d hd q hq hdep => not_done hname hdep d hd hq
  refine ⟨fun q hq => ?_, fun i x hi => ?_, fun d hd => ?_⟩
  · rw [hrows q (hq dep List.mem_cons_self)]
    exact h.rows q fun d hd => hq d (List.mem_cons_of_mem _ hd)
  · have hir : i ≠ r.id := by
      rintro rfl
      exact hi r hr rfl dep List.mem_cons_self hmr
    rw [hrest i x hir]
    refine h.findings i x fun q hq hqi d hd hdq => ?_
    have hq' := (hrows q (hdone d hd q hdq)).mpr hq
    exact hi q hq' hqi d (List.mem_cons_of_mem _ hd) hdq
  · rcases List.mem_cons.mp hd with rfl | hd
    · refine ⟨p, hp, hm, hone, hcount, hids, fun x f f' hf hf' => hsup x f f' ?_ hf'⟩
      rw [← hf]
      refine h.findings p.id x fun q hq hqp d' hd' hdq => ?_
      have hq' := (hrows q (hdone d' hd' q hdq)).mpr hq
      rw [Table.eq_of_key hq' hp hqp] at hdq
      exact hdone d' hd' p hdq hm
    · obtain ⟨q, hq, hmq, honeq, hcountq, hidsq, hsupq⟩ := h.processed d hd
      have hq' := (hrows q (hdone d hd q hmq)).mpr hq
      have hqr : q.id ≠ r.id := by
        intro hid
        rw [Table.eq_of_key hq' hr hid] at hmq
        exact hdone d hd r hmq hmr
      refine ⟨q, hq', hmq, fun a ha b hb hma hmb => ?_, hcountq, fun x => ?_,
        fun x f f' hf hf' => ?_⟩
      · exact honeq a ((hrows a (hdone d hd a hma)).mp ha) b ((hrows b (hdone d hd b hmb)).mp hb)
          hma hmb
      · rw [hrest q.id x hqr]
        exact hidsq x
      · rw [hrest q.id x hqr] at hf'
        exact hsupq x f f' hf hf'

end Loop

/-- The loop goes through only when every package has at most one row and repeats only stored
identifiers; every package is then processed. -/
theorem syncAll_ok {scan : Scan V} {kevIds : List String} {now : Time} {s₀ : ScanState}
    {deps : List DepRecord} {done : List DepRecord} {s s' : ScanState}
    (h : LoopInv scan s₀ done s) (hnodup : ((deps.reverse ++ done).map (·.name)).Nodup)
    (hs : syncAll scan kevIds now s deps = .ok s') :
    LoopInv scan s₀ (deps.reverse ++ done) s' ∧
      ∀ d ∈ deps, AtMostOne s₀.dependencies d ∧ RepeatsStored scan s₀ d := by
  induction deps generalizing done s with
  | nil =>
    cases hs
    exact ⟨h, fun _ hd => (List.not_mem_nil hd).elim⟩
  | cons dep deps ih =>
    have hshift : (dep :: deps).reverse ++ done = deps.reverse ++ dep :: done := by simp
    rw [hshift] at hnodup ⊢
    have hname : dep.name ∉ done.map (·.name) := by
      rw [List.map_append, List.map_cons] at hnodup
      exact (List.nodup_cons.mp (List.nodup_append.mp hnodup).2.1).1
    simp only [syncAll] at hs
    cases hstep : syncDependency scan kevIds now s dep with
    | error e => simp [hstep] at hs
    | ok s₁ =>
      simp only [hstep] at hs
      obtain ⟨hinv, hrest⟩ := ih (h.step hname hstep) hnodup hs
      obtain ⟨hone, hrepeat, -, -⟩ := syncDependency_ok hstep
      refine ⟨hinv, fun d hd => ?_⟩
      rcases List.mem_cons.mp hd with rfl | hd
      · exact ⟨(h.atMostOne_iff hname).mp hone, (h.repeatsStored_iff hname).mp hrepeat⟩
      · exact hrest d hd

/-- The package at which the loop stops, and why. -/
theorem syncAll_error {scan : Scan V} {kevIds : List String} {now : Time} {s₀ : ScanState}
    {deps : List DepRecord} {done : List DepRecord} {s : ScanState} {e : DbError}
    (h : LoopInv scan s₀ done s) (hnodup : ((deps.reverse ++ done).map (·.name)).Nodup)
    (hs : syncAll scan kevIds now s deps = .error e) :
    ∃ before dep after, deps = before ++ dep :: after ∧
      (∀ d ∈ before, AtMostOne s₀.dependencies d ∧ RepeatsStored scan s₀ d) ∧
      ((e = .multipleResultsFound ∧ ¬ AtMostOne s₀.dependencies dep) ∨
        (e = .uniqueViolation ∧ AtMostOne s₀.dependencies dep ∧ ¬ RepeatsStored scan s₀ dep)) := by
  induction deps generalizing done s with
  | nil => cases hs
  | cons dep deps ih =>
    have hshift : (dep :: deps).reverse ++ done = deps.reverse ++ dep :: done := by simp
    rw [hshift] at hnodup
    have hname : dep.name ∉ done.map (·.name) := by
      rw [List.map_append, List.map_cons] at hnodup
      exact (List.nodup_cons.mp (List.nodup_append.mp hnodup).2.1).1
    simp only [syncAll] at hs
    cases hstep : syncDependency scan kevIds now s dep with
    | error e' =>
      simp only [hstep, Except.error.injEq] at hs
      subst hs
      refine ⟨[], dep, deps, rfl, fun _ hd => (List.not_mem_nil hd).elim, ?_⟩
      have hwhy := syncDependency_error hstep
      rwa [h.atMostOne_iff hname, h.repeatsStored_iff hname] at hwhy
    | ok s₁ =>
      simp only [hstep] at hs
      obtain ⟨before, d, after, hdeps, hbefore, hwhy⟩ := ih (h.step hname hstep) hnodup hs
      obtain ⟨hone, hrepeat, -, -⟩ := syncDependency_ok hstep
      refine ⟨dep :: before, d, after, by rw [hdeps]; rfl, fun d' hd' => ?_, hwhy⟩
      rcases List.mem_cons.mp hd' with rfl | hd'
      · exact ⟨(h.atMostOne_iff hname).mp hone, (h.repeatsStored_iff hname).mp hrepeat⟩
      · exact hbefore d' hd'

/-! ## The whole scan -/

/-- The packages before the first one with several stored rows, at which the scan stops. -/
def reached (inventory : Inventory) (db : ScanDatabase) : List DepRecord :=
  inventory.deps.takeWhile fun dep =>
    (db.dependencies.rows.filter (matchesDep dep)).length ≤ 1

/-- OSV repeats no identifier for a package; before a package at which the scan stops, a
repeated identifier does no harm if it is the one of a stored finding. -/
structure Repeatless (scan : Scan V) (db : ScanDatabase) : Prop where
  completed : reached scan.inventory db = scan.inventory.deps →
    ∀ dep ∈ scan.inventory.deps, (scan.reportedIds dep).Nodup
  stopped : ∀ dep ∈ reached scan.inventory db, RepeatsStored scan (.start db) dep

/-- As many findings are stored as there are distinct identifiers. -/
theorem count_findings {t : Table DependencyFinding.key} {i : ℕ} {ids : List String}
    (h : ∀ x, (t.find (i, x)).isSome ↔ x ∈ ids) :
    (t.rows.filter fun f => f.dependencyId = i).length = ids.dedup.length := by
  have hkeys :
      ((t.rows.filter fun f => f.dependencyId = i).map DependencyFinding.cveId).map
          (fun x => (i, x)) =
        (t.rows.filter fun f => f.dependencyId = i).map DependencyFinding.key := by
    rw [List.map_map]
    refine List.map_congr_left fun f hf => ?_
    have hid : f.dependencyId = i := by simpa using (List.mem_filter.mp hf).2
    simp [DependencyFinding.key, hid]
  have hnodup :
      ((t.rows.filter fun f => f.dependencyId = i).map DependencyFinding.cveId).Nodup := by
    refine List.Nodup.of_map (fun x => (i, x)) ?_
    rw [hkeys]
    exact (List.filter_sublist.map _).nodup t.nodup
  have hmem : ∀ x, x ∈ (t.rows.filter fun f => f.dependencyId = i).map DependencyFinding.cveId ↔
      x ∈ ids.dedup := by
    intro x
    rw [List.mem_dedup, ← h, Option.isSome_iff_exists]
    simp only [List.mem_map, List.mem_filter, Table.find_eq_some, decide_eq_true_eq]
    constructor
    · rintro ⟨f, ⟨hf, rfl⟩, rfl⟩
      exact ⟨f, hf, rfl⟩
    · rintro ⟨f, hf, hkey⟩
      exact ⟨f, ⟨hf, congrArg Prod.fst hkey⟩, congrArg Prod.snd hkey⟩
  have hperm := (List.perm_ext_iff_of_nodup hnodup ids.nodup_dedup).mpr hmem
  simpa using hperm.length_eq

theorem length_eq_dedup_iff (ids : List String) : ids.length = ids.dedup.length ↔ ids.Nodup := by
  rw [← List.dedup_eq_self]
  constructor
  · intro h
    exact (List.dedup_sublist ids).eq_of_length h.symm
  · intro h
    rw [h]

theorem not_uninstalled {inventory : Inventory} {dep : DepRecord} (hdep : dep ∈ inventory.deps)
    {p : PlatformDependency} (hp : matchesDep dep p) : uninstalled inventory p = false := by
  simp only [matchesDep, Bool.and_eq_true, decide_eq_true_eq] at hp
  have hmem : p.name ∈ inventory.deps.map (·.name) := by
    rw [hp.1]
    exact List.mem_map.mpr ⟨dep, hdep, rfl⟩
  simp [uninstalled, hmem]

/-- What a completed scan leaves for an installed package. -/
theorem persistScan_ok {now : Time} {scan : Scan V} {db db' : ScanDatabase}
    (h : persistScan now scan db = .ok db') :
    (∀ dep ∈ scan.inventory.deps,
      AtMostOne db.dependencies dep ∧ RepeatsStored scan (.start db) dep) ∧
    ∀ dep ∈ scan.inventory.deps, ∃ p ∈ db'.dependencies.rows, matchesDep dep p ∧
      AtMostOne db'.dependencies dep ∧ p.cveCount = (scan.reported dep).length ∧
      (∀ x, (db'.findings.find (p.id, x)).isSome ↔ x ∈ scan.reportedIds dep) ∧
      ∀ x f f', db.findings.find (p.id, x) = some f → db'.findings.find (p.id, x) = some f' →
        f'.toSuppression = f.toSuppression := by
  unfold persistScan at h
  split at h
  · cases h
  · rename_i s hs
    obtain ⟨hinv, hpassed⟩ := syncAll_ok (loopInv_nil scan (.start db))
      (by simpa using List.nodup_reverse.mpr scan.inventory.nodup) hs
    refine ⟨hpassed, fun dep hdep => ?_⟩
    obtain ⟨p, hp, hm, hone, hcount, hids, hsup⟩ := hinv.processed dep (by simpa using hdep)
    have hkept := not_uninstalled hdep hm
    have hsame : ∀ x, db'.findings.find (p.id, x) = s.findings.find (p.id, x) := by
      intro x
      cases h
      rw [Table.find_delete]
      cases hrow : s.findings.find (p.id, x) with
      | none => rfl
      | some f =>
        have hkey : f.key = (p.id, x) := Table.find_some_key hrow
        have hid : f.dependencyId = p.id := congrArg Prod.fst hkey
        apply Option.filter_some_pos
        rw [hid, Bool.not_eq_true', List.any_eq_false]
        intro q hq hgone
        obtain ⟨hun, hqp⟩ : uninstalled scan.inventory q ∧ q.id = p.id := by simpa using hgone
        rw [Table.eq_of_key hq hp hqp, hkept] at hun
        cases hun
    have hdeps : db'.dependencies = s.dependencies.delete (uninstalled scan.inventory) := by
      cases h
      rfl
    refine ⟨p, by rw [hdeps]; exact Table.mem_delete.mpr ⟨hp, hkept⟩, hm, ?_, hcount,
      fun x => by rw [hsame]; exact hids x, fun x f f' hf hf' => hsup x f f' hf ?_⟩
    · intro a ha b hb
      rw [hdeps] at ha hb
      exact hone a (Table.mem_delete.mp ha).1 b (Table.mem_delete.mp hb).1
    · rw [← hsame]
      exact hf'

/-- Why a scan fails. -/
theorem persistScan_error {now : Time} {scan : Scan V} {db : ScanDatabase} {e : DbError}
    (h : persistScan now scan db = .error e) :
    ∃ before dep after, scan.inventory.deps = before ++ dep :: after ∧
      (∀ d ∈ before, AtMostOne db.dependencies d ∧ RepeatsStored scan (.start db) d) ∧
      ((e = .multipleResultsFound ∧ ¬ AtMostOne db.dependencies dep) ∨
        (e = .uniqueViolation ∧ AtMostOne db.dependencies dep ∧
          ¬ RepeatsStored scan (.start db) dep)) := by
  unfold persistScan at h
  split at h
  · rename_i e' hs
    cases h
    exact syncAll_error (loopInv_nil scan (.start db))
      (by simpa using List.nodup_reverse.mpr scan.inventory.nodup) hs
  · cases h

/-- The packages that the scan reaches, when those of `before` have at most one row. -/
theorem reached_append {inventory : Inventory} {db : ScanDatabase} {before after : List DepRecord}
    (hbefore : ∀ d ∈ before, AtMostOne db.dependencies d)
    (hdeps : inventory.deps = before ++ after) :
    reached inventory db = before ++ after.takeWhile fun dep =>
      (db.dependencies.rows.filter (matchesDep dep)).length ≤ 1 := by
  rw [reached, hdeps]
  refine List.takeWhile_append_of_pos fun d hd => ?_
  exact decide_eq_true (Table.filter_length_le_one (hbefore d hd))

/-- The count of a processed package is right exactly when no identifier is repeated. -/
theorem cveCount_iff {scan : Scan V} {dep : DepRecord} {t : Table DependencyFinding.key}
    {p : PlatformDependency} (hcount : p.cveCount = (scan.reported dep).length)
    (hids : ∀ x, (t.find (p.id, x)).isSome ↔ x ∈ scan.reportedIds dep) :
    p.cveCount = (t.rows.filter fun f => f.dependencyId = p.id).length ↔
      (scan.reportedIds dep).Nodup := by
  rw [count_findings hids, hcount, ← length_eq_dedup_iff]
  simp [Scan.reportedIds]

/-- A completed scan is exact when OSV repeats no identifier. -/
theorem exact_of_completed {now : Time} {scan : Scan V} {db db' : ScanDatabase}
    (h : persistScan now scan db = .ok db') :
    ScanExact now scan db ↔ ∀ dep ∈ scan.inventory.deps, (scan.reportedIds dep).Nodup := by
  obtain ⟨-, hleft⟩ := persistScan_ok h
  constructor
  · rintro ⟨-, hexact⟩ dep hdep
    obtain ⟨p, hp, hm, -, hcount, hids, -⟩ := hleft dep hdep
    exact (cveCount_iff hcount hids).mp ((hexact db' h dep hdep).2 p hp hm).cveCount
  · intro hnodup
    refine ⟨by simp [h], fun db'' h'' dep hdep => ?_⟩
    rw [h] at h''
    cases h''
    obtain ⟨p, hp, hm, hone, hcount, hids, hsup⟩ := hleft dep hdep
    refine ⟨⟨p, hp, hm⟩, fun q hq hmq => ?_⟩
    rw [hone q hq p hp hmq hm]
    exact ⟨hids, hsup, (cveCount_iff hcount hids).mpr (hnodup dep hdep)⟩

/-- The persistence phase of a scan never violates the constraint, and leaves for every
installed package exactly the reported findings when it commits, exactly when OSV repeats
no identifier that could do harm. -/
theorem scan_exact_iff (now : Time) (scan : Scan V) (db : ScanDatabase) :
    ScanExact now scan db ↔ Repeatless scan db := by
  cases h : persistScan now scan db with
  | ok db' =>
    obtain ⟨hpassed, -⟩ := persistScan_ok h
    have hreached : reached scan.inventory db = scan.inventory.deps := by
      have happ := reached_append (fun d hd => (hpassed d hd).1) (List.append_nil _).symm
      simpa using happ
    rw [exact_of_completed h]
    constructor
    · intro hnodup
      exact ⟨fun _ => hnodup, fun dep hdep => (hpassed dep (hreached ▸ hdep)).2⟩
    · intro hrepeat
      exact hrepeat.completed hreached
  | error e =>
    obtain ⟨before, dep, after, hdeps, hbefore, hwhy⟩ := persistScan_error h
    have hreached := reached_append (fun d hd => (hbefore d hd).1) hdeps
    rcases hwhy with ⟨rfl, hmany⟩ | ⟨rfl, hone, hrepeat⟩
    · have hstop : ¬ (db.dependencies.rows.filter (matchesDep dep)).length ≤ 1 :=
        fun hle => hmany (Table.filter_length_le_one_iff.mp hle)
      rw [List.takeWhile_cons_of_neg (by simpa using hstop), List.append_nil] at hreached
      refine iff_of_true ⟨by simp [h], by simp [h]⟩ ⟨fun hall => ?_, fun d hd => ?_⟩
      · rw [hreached, hdeps] at hall
        simp at hall
      · exact (hbefore d (hreached ▸ hd)).2
    · refine iff_of_false (fun hexact => hexact.1 h) fun hclean => hrepeat (hclean.stopped dep ?_)
      have hle := Table.filter_length_le_one (p := matchesDep dep) hone
      rw [hreached, List.takeWhile_cons_of_pos (by simpa using hle)]
      simp

/-- One installed package, for which OSV has two advisories of one CVE. -/
def aliased : Scan ℕ where
  inventory :=
    { component := "api"
      deps := [⟨"api", "pip", "jinja2", "3.1.2", none⟩]
      component_eq := by simp
      nodup := by simp }
  excluded := []
  versions := ⟨fun _ => none, fun _ => ""⟩
  vulns := fun _ =>
    [{ id := "GHSA-h5c8-rqwp-cp95", aliases := ["CVE-2024-22195"] },
      { id := "PYSEC-2024-1", aliases := ["CVE-2024-22195"] }]
  latest := fun _ => none

/-- A first scan of this package inserts its finding twice. -/
theorem aliased_unique_violation :
    ¬ ∀ (now : Time) (db : ScanDatabase), ScanExact now aliased db := by
  intro h
  have hfail :
      persistScan 0 aliased ⟨.empty, .empty, .empty, .empty⟩ = .error .uniqueViolation := by
    decide +kernel
  exact (h 0 ⟨.empty, .empty, .empty, .empty⟩).1 hfail

end Kepryx.DependencyScan
