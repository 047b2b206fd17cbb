import Kepryx.DependencyScan

/-!
# The fixed versions that a scan stores

A completed scan gives every finding of an installed package the fixed version of the last
reported advisory with its identifier, and the row of the package the installed version.
-/
namespace Kepryx.ScannedFixes
open Kepryx.Models Kepryx.Tables Kepryx.SelfSecurity Kepryx.DependencyScan

variable {V : Type} [LinearOrder V]

/-! ## The loop over the findings of a package -/

/-- The last finding with an identifier, whose values are the ones that stay. -/
def lastReported (fs : List Finding) (cveId : String) : Option Finding :=
  fs.reverse.find? fun f => f.cveId = cveId

theorem lastReported_append (fs : List Finding) (f : Finding) (cveId : String) :
    lastReported (fs ++ [f]) cveId = if f.cveId = cveId then some f else lastReported fs cveId := by
  unfold lastReported
  rw [List.reverse_append, List.reverse_singleton, List.singleton_append, List.find?_cons]
  split <;> simp_all

theorem lastReported_mem {fs : List Finding} {cveId : String} {f : Finding}
    (h : lastReported fs cveId = some f) : f ∈ fs ∧ f.cveId = cveId := by
  refine ⟨List.mem_reverse.mp (List.mem_of_find?_eq_some h), ?_⟩
  simpa using List.find?_some h

theorem lastReported_isSome {fs : List Finding} {cveId : String} :
    (lastReported fs cveId).isSome ↔ cveId ∈ fs.map Finding.cveId := by
  simp [lastReported, List.find?_isSome]

/-- An identifier that is reported once belongs to one finding. -/
theorem lastReported_eq {fs : List Finding} {f : Finding} (hf : f ∈ fs)
    (honce : ¬ List.Duplicate f.cveId (fs.map Finding.cveId)) :
    lastReported fs f.cveId = some f := by
  obtain ⟨g, hg⟩ := Option.isSome_iff_exists.mp
    (lastReported_isSome.mpr (List.mem_map.mpr ⟨f, hf, rfl⟩))
  obtain ⟨hmem, hid⟩ := lastReported_mem hg
  have hcount : (fs.filter fun x => x.cveId = f.cveId).length ≤ 1 := by
    rw [List.duplicate_iff_two_le_count] at honce
    have hmap : (fs.map Finding.cveId).count f.cveId =
        (fs.filter fun x => x.cveId = f.cveId).length := by
      rw [List.count, List.countP_map, List.countP_eq_length_filter]
      congr 1
    omega
  have hsame : g = f := by
    have hg' : g ∈ fs.filter fun x => x.cveId = f.cveId := List.mem_filter.mpr ⟨hmem, by simpa⟩
    have hf' : f ∈ fs.filter fun x => x.cveId = f.cveId := List.mem_filter.mpr ⟨hf, by simp⟩
    generalize fs.filter (fun x => x.cveId = f.cveId) = ys at hg' hf' hcount
    match ys with
    | [y] => rw [List.mem_singleton.mp hg', List.mem_singleton.mp hf']
  rw [hg, hsame]

/-- The stored findings of the package have the last reported versions, and each new object has
that of a reported finding. -/
structure FixesStaged (depId : ℕ) (fs : List Finding) (s : Staged) : Prop where
  stored : ∀ x item g, s.findings.find (depId, x) = some item → lastReported fs x = some g →
    item.fixedVersion = g.fixedVersion
  added : ∀ item ∈ s.added, ∃ g ∈ fs, g.cveId = item.cveId ∧ item.fixedVersion = g.fixedVersion

theorem stageFindings_fixes (kevIds : List String) (depId : ℕ) (fs : List Finding)
    (t : Table DependencyFinding.key) :
    FixesStaged depId fs (fs.foldl (stageFinding kevIds depId) ⟨t, []⟩) := by
  induction fs using List.reverseRecOn with
  | nil =>
    refine ⟨fun x item g _ hg => ?_, fun item hitem => absurd hitem List.not_mem_nil⟩
    cases hg
  | append_singleton fs f ih =>
    rw [List.foldl_append, List.foldl_cons, List.foldl_nil]
    set s := fs.foldl (stageFinding kevIds depId) ⟨t, []⟩
    have hadded : ∀ item ∈ s.added, ∃ g ∈ fs ++ [f],
        g.cveId = item.cveId ∧ item.fixedVersion = g.fixedVersion := by
      intro item hitem
      obtain ⟨g, hg, hsame⟩ := ih.added item hitem
      exact ⟨g, List.mem_append_left _ hg, hsame⟩
    unfold stageFinding
    split
    · rename_i old hold
      have hkey : old.key = (depId, f.cveId) := Table.find_some_key hold
      refine ⟨fun x item g hitem hg => ?_, hadded⟩
      rw [lastReported_append] at hg
      split at hg
      · rename_i hx
        obtain rfl := Option.some.inj hg
        have hput := Table.find_put_self (t := s.findings) (r := writeFinding kevIds f old)
          (by simp [hkey, hold])
        rw [writeFinding_key, hkey, hx, hitem] at hput
        rw [Option.some.inj hput]
        rfl
      · rename_i hx
        rw [Table.find_put_of_ne (by simpa [hkey] using Ne.symm hx)] at hitem
        exact ih.stored x item g hitem hg
    · rename_i hnone
      refine ⟨fun x item g hitem hg => ?_, fun item hitem => ?_⟩
      · rw [lastReported_append] at hg
        split at hg
        · rename_i hx
          rw [← hx, hnone] at hitem
          cases hitem
        · exact ih.stored x item g hitem hg
      · rcases List.mem_append.mp hitem with hitem | hitem
        · exact hadded item hitem
        · rw [List.mem_singleton.mp hitem]
          exact ⟨f, List.mem_append_right _ (List.mem_singleton.mpr rfl), rfl, rfl⟩

/-- What the flush and the deletion of the stale findings leave. -/
theorem flushed_fixes {kevIds : List String} {depId : ℕ} {fs : List Finding}
    {t : Table DependencyFinding.key} {s : Staged}
    (hs : s = fs.foldl (stageFinding kevIds depId) ⟨t, []⟩) {stored : Table DependencyFinding.key}
    (hstored : s.findings.insertAll s.added = some stored) {x : String} {f : DependencyFinding}
    (hf : stored.find (depId, x) = some f) (hx : x ∈ fs.map Finding.cveId) :
    ∃ g, lastReported fs x = some g ∧ f.fixedVersion = g.fixedVersion := by
  have hstaged : FixesStaged depId fs s := hs ▸ stageFindings_fixes kevIds depId fs t
  have hfrom : StagedFrom depId fs ⟨t, []⟩ s := hs ▸ stageFindings_from kevIds depId fs ⟨t, []⟩
  rw [Table.find_insertAll hstored] at hf
  cases hfind : s.findings.find (depId, x) with
  | some item =>
    rw [hfind, Option.some_or] at hf
    obtain ⟨g, hg⟩ := Option.isSome_iff_exists.mp (lastReported_isSome.mpr hx)
    exact ⟨g, hg, Option.some.inj hf ▸ hstaged.stored x item g hfind hg⟩
  | none =>
    rw [hfind, Option.none_or] at hf
    obtain ⟨g, hg, hid, hsame⟩ := hstaged.added f (List.mem_of_find?_eq_some hf)
    have hkey : f.key = (depId, x) := by simpa using List.find?_some hf
    have hcve : g.cveId = x := hid.trans (congrArg Prod.snd hkey)
    have honce : ¬ List.Duplicate g.cveId (fs.map Finding.cveId) := by
      intro hdup
      have hno : ¬ s.findings.insertAll s.added = none := by rw [hstored]; exact nofun
      rw [insertAll_staged_eq_none kevIds depId fs t s hs, not_not] at hno
      have hsome := hno g.cveId hdup
      rw [hcve] at hsome
      have hnone := hfrom.isNone (depId, x)
      rw [hfind] at hnone
      rw [← Option.not_isNone, ← hnone] at hsome
      cases hsome
    exact ⟨g, hcve ▸ lastReported_eq hg honce, hsame⟩

/-! ## The loop over the packages -/

/-- The row of the package has the installed version, and its findings the versions that were
reported last. -/
def FixesStored (scan : Scan V) (dependencies : Table PlatformDependency.id)
    (findings : Table DependencyFinding.key) (dep : DepRecord) : Prop :=
  ∀ p ∈ dependencies.rows, matchesDep dep p → p.version = dep.version ∧
    ∀ x f, findings.find (p.id, x) = some f →
      ∃ g, lastReported (scan.reported dep) x = some g ∧ f.fixedVersion = g.fixedVersion

section Loop
variable {scan : Scan V} {kevIds : List String} {now : Time} {s s' : ScanState} {dep : DepRecord}

theorem fixesStored_self (h : syncDependency scan kevIds now s dep = .ok s') :
    FixesStored scan s'.dependencies s'.findings dep := by
  unfold syncDependency at h
  rcases lookup_cases s dep with ⟨found, hlookup, hone, hfound⟩ | ⟨hlookup, -⟩
  · rw [hlookup] at h
    dsimp only at h
    split at h
    · cases h
    · rename_i stored hstored
      cases h
      intro p hp hm
      rcases Table.mem_upsert.mp hp with rfl | ⟨hp, hne⟩
      · refine ⟨by cases found <;> rfl, fun x f hf => ?_⟩
        obtain ⟨hids, -, -⟩ := flushed_findings kevIds (currentRow s dep found).id
          (scan.reported dep) s.findings _ rfl hstored rfl
        have hx : x ∈ (scan.reported dep).map Finding.cveId :=
          (hids x).mp (Option.isSome_of_eq_some hf)
        rw [Table.find_delete] at hf
        exact flushed_fixes rfl hstored (Option.filter_eq_some_iff.mp hf).1 hx
      · exact absurd hm ((id_ne_currentRow hfound hp).mp hne)
  · rw [hlookup] at h
    cases h

theorem fixesStored_other (h : syncDependency scan kevIds now s dep = .ok s') {d : DepRecord}
    (hname : d.name ≠ dep.name) (hd : FixesStored scan s.dependencies s.findings d) :
    FixesStored scan s'.dependencies s'.findings d := by
  obtain ⟨-, -, -, hrows, r, hr, hmr, hrest⟩ := syncDependency_ok h
  intro p hp hm
  have hnot : ¬ matchesDep dep p := fun hdep => hname (name_eq_of_matchesDep hm hdep)
  have hid : p.id ≠ r.id := by
    intro hid
    rw [Table.eq_of_key hp hr hid] at hm
    exact hname (name_eq_of_matchesDep hm hmr)
  simp only [hrest p.id _ hid]
  exact hd p ((hrows p hnot).mp hp) hm

theorem fixesStored_syncAll {deps done : List DepRecord}
    (hnodup : ((done ++ deps).map DepRecord.name).Nodup)
    (hdone : ∀ d ∈ done, FixesStored scan s.dependencies s.findings d)
    (h : syncAll scan kevIds now s deps = .ok s') :
    ∀ d ∈ done ++ deps, FixesStored scan s'.dependencies s'.findings d := by
  induction deps generalizing done s with
  | nil =>
    cases h
    rw [List.append_nil]
    exact hdone
  | cons dep deps ih =>
    rw [syncAll] at h
    split at h
    · cases h
    · rename_i t ht
      rw [List.append_cons] at hnodup ⊢
      refine ih hnodup (fun d hd => ?_) h
      rcases List.mem_append.mp hd with hd | hd
      · refine fixesStored_other ht ?_ (hdone d hd)
        rw [List.append_assoc, List.map_append] at hnodup
        exact (List.nodup_append.mp hnodup).2.2 _ (List.mem_map.mpr ⟨d, hd, rfl⟩) _
          (List.mem_map.mpr ⟨dep, by simp, rfl⟩)
      · rw [List.mem_singleton.mp hd]
        exact fixesStored_self ht

end Loop

/-! ## The whole scan -/

/-- What a completed scan leaves: the installed packages as above, and the other rows with their
findings as they were. -/
structure FixesScanned (scan : Scan V) (db db' : ScanDatabase) : Prop where
  installed : ∀ dep ∈ scan.inventory.deps, FixesStored scan db'.dependencies db'.findings dep
  other : ∀ p ∈ db'.dependencies.rows, (∀ dep ∈ scan.inventory.deps, ¬ matchesDep dep p) →
    p ∈ db.dependencies.rows ∧
      ∀ x f, db'.findings.find (p.id, x) = some f → db.findings.find (p.id, x) = some f

theorem persistScan_fixes {now : Time} {scan : Scan V} {db db' : ScanDatabase}
    (h : persistScan now scan db = .ok db') : FixesScanned scan db db' := by
  unfold persistScan at h
  split at h
  · cases h
  · rename_i s hs
    have hnodup : (([] ++ scan.inventory.deps).map DepRecord.name).Nodup := scan.inventory.nodup
    have hstored := fixesStored_syncAll hnodup
      (fun d (hd : d ∈ ([] : List DepRecord)) => absurd hd List.not_mem_nil) hs
    obtain ⟨hinv, -⟩ := syncAll_ok (loopInv_nil scan (.start db))
      (by simpa using List.nodup_reverse.mpr scan.inventory.nodup) hs
    cases h
    have hfind : ∀ (gone : DependencyFinding → Bool) k f,
        (s.findings.delete gone).find k = some f → s.findings.find k = some f := by
      intro gone k f hf
      rw [Table.find_delete] at hf
      exact (Option.filter_eq_some_iff.mp hf).1
    refine ⟨fun dep hdep p hp hm => ?_, fun p hp hnot => ?_⟩
    · obtain ⟨hversion, hfixes⟩ := hstored dep hdep p (Table.mem_delete.mp hp).1 hm
      exact ⟨hversion, fun x f hf => hfixes x f (hfind _ _ f hf)⟩
    · have hp := (Table.mem_delete.mp hp).1
      have hdone : ∀ d ∈ scan.inventory.deps.reverse ++ [], ¬ matchesDep d p := by
        simpa using hnot
      refine ⟨(hinv.rows p hdone).mp hp, fun x f hf => ?_⟩
      have hsame := hinv.findings p.id x fun r hr hid d hd => by
        rw [Table.eq_of_key hr hp hid]
        exact hdone d hd
      exact hsame ▸ hfind _ _ f hf

end Kepryx.ScannedFixes
