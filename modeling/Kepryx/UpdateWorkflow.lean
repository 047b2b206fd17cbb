import Mathlib.Data.List.MinMax
import Kepryx.Results
import Kepryx.UpdateProposals

/-!
# The workflow of update proposals

Scans write the installed packages and reject what they supersede, `_propose_updates` adds a
proposal for each vulnerable package with a fix, and administrators and workers move the
proposals through their states. Every task and request is one atomic step here.
-/
namespace Kepryx.UpdateWorkflow
open Kepryx.Models Kepryx.Tables Kepryx.Results Kepryx.SelfSecurity Kepryx.UpdateProposals

/-! ## The state -/

/-- `last_scan_status` -/
inductive ScanStatus where
  | never | running | success | failed
  deriving DecidableEq, Repr

/-- The columns of `self_security_settings` that the tasks read. -/
structure SelfSecuritySettings where
  lastScanStatus : ScanStatus := .never
  lastSuccessfulScanAt : Option Time := none
  excludedPackages : List String := []
  requireAiValidation : Bool := true
  deriving DecidableEq, Repr

/-- The settings and the tables, at first the defaults and no rows. -/
structure State where
  settings : SelfSecuritySettings := {}
  db : ScanDatabase := ⟨.empty, .empty, .empty, .empty⟩
  deriving DecidableEq

variable {V : Type} [LinearOrder V]

/-! ## `_scan_platform_deps` -/

/-- `_scan_platform_deps`, with what its first phase gathered unless it raised. The first commit
stands also when the persistence phase fails. -/
def scanPlatformDeps (now : Time) (gathered : Option (Scan V)) (s : State) : State :=
  let running := { s.settings with lastScanStatus := .running }
  let failed := { s with settings := { running with lastScanStatus := .failed } }
  match gathered with
  | none => failed
  | some scan =>
    if scan.inventory.deps = [] then failed
    else
      match persistScan now { scan with excluded := s.settings.excludedPackages } s.db with
      | .error _ => { s with settings := running }
      | .ok db =>
        { settings :=
            { running with lastScanStatus := .success, lastSuccessfulScanAt := some now }
          db := db }

/-! ## `_propose_updates` -/

/-- `packaging.version`: the place of a text in the order of the versions, unless it is invalid,
and the text that `str` gives for its version. -/
structure VersionOrder (V : Type) where
  version : String → Option V
  str : String → String

/-- `str(max(Version(value) for value in target_versions))`; the first of the greatest values
counts, and an invalid value raises. -/
def newestTarget (versions : VersionOrder V) (targetVersions : List String) : Option String := do
  let valued ← targetVersions.mapM fun value => (versions.version value).map fun v => (v, value)
  (valued.argmax Prod.fst).map fun v => versions.str v.2

/-- `[f.fixed_version for f in findings if f.fixed_version]`, with the CVE of each. -/
def fixes (findings : List DependencyFinding) : List (String × String) :=
  findings.filterMap fun f => (f.fixedVersion.filter (· ≠ "")).map fun v => (f.cveId, v)

/-- The proposals that the duplicate check looks for. -/
def duplicates (dependencyId : ℕ) (target : String) (p : UpdateProposal) : Bool :=
  p.dependencyId = dependencyId && p.targetVersion = target && p.status ∈ pending

/-- An identifier that no stored proposal has. -/
def freshId (proposals : Table UpdateProposal.id) : ℕ :=
  (proposals.rows.map (·.id)).foldl max 0 + 1

/-- The new proposal for a dependency. -/
def newProposal (id : ℕ) (pdep : PlatformDependency) (findings : List DependencyFinding)
    (target : String) : UpdateProposal :=
  let hasKev := findings.any (·.kev)
  let hasCritical := findings.any (·.severity = "critical")
  { id := id
    dependencyId := pdep.id
    packageName := pdep.name
    currentVersion := pdep.version
    targetVersion := target
    reason := if hasKev then "kev_fix" else if hasCritical then "cve_fix" else "cve_fix"
    cvesFixed := (fixes findings).map Prod.fst
    status := .proposed }

/-- One turn of the loop over the vulnerable dependencies. -/
def proposeUpdate (versions : VersionOrder V) (excluded : List String)
    (findings : Table DependencyFinding.key) (proposals : Table UpdateProposal.id)
    (pdep : PlatformDependency) : Except DbError (Table UpdateProposal.id) :=
  if pdep.name ∈ excluded then .ok proposals
  else
    let findings := findings.rows.filter fun f => f.dependencyId = pdep.id && !f.suppressed
    let targetVersions := (fixes findings).map Prod.snd
    if targetVersions = [] then .ok proposals
    else
      match newestTarget versions targetVersions with
      | none => .ok proposals
      | some target =>
        match scalarOneOrNone .multipleResultsFound
            (proposals.rows.filter (duplicates pdep.id target)) with
        | .error e => .error e
        | .ok (some _) => .ok proposals
        | .ok none =>
          match proposals.insert? (newProposal (freshId proposals) pdep findings target) with
          | none => .error .uniqueViolation
          | some proposals => .ok proposals

/-- The last scan succeeded, in the last 26 hours. -/
def recentlyScanned (now : Time) (settings : SelfSecuritySettings) : Bool :=
  settings.lastScanStatus = .success &&
    settings.lastSuccessfulScanAt.any fun last => now - hours 26 ≤ last

/-- `_propose_updates`; an exception rolls the new proposals of all dependencies back. -/
def proposeUpdates (versions : VersionOrder V) (now : Time) (s : State) : Except DbError State :=
  if recentlyScanned now s.settings then do
    let proposals ← (s.db.dependencies.rows.filter fun d => 0 < d.cveCount).foldlM
      (proposeUpdate versions s.settings.excludedPackages s.db.findings) s.db.proposals
    return { s with db := { s.db with proposals := proposals } }
  else .ok s

/-! ## The requests and tasks that write proposals -/

theorem getD_change_id (op : Operation) (p : UpdateProposal) :
    ((change op p).getD p).id = p.id := by
  cases h : change op p with
  | none => rfl
  | some p' => exact (change_status h).id

/-- An operation reads and commits at once. -/
def State.operate (s : State) (op : Operation) : State :=
  { s with db := { s.db with
      proposals := s.db.proposals.mapRows (fun p => (change op p).getD p) (getD_change_id op) } }

/-- `suppress_finding` -/
def suppressFinding (finding : ℕ × String) (reason username : String) (s : State) : State :=
  match s.db.findings.find finding with
  | none => s
  | some f =>
    let f := { f with
      suppressed := true
      suppressedReason := some (String.ofList (reason.toList.take 255))
      suppressedBy := some username }
    { s with db := { s.db with findings := s.db.findings.put f } }

/-- `update_settings`, for the settings that the tasks read; an unset field stays. -/
def updateSettings (excludedPackages : Option (List String)) (requireAiValidation : Option Bool)
    (s : State) : State :=
  { s with settings := { s.settings with
      excludedPackages := excludedPackages.getD s.settings.excludedPackages
      requireAiValidation := requireAiValidation.getD s.settings.requireAiValidation } }

/-- What can happen. The feeds may leave any CVEs. -/
inductive Event (V : Type) where
  | scan (now : Time) (gathered : Option (Scan V))
  | propose (versions : VersionOrder V) (now : Time)
  | aiValidate (selected : List ℕ) (assess : UpdateProposal → Assessment)
  | approve (proposalId : ℕ) (username : String) (now : Time)
  | reject (proposalId : ℕ) (reason : String)
  | applyApproved (proposalId : Option ℕ) (requirements : Requirements)
      (unifiedDiff : List String → List String → String)
  | rollback (proposalId : ℕ)
  | suppressFinding (finding : ℕ × String) (reason username : String)
  | updateSettings (excludedPackages : Option (List String)) (requireAiValidation : Option Bool)
  | syncFeeds (cves : Table CVE.id)

/-- A step; a task that raises leaves the tables as they were. -/
def step (s : State) : Event V → State
  | .scan now gathered => scanPlatformDeps now gathered s
  | .propose versions now => (proposeUpdates versions now s).toOption.getD s
  | .aiValidate selected assess =>
    if s.settings.requireAiValidation then s.operate (.aiValidate selected assess) else s
  | .approve proposalId username now => s.operate (.approve proposalId username now)
  | .reject proposalId reason => s.operate (.reject proposalId reason)
  | .applyApproved proposalId requirements unifiedDiff =>
    s.operate (.applyApproved proposalId requirements unifiedDiff)
  | .rollback proposalId => s.operate (.rollback proposalId)
  | .suppressFinding finding reason username => suppressFinding finding reason username s
  | .updateSettings excludedPackages requireAiValidation =>
    updateSettings excludedPackages requireAiValidation s
  | .syncFeeds cves => { s with db := { s.db with cves := cves } }

/-! ## What the steps do to the proposals -/

/-- The proposal is in one of the states that the supersession and the duplicate check read. -/
def Live (p : UpdateProposal) : Prop := p.status ∈ pending

instance : DecidablePred Live := fun p => inferInstanceAs (Decidable (p.status ∈ pending))

/-- What a proposal is about; no operation writes these columns. -/
structure Offer where
  id : ℕ
  dependencyId : ℕ
  currentVersion : String
  targetVersion : String

def offer (p : UpdateProposal) : Offer :=
  ⟨p.id, p.dependencyId, p.currentVersion, p.targetVersion⟩

/-- A live proposal that a scan leaves as it is, is for a version with CVEs that the scan found. -/
theorem current_of_supersede {dependencyState : List (ℕ × String × ℕ)} {p : UpdateProposal}
    (h : supersede dependencyState p = p) (hlive : Live p) {version : String} {cveCount : ℕ}
    (hlookup : dependencyState.lookup p.dependencyId = some (version, cveCount)) :
    p.currentVersion = version ∧ 0 < cveCount := by
  unfold supersede at h
  rw [hlookup] at h
  dsimp only at h
  split at h
  · rw [← h] at hlive
    simp [Live, pending] at hlive
  · rename_i hkept
    have hcurrent : ¬ (cveCount = 0 ∨ p.currentVersion ≠ version) := fun h => hkept ⟨hlive, h⟩
    rw [not_or, not_not] at hcurrent
    exact ⟨hcurrent.2, Nat.pos_of_ne_zero hcurrent.1⟩

/-- Only a rollback brings a proposal back among the live ones. -/
theorem change_live {op : Operation} {p p' : UpdateProposal} (h : change op p = some p') :
    offer p' = offer p ∧ (Live p' → Live p ∨ op = .rollback p.id ∧ p.status = .readyForPr) := by
  cases changed_of_change h with
  | approved hwaiting =>
    exact ⟨rfl, fun _ => .inl (by rcases hwaiting with hs | hs <;> simp [Live, pending, hs])⟩
  | rejected => exact ⟨rfl, by simp [Live, pending]⟩
  | @validated _ assess _ hproposed _ =>
    have hoffer : offer (validated p (assess p)) = offer p := by
      cases assess p <;> rfl
    exact ⟨hoffer, fun _ => .inl (by simp [Live, pending, hproposed])⟩
  | failed happroved => exact ⟨rfl, by simp [Live, pending]⟩
  | prepared happroved => exact ⟨rfl, by simp [Live, pending]⟩
  | superseded => exact ⟨rfl, by simp [Live, pending, superseded]⟩
  | rolledBack hprepared => exact ⟨rfl, fun _ => .inr ⟨rfl, hprepared⟩⟩

/-- Where a proposal comes from after an operation. -/
theorem operate_back {s : State} {op : Operation} {p' : UpdateProposal}
    (h : p' ∈ (s.operate op).db.proposals.rows) :
    ∃ p ∈ s.db.proposals.rows, offer p' = offer p ∧
      (Live p' → Live p ∨ op = .rollback p.id ∧ p.status = .readyForPr) := by
  obtain ⟨p, hp, rfl⟩ := List.mem_map.mp h
  refine ⟨p, hp, ?_⟩
  cases hchange : change op p with
  | none => exact ⟨rfl, fun hlive => .inl hlive⟩
  | some p' => exact change_live hchange

/-- A rollback makes a prepared proposal an approved one. -/
theorem operate_rollback {s : State} {p : UpdateProposal} (hp : p ∈ s.db.proposals.rows)
    (hready : p.status = .readyForPr) :
    { p with rollbackSnapshot := [], status := .approved } ∈
      (s.operate (.rollback p.id)).db.proposals.rows := by
  refine List.mem_map.mpr ⟨p, hp, ?_⟩
  simp [change, rollbackProposal, hready]

/-- An operation on the only proposal. -/
theorem operate_singleton {s : State} {op : Operation} {p p' : UpdateProposal}
    (hrows : s.db.proposals.rows = [p]) (h : change op p = some p') :
    s.operate op = { s with db := { s.db with proposals := ⟨[p'], List.nodup_singleton _⟩ } } := by
  have htable : s.db.proposals.mapRows (fun p => (change op p).getD p) (getD_change_id op) =
      ⟨[p'], List.nodup_singleton _⟩ := by
    apply Table.ext_rows
    simp [Table.mapRows, hrows, h]
  rw [State.operate, htable]

/-- The other proposals stay. -/
theorem operate_rollback_of_ne {s : State} {i : ℕ} {p : UpdateProposal}
    (hp : p ∈ s.db.proposals.rows) (hne : p.id ≠ i) :
    p ∈ (s.operate (.rollback i)).db.proposals.rows := by
  refine List.mem_map.mpr ⟨p, hp, ?_⟩
  simp [change, rollbackProposal, hne]

/-! ## What a scan records -/

/-- Each row is in `dependency_state` as it is stored, or is one that the scan did not write. -/
def Recorded (before : Table PlatformDependency.id) (s : ScanState) : Prop :=
  ∀ d ∈ s.dependencies.rows,
    s.dependencyState.lookup d.id = some (d.version, d.cveCount) ∨ d ∈ before.rows

theorem recorded_syncDependency {before : Table PlatformDependency.id} {scan : Scan V}
    {kevIds : List String} {now : Time} {s s' : ScanState} {dep : DepRecord}
    (hrecorded : Recorded before s) (h : syncDependency scan kevIds now s dep = .ok s') :
    Recorded before s' := by
  unfold syncDependency at h
  split at h
  · cases h
  · dsimp only at h
    split at h
    · cases h
    · cases h
      intro d hd
      rcases Table.mem_upsert.mp hd with rfl | ⟨hd, hne⟩
      · exact .inl (by simp)
      · refine (hrecorded d hd).imp_left fun hlookup => ?_
        rw [List.lookup_cons, beq_false_of_ne hne]
        exact hlookup

theorem recorded_syncAll {before : Table PlatformDependency.id} {scan : Scan V}
    {kevIds : List String} {now : Time} {deps : List DepRecord} {s s' : ScanState}
    (hrecorded : Recorded before s) (h : syncAll scan kevIds now s deps = .ok s') :
    Recorded before s' := by
  induction deps generalizing s with
  | nil =>
    cases h
    exact hrecorded
  | cons dep deps ih =>
    rw [syncAll] at h
    split at h
    · cases h
    · rename_i t ht
      exact ih (recorded_syncDependency hrecorded ht) h

/-- A scan leaves a proposal live only if it was, and if the row of its dependency, where the
scan wrote it, has its version and CVEs. -/
theorem persistScan_live {now : Time} {scan : Scan V} {db db' : ScanDatabase}
    (h : persistScan now scan db = .ok db') {p : UpdateProposal} (hp : p ∈ db'.proposals.rows)
    (hlive : Live p) :
    p ∈ db.proposals.rows ∧ ∀ d ∈ db'.dependencies.rows, d.id = p.dependencyId →
      (p.currentVersion = d.version ∧ 0 < d.cveCount) ∨ d ∈ db.dependencies.rows := by
  unfold persistScan at h
  split at h
  · cases h
  · rename_i s hs
    cases h
    obtain ⟨q, hq, rfl⟩ := List.mem_map.mp hp
    have hsame : supersede s.dependencyState q = q := by
      refine (supersede_cases s.dependencyState q).resolve_left fun h => ?_
      rw [h] at hlive
      simp [Live, pending, superseded] at hlive
    rw [hsame] at hlive ⊢
    refine ⟨(Table.mem_delete.mp hq).1, fun d hd hid => ?_⟩
    have hrecorded : Recorded db.dependencies s := by
      refine recorded_syncAll ?_ hs
      intro d hd
      exact .inr hd
    rcases hrecorded d (Table.mem_delete.mp hd).1 with hlookup | hbefore
    · rw [hid] at hlookup
      exact .inl (current_of_supersede hsame hlive hlookup)
    · exact .inr hbefore

/-! ## What a turn of `_propose_updates` adds -/

theorem find_freshId (proposals : Table UpdateProposal.id) :
    proposals.find (freshId proposals) = none := by
  rw [Table.find_eq_none]
  intro p hp hid
  have hle : p.id ≤ (proposals.rows.map (·.id)).foldl max 0 :=
    le_foldl_max (.inr (List.mem_map.mpr ⟨p, hp, rfl⟩))
  unfold freshId at hid
  omega

/-- A turn adds nothing, or a proposal for the stored version that has no live duplicate, or it
raises over several live proposals for one dependency and target. -/
theorem proposeUpdate_cases (versions : VersionOrder V) (excluded : List String)
    (findings : Table DependencyFinding.key) (proposals : Table UpdateProposal.id)
    (pdep : PlatformDependency) :
    proposeUpdate versions excluded findings proposals pdep = .ok proposals ∨
    (∃ n proposals', proposeUpdate versions excluded findings proposals pdep = .ok proposals' ∧
      proposals'.rows = proposals.rows ++ [n] ∧
      n.dependencyId = pdep.id ∧ n.currentVersion = pdep.version ∧
      ∀ p ∈ proposals.rows, Live p → p.dependencyId = n.dependencyId →
        p.targetVersion ≠ n.targetVersion) ∨
    ∃ target, proposeUpdate versions excluded findings proposals pdep =
        .error .multipleResultsFound ∧
      2 ≤ (proposals.rows.filter (duplicates pdep.id target)).length := by
  unfold proposeUpdate
  split
  · exact .inl rfl
  · dsimp only
    split
    · exact .inl rfl
    · split
      · exact .inl rfl
      · rename_i target htarget
        split
        · rename_i hmany
          obtain ⟨rfl, hlen⟩ := scalarOneOrNone_error hmany
          exact .inr (.inr ⟨target, rfl, hlen⟩)
        · exact .inl rfl
        · rename_i hnone
          split
          · rename_i hinsert
            have hfresh := find_freshId proposals
            rw [Table.insert?_eq_none] at hinsert
            simp [newProposal, hfresh] at hinsert
          · rename_i proposals' hinsert
            have hrows := (Table.insert?_eq_some hinsert).1
            refine .inr (.inl ⟨_, proposals', rfl, hrows, rfl, rfl, ?_⟩)
            intro p hp hlive hdep htarget
            have hdup : p ∈ proposals.rows.filter (duplicates pdep.id target) := by
              refine List.mem_filter.mpr ⟨hp, ?_⟩
              simp only [duplicates, Bool.and_eq_true, decide_eq_true_eq]
              exact ⟨⟨hdep, htarget⟩, hlive⟩
            rw [scalarOneOrNone_none hnone] at hdup
            exact absurd hdup List.not_mem_nil

/-! ## The steps -/

/-- What a step did to the dependencies and the proposals. -/
inductive Effect (s : State) (e : Event V) (s' : State) : Prop where
  | scanned (now : Time) (scan : Scan V) (persisted : persistScan now scan s.db = .ok s'.db)
  | proposed (versions : VersionOrder V) (now : Time)
      (proposed : proposeUpdates versions now s = .ok s')
  | operated (op : Operation) (operated : s' = s.operate op)
      (rollback : ∀ i, op = .rollback i → e = .rollback i)
  | kept (dependencies : s'.db.dependencies = s.db.dependencies)
      (proposals : s'.db.proposals = s.db.proposals)

theorem step_effect (s : State) (e : Event V) : Effect s e (step s e) := by
  cases e with
  | scan now gathered =>
    simp only [step, scanPlatformDeps]
    split
    · exact .kept rfl rfl
    · split
      · exact .kept rfl rfl
      · split
        · exact .kept rfl rfl
        · rename_i db hdb
          exact .scanned now _ hdb
  | propose versions now =>
    simp only [step]
    cases h : proposeUpdates versions now s with
    | error err => exact .kept rfl rfl
    | ok s' => exact .proposed versions now h
  | aiValidate selected assess =>
    simp only [step]
    split
    · exact .operated _ rfl fun i h => by cases h
    · exact .kept rfl rfl
  | approve i username now => exact .operated _ rfl fun j h => by cases h
  | reject i reason => exact .operated _ rfl fun j h => by cases h
  | applyApproved i requirements unifiedDiff => exact .operated _ rfl fun j h => by cases h
  | rollback i =>
    refine .operated _ rfl fun j h => ?_
    cases h
    rfl
  | suppressFinding finding reason username =>
    simp only [step, suppressFinding]
    split
    · exact .kept rfl rfl
    · exact .kept rfl rfl
  | updateSettings excludedPackages requireAiValidation => exact .kept rfl rfl
  | syncFeeds cves => exact .kept rfl rfl

end Kepryx.UpdateWorkflow
