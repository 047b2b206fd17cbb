import Mathlib.Algebra.Order.Ring.Unbundled.Rat
import Mathlib.Data.List.MinMax
import Mathlib.Data.List.Sort
import Mathlib.Order.Lattice
import Kepryx.AssetIntake

/-!
# Platform dependencies and the dependency scan

The scan inventories the installed packages, asks OSV for the advisories of each one that is
not excluded, and then persists the answer in one transaction. Findings are unique per
dependency and CVE; new ones are inserted by the flush that precedes the deletion of the
findings that are no longer reported.
-/
namespace Kepryx.SelfSecurity
open Kepryx.Models Kepryx.Tables
open Kepryx.AssetIntake (strip)
open Kepryx.Redaction (lower)

/-! ## The stored rows -/

/-- A row of `platform_dependencies`. -/
structure PlatformDependency where
  id : ℕ
  component : String
  packageType : String
  name : String
  version : String
  latestVersion : Option String := none
  purl : Option String := none
  lastChecked : Time := 0
  cveCount : ℕ := 0
  kevCount : ℕ := 0
  maxCvss : Option ℚ := none
  updateAvailable : Bool := false
  deriving DecidableEq, Repr

/-- What an administrator recorded about a finding. -/
structure Suppression where
  suppressed : Bool := false
  suppressedReason : Option String := none
  suppressedBy : Option String := none
  suppressedUntil : Option Time := none
  deriving DecidableEq, Repr

/-- A row of `dependency_findings`. -/
structure DependencyFinding extends Suppression where
  dependencyId : ℕ
  cveId : String
  cvss : Option ℚ := none
  kev : Bool := false
  description : Option String := none
  fixedVersion : Option String := none
  severity : String := "medium"
  deriving DecidableEq, Repr

/-- The unique constraint `uq_dependency_findings_dep_cve`. -/
def DependencyFinding.key (f : DependencyFinding) : ℕ × String := (f.dependencyId, f.cveId)

/-- The states of an update proposal. -/
inductive ProposalStatus where
  | proposed | aiValidated | approved | applying | readyForPr | rejected | failed
  deriving DecidableEq, Repr

/-- A row of `update_proposals`. -/
structure UpdateProposal where
  id : ℕ
  dependencyId : ℕ
  packageName : String
  currentVersion : String
  targetVersion : String
  reason : String
  cvesFixed : List String := []
  aiAssessment : List (String × String) := []
  aiRecommendation : Option String := none
  aiRiskScore : Option ℚ := none
  breakingChangesDetected : Bool := false
  compatibilityNotes : Option String := none
  status : ProposalStatus := .proposed
  approvedBy : Option String := none
  approvedAt : Option Time := none
  rollbackSnapshot : List (String × String) := []
  errorMessage : Option String := none
  deriving DecidableEq, Repr

/-- The tables that the scan reads and writes. -/
structure ScanDatabase where
  dependencies : Table PlatformDependency.id
  findings : Table DependencyFinding.key
  cves : Table CVE.id
  proposals : Table UpdateProposal.id
  deriving DecidableEq

/-! ## The inventory -/

/-- `DepRecord` -/
structure DepRecord where
  component : String
  packageType : String
  name : String
  version : String
  purl : Option String
  deriving DecidableEq, Repr

/-- The installed packages of one component; each package is listed once. -/
structure Inventory where
  component : String
  deps : List DepRecord
  component_eq : ∀ d ∈ deps, d.component = component
  nodup : (deps.map (·.name)).Nodup

/-- The entry of a distribution in `resolved`, unless its name or version is empty. -/
def readDistribution (component : String) (distribution : String × String) : Option DepRecord :=
  let name := lower (strip distribution.1)
  if name = "" ∨ distribution.2 = "" then none
  else
    let normalized := name.map fun c => if c = '_' then '-' else c
    some
      { component := component
        packageType := "pip"
        name := normalized
        version := distribution.2
        purl := some ("pkg:pypi/" ++ normalized ++ "@" ++ distribution.2) }

/-- The dictionary `resolved`: the last distribution of a normalized name counts. -/
def resolved (component : String) (distributions : List (String × String)) :
    Table DepRecord.name :=
  (distributions.filterMap (readDistribution component)).foldl Table.upsert .empty

theorem resolved_component (component : String) (distributions : List (String × String)) :
    ∀ d ∈ (resolved component distributions).rows, d.component = component := by
  refine List.foldlRecOn (distributions.filterMap (readDistribution component))
    (motive := fun t : Table DepRecord.name => ∀ d ∈ t.rows, d.component = component)
    Table.upsert (fun d hd => (List.not_mem_nil hd).elim) ?_
  intro t ht d hd x hx
  rcases Table.mem_upsert.mp hx with rfl | ⟨hx, -⟩
  · obtain ⟨distribution, -, hread⟩ := List.mem_filterMap.mp hd
    simp only [readDistribution] at hread
    split at hread
    · cases hread
    · cases hread
      rfl
  · exact ht x hx

/-- `scan_installed_python_deps`, given the names and versions of the distributions. -/
def scanInstalledPythonDeps (component : String) (distributions : List (String × String)) :
    Inventory where
  component := component
  deps := (resolved component distributions).rows.mergeSort fun d e => d.name ≤ e.name
  component_eq := by
    intro d hd
    exact resolved_component component distributions d (List.mem_mergeSort.mp hd)
  nodup := ((List.mergeSort_perm _ _).map _).nodup_iff.mpr (resolved component distributions).nodup

/-! ## `find_vulns` -/

/-- `packaging.version`: the texts that are versions, with their place in the order, and the text
that `str` gives for the version of a text. Equal versions may be written differently. -/
structure VersionScheme (V : Type) where
  parse : String → Option V
  str : String → String

/-- An advisory of an OSV answer. -/
structure OsvVuln where
  id : String := ""
  aliases : List String := []
  severity : List (String × String) := []
  affected : List (String × List String) := []
  summary : Option String := none
  details : Option String := none
  databaseSeverity : String := ""
  deriving DecidableEq, Repr

/-- `Finding` -/
structure Finding where
  cveId : String
  cvss : Option ℚ
  description : String
  fixedVersion : Option String
  severity : String
  aliases : List String
  deriving DecidableEq, Repr

/-- The first alias that is a CVE, or else the OSV identifier. -/
def OsvVuln.cveId (v : OsvVuln) : String :=
  (v.aliases.find? fun a => a.startsWith "CVE-").getD v.id

/-- The number that a list of digits spells. -/
def digitsValue (ds : List Char) : ℕ := ds.foldl (fun n d => 10 * n + (d.toNat - '0'.toNat)) 0

/-- A score text that matches `10(\.0)?` or `[0-9](\.\d+)?`. -/
def parseScore (s : String) : Option ℚ :=
  match s.toList with
  | ['1', '0'] => some 10
  | ['1', '0', '.', '0'] => some 10
  | [d] => if d.isDigit then some (digitsValue [d]) else none
  | d :: '.' :: ds =>
    if d.isDigit ∧ ds ≠ [] ∧ ds.all Char.isDigit then
      some (digitsValue [d] + digitsValue ds / (10 : ℚ) ^ ds.length)
    else none
  | _ => none

/-- The first numeric CVSS v3 score. -/
def osvCvss (severity : List (String × String)) : Option ℚ :=
  severity.findSome? fun s =>
    if s.1 = "CVSS_V3" ∨ s.1 = "CVSS_V31" then parseScore s.2 else none

/-- The smallest fixed version above the installed one; the first of equal ones counts. -/
def fixedVersion {V : Type} [LinearOrder V] (versions : VersionScheme V) (dep : DepRecord)
    (affected : List (String × List String)) : Option String :=
  let candidates := (affected.filter fun a => lower a.1 = lower dep.name).flatMap Prod.snd
  match versions.parse dep.version with
  | none => none
  | some current =>
    let valid := candidates.filterMap fun value => (versions.parse value).map fun v => (v, value)
    ((valid.filter fun v => current < v.1).argmin Prod.fst).map fun v => versions.str v.2

/-- The severity label of an advisory. -/
def severityLabel (cvss : Option ℚ) (databaseSeverity : String) : String :=
  match cvss with
  | some score =>
    if 9 ≤ score then "critical" else if 7 ≤ score then "high" else if 4 ≤ score then "medium"
    else "low"
  | none =>
    let label := lower databaseSeverity
    if label = "moderate" then "medium"
    else if label ∈ ["critical", "high", "medium", "low"] then label
    else "unknown"

/-- `summary or details or ""`, cut to a thousand characters. -/
def osvDescription (v : OsvVuln) : String :=
  let text := ((v.summary.filter (· ≠ "")).or (v.details.filter (· ≠ ""))).getD ""
  String.ofList (text.toList.take 1000)

/-- One turn of the loop in `find_vulns`. -/
def readVuln {V : Type} [LinearOrder V] (versions : VersionScheme V) (dep : DepRecord)
    (v : OsvVuln) : Finding where
  cveId := v.cveId
  cvss := osvCvss v.severity
  description := osvDescription v
  fixedVersion := fixedVersion versions dep v.affected
  severity := severityLabel (osvCvss v.severity) v.databaseSeverity
  aliases := v.aliases

/-- `find_vulns`, given the advisories of the OSV answer. -/
def findVulns {V : Type} [LinearOrder V] (versions : VersionScheme V) (dep : DepRecord)
    (vulns : List OsvVuln) : List Finding := vulns.map (readVuln versions dep)

/-! ## The persistence phase of `_scan_platform_deps` -/

/-- What the first phase of the scan gathered: the inventory, the OSV answer for each package
and `latest_versions`. -/
structure Scan (V : Type) where
  inventory : Inventory
  excluded : List String
  versions : VersionScheme V
  vulns : DepRecord → List OsvVuln
  latest : DepRecord → Option String

variable {V : Type} [LinearOrder V]

/-- The findings of a package that the scan persists: `scan_results[dep.name]`, and none for
an excluded package. -/
def Scan.reported (scan : Scan V) (dep : DepRecord) : List Finding :=
  if dep.name ∈ scan.excluded then [] else findVulns scan.versions dep (scan.vulns dep)

/-- The identifiers of these findings, with their repetitions. -/
def Scan.reportedIds (scan : Scan V) (dep : DepRecord) : List String :=
  (scan.reported dep).map Finding.cveId

/-- The CVE identifiers that the findings mention. -/
def Scan.cveCandidates (scan : Scan V) : List String :=
  ((scan.inventory.deps.flatMap scan.reported).flatMap fun f => f.cveId :: f.aliases).filter
    fun a => a.startsWith "CVE-"

/-- The candidates that are stored as exploited. -/
def kevIds (cves : Table CVE.id) (scan : Scan V) : List String :=
  (cves.rows.filter fun cve => cve.kev && cve.id ∈ scan.cveCandidates).map CVE.id

/-- `any(identifier in kev_ids for identifier in [finding.cve_id, *finding.aliases])` -/
def isKev (kevIds : List String) (f : Finding) : Bool :=
  (f.cveId :: f.aliases).any fun identifier => identifier ∈ kevIds

/-- The attribute assignments for a reported finding. -/
def writeFinding (kevIds : List String) (f : Finding) (item : DependencyFinding) :
    DependencyFinding :=
  { item with
    cvss := f.cvss
    description := some f.description
    fixedVersion := f.fixedVersion
    severity := f.severity
    kev := isKev kevIds f }

/-- The findings of a session: the loaded ones with their changes, and the new objects that
wait for the flush. -/
structure Staged where
  findings : Table DependencyFinding.key
  added : List DependencyFinding

/-- One turn of the loop over the findings of a dependency. New objects do not enter the map
of existing ones, which was read before the loop. -/
def stageFinding (kevIds : List String) (depId : ℕ) (s : Staged) (f : Finding) : Staged :=
  match s.findings.find (depId, f.cveId) with
  | some item => { s with findings := s.findings.put (writeFinding kevIds f item) }
  | none =>
    { s with added := s.added ++
        [writeFinding kevIds f { dependencyId := depId, cveId := f.cveId }] }

/-- The state of the persistence phase: the tables, the counters and `dependency_state`. -/
structure ScanState where
  dependencies : Table PlatformDependency.id
  findings : Table DependencyFinding.key
  totalFindings : ℕ := 0
  criticalFindings : ℕ := 0
  kevCount : ℕ := 0
  dependencyState : List (ℕ × String × ℕ) := []

/-- The state before the first package. -/
def ScanState.start (db : ScanDatabase) : ScanState where
  dependencies := db.dependencies
  findings := db.findings

/-- An identifier that no stored row refers to. -/
def ScanState.freshId (s : ScanState) : ℕ :=
  (s.dependencies.rows.map (·.id) ++ s.findings.rows.map (·.dependencyId)).foldl max 0 + 1

theorem le_foldl_max {xs : List ℕ} {b x : ℕ} (hx : x = b ∨ x ∈ xs) : x ≤ xs.foldl max b := by
  induction xs generalizing b x with
  | nil =>
    rcases hx with rfl | hx
    · exact le_rfl
    · cases hx
  | cons y ys ih =>
    rcases hx with rfl | hx
    · exact (le_max_left x y).trans (ih (.inl rfl))
    · rcases List.mem_cons.mp hx with rfl | hx
      · exact (le_max_right b x).trans (ih (.inl rfl))
      · exact ih (.inr hx)

/-- The row is the one of the installed package. -/
def matchesDep (dep : DepRecord) (p : PlatformDependency) : Bool :=
  p.name = dep.name && p.component = dep.component

/-- The stored row of a package with its version brought up to date, or a new row. -/
def currentRow (s : ScanState) (dep : DepRecord) : Option PlatformDependency → PlatformDependency
  | some p => { p with version := dep.version, purl := dep.purl }
  | none =>
    { id := s.freshId
      component := dep.component
      packageType := dep.packageType
      name := dep.name
      version := dep.version
      purl := dep.purl }

/-- One turn of the loop over the installed packages. The flush before the deletion of the
stale findings inserts the new ones. -/
def syncDependency (scan : Scan V) (kevIds : List String) (now : Time) (s : ScanState)
    (dep : DepRecord) : Except DbError ScanState :=
  match scalarOneOrNone .multipleResultsFound (s.dependencies.rows.filter (matchesDep dep)) with
  | .error e => .error e
  | .ok found =>
    let pdep := currentRow s dep found
    let findings := scan.reported dep
    let latest := if dep.name ∈ scan.excluded then none else scan.latest dep
    let staged := findings.foldl (stageFinding kevIds pdep.id) ⟨s.findings, []⟩
    match staged.findings.insertAll staged.added with
    | none => .error .uniqueViolation
    | some stored =>
      let pdep := { pdep with
        latestVersion := latest
        cveCount := findings.length
        kevCount := findings.countP (isKev kevIds)
        maxCvss := (findings.filterMap Finding.cvss).max?
        updateAvailable := (latest.filter (· ≠ "")).any (· ≠ dep.version)
        lastChecked := now }
      .ok
        { dependencies := s.dependencies.upsert pdep
          findings := stored.delete fun f =>
            f.dependencyId = pdep.id && f.cveId ∉ findings.map Finding.cveId
          totalFindings := s.totalFindings + findings.length
          criticalFindings := s.criticalFindings + findings.countP (·.severity = "critical")
          kevCount := s.kevCount + findings.countP (isKev kevIds)
          dependencyState := (pdep.id, pdep.version, pdep.cveCount) :: s.dependencyState }

/-- The loop over the installed packages. -/
def syncAll (scan : Scan V) (kevIds : List String) (now : Time) :
    ScanState → List DepRecord → Except DbError ScanState
  | s, [] => .ok s
  | s, dep :: deps =>
    match syncDependency scan kevIds now s dep with
    | .error e => .error e
    | .ok s => syncAll scan kevIds now s deps

/-- A stored package of the component that is not installed any more; the task scans the
component `api`. -/
def uninstalled (inventory : Inventory) (p : PlatformDependency) : Bool :=
  p.component = inventory.component && p.name ∉ inventory.deps.map (·.name)

/-- The proposals that a fresh scan supersedes. -/
def pending : List ProposalStatus := [.proposed, .aiValidated, .approved, .applying]

/-- One turn of the loop over the pending proposals. -/
def supersede (dependencyState : List (ℕ × String × ℕ)) (p : UpdateProposal) : UpdateProposal :=
  match dependencyState.lookup p.dependencyId with
  | some (version, cveCount) =>
    if p.status ∈ pending ∧ (cveCount = 0 ∨ p.currentVersion ≠ version) then
      { p with
        status := .rejected
        errorMessage := some "Superseded by a fresh resolved-runtime scan" }
    else p
  | none => p

theorem supersede_id (dependencyState : List (ℕ × String × ℕ)) (p : UpdateProposal) :
    (supersede dependencyState p).id = p.id := by
  unfold supersede
  split
  · split <;> rfl
  · rfl

/-- The persistence phase of `_scan_platform_deps`. Deleting a package deletes its findings
and proposals. -/
def persistScan (now : Time) (scan : Scan V) (db : ScanDatabase) : Except DbError ScanDatabase :=
  match syncAll scan (kevIds db.cves scan) now (.start db) scan.inventory.deps with
  | .error e => .error e
  | .ok s =>
    let gone := fun i => s.dependencies.rows.any fun p => uninstalled scan.inventory p && p.id = i
    .ok
      { dependencies := s.dependencies.delete (uninstalled scan.inventory)
        findings := s.findings.delete fun f => gone f.dependencyId
        cves := db.cves
        proposals := (db.proposals.delete fun p => gone p.dependencyId).mapRows
          (supersede s.dependencyState) (supersede_id s.dependencyState) }

end Kepryx.SelfSecurity
