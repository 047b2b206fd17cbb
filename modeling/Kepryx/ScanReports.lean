import Kepryx.DependencyScan
import Kepryx.Transactions
import Kepryx.UpdateWorkflow

/-!
# How a scan of the platform dependencies ends

`_scan_platform_deps` commits the status `running`, gathers the inventory and the answers of
OSV and PyPI inside a `try`, and then persists them in one transaction outside of it. An
exception while gathering is reported as `failed`; one while persisting rolls the transaction
back and leaves the status `running`.
-/
namespace Kepryx.ScanReports
open Kepryx.Models Kepryx.Tables Kepryx.SelfSecurity Kepryx.UpdateWorkflow
open Kepryx.Transactions Kepryx.DependencyScan

/-! ## The stored state -/

/-- The columns of `self_security_settings` that the task reads or writes. -/
structure ScanSettings where
  lastScanStatus : ScanStatus := .never
  lastScanError : Option String := none
  lastScanAt : Option Time := none
  lastSuccessfulScanAt : Option Time := none
  packagesScanned : ℕ := 0
  excludedPackages : List String := []
  notifyChannels : List String := ["slack", "email"]
  autoUpdateEnabled : Bool := false
  requireAdminApproval : Bool := true
  deriving DecidableEq, Repr

/-- An alert of the type `self_security`. -/
structure ScanAlert where
  severity : String
  total : ℕ
  critical : ℕ
  kev : ℕ
  packagesScanned : ℕ
  notificationChannels : List String
  isOpen : Bool := true
  resolvedAt : Option Time := none
  resolvedBy : Option String := none
  deriving DecidableEq, Repr

structure ScanStore where
  settings : ScanSettings
  db : ScanDatabase
  alerts : List ScanAlert
  deriving DecidableEq

/-- `_get_settings` keeps source changes switched off. -/
def getSettings (s : ScanSettings) : ScanSettings :=
  { s with autoUpdateEnabled := false, requireAdminApproval := true }

variable {V : Type} [LinearOrder V]

/-! ## The first phase -/

/-- What the outside world answers while the scan gathers; an exception is given by the name of
its class. -/
structure Answers (V : Type) where
  inventory : Except String Inventory
  osv : DepRecord → Except String (List OsvVuln)
  pypi : DepRecord → Except String (Option String)
  versions : VersionScheme V

/-- The loop over the packages that are not excluded; every answer counts. -/
def query (answers : Answers V) (excluded : List String) : List DepRecord → Except String Unit
  | [] => .ok ()
  | dep :: deps =>
    if dep.name ∈ excluded then query answers excluded deps
    else do
      let _ ← answers.osv dep
      let _ ← answers.pypi dep
      query answers excluded deps

/-- The block of the `try`: the gathered scan, or the name of the exception. -/
def gather (answers : Answers V) (excluded : List String) : Except String (Scan V) := do
  let inventory ← answers.inventory
  if inventory.deps = [] then throw "RuntimeError"
  query answers excluded inventory.deps
  return {
    inventory := inventory
    excluded := excluded
    versions := answers.versions
    vulns := fun dep => (answers.osv dep).toOption.getD []
    latest := fun dep => (answers.pypi dep).toOption.getD none }

omit [LinearOrder V] in
theorem gather_ok {answers : Answers V} {excluded : List String} {scan : Scan V}
    (h : gather answers excluded = .ok scan) :
    scan.inventory.deps ≠ [] ∧ scan.excluded = excluded := by
  unfold gather at h
  obtain ⟨inventory, _, h⟩ := Results.bind_eq_ok.mp h
  split at h
  · cases h
  · rename_i hne
    obtain ⟨_, _, h⟩ := Results.bind_eq_ok.mp h
    cases h
    exact ⟨hne, rfl⟩

/-! ## The second phase -/

/-- The view of the session that persists a scan. -/
structure ScanMemory where
  settings : ScanSettings
  scan : ScanState
  cves : Table CVE.id
  proposals : Table UpdateProposal.id
  kevIds : List String := []
  alerts : List ScanAlert

def backend : Backend ScanStore ScanMemory where
  load d :=
    { settings := d.settings
      scan := .start d.db
      cves := d.db.cves
      proposals := d.db.proposals
      alerts := d.alerts }
  stored m := ⟨m.settings, ⟨m.scan.dependencies, m.scan.findings, m.cves, m.proposals⟩, m.alerts⟩
  writable _ := true
  stored_load _ := rfl
  writable_load _ := rfl

/-- The steps of the second phase. -/
inductive PersistStep where
  | kevLookup
  | dependency (dep : DepRecord)
  | deleteUninstalled
  | supersede
  | reportSuccess
  | alert
  | commit
  deriving DecidableEq, Repr

/-- The alerts after a scan: a new one for critical or exploited findings, or else all open ones
resolved. -/
def updateAlerts (now : Time) (channels : List String) (packages : ℕ) (s : ScanState)
    (alerts : List ScanAlert) : List ScanAlert :=
  if 0 < s.criticalFindings ∨ 0 < s.kevCount then
    alerts ++ [{
      severity := if 0 < s.kevCount then "critical" else "high"
      total := s.totalFindings
      critical := s.criticalFindings
      kev := s.kevCount
      packagesScanned := packages
      notificationChannels := if channels = [] then ["slack"] else channels }]
  else alerts.map fun a =>
    if a.isOpen then
      { a with isOpen := false, resolvedAt := some now, resolvedBy := some "self-security-scan" }
    else a

/-- The settings after a scan that went through. -/
def successSettings (started now : Time) (packages : ℕ) (s : ScanSettings) : ScanSettings :=
  { getSettings s with
    lastScanStatus := .success
    lastScanError := none
    lastScanAt := some started
    lastSuccessfulScanAt := some now
    packagesScanned := packages }

/-- One step of the second phase on the view of the session. -/
def persistStep (started now : Time) (scan : Scan V) (step : PersistStep) (m : ScanMemory) :
    ScanMemory × Option Failure :=
  match step with
  | .kevLookup => ({ m with kevIds := SelfSecurity.kevIds m.cves scan }, none)
  | .dependency dep =>
    match syncDependency scan m.kevIds now m.scan dep with
    | .ok s => ({ m with scan := s }, none)
    | .error .multipleResultsFound => (m, some .python)
    | .error _ => (m, some .database)
  | .deleteUninstalled =>
    let gone := fun i => m.scan.dependencies.rows.any fun p =>
      uninstalled scan.inventory p && p.id = i
    ({ m with
      scan := { m.scan with
        dependencies := m.scan.dependencies.delete (uninstalled scan.inventory)
        findings := m.scan.findings.delete fun f => gone f.dependencyId }
      proposals := m.proposals.delete fun p => gone p.dependencyId }, none)
  | .supersede =>
    ({ m with
      proposals := m.proposals.mapRows (SelfSecurity.supersede m.scan.dependencyState)
        (supersede_id m.scan.dependencyState) }, none)
  | .reportSuccess =>
    ({ m with settings := successSettings started now scan.inventory.deps.length m.settings }, none)
  | .alert =>
    ({ m with
      alerts := updateAlerts now m.settings.notifyChannels scan.inventory.deps.length m.scan
        m.alerts }, none)
  | .commit => (m, none)

/-- The steps before the commit. -/
def persistSteps (scan : Scan V) : List PersistStep :=
  .kevLookup :: (scan.inventory.deps.map .dependency ++
    [.deleteUninstalled, .supersede, .reportSuccess, .alert])

/-- Where exceptions strike from outside: a step that is struck fails with what it had changed in
the session by then. -/
abbrev Faults := PersistStep → Option (Failure × (ScanMemory → ScanMemory))

/-- A step that can be struck. -/
def struckStep (faults : Faults) (started now : Time) (scan : Scan V) (step : PersistStep)
    (m : ScanMemory) : ScanMemory × Option Failure :=
  match faults step with
  | some (failure, half) => (half m, some failure)
  | none => persistStep started now scan step m

/-- The second phase in its own session: what is stored when the session is closed. -/
def persist (faults : Faults) (started now : Time) (scan : Scan V) (d : ScanStore) : ScanStore :=
  match (Session.start backend d).exec
      (forEach (struckStep faults started now scan) (persistSteps scan)) with
  | (s, some _) => s.committed
  | (s, none) =>
    match faults .commit with
    | some _ => s.committed
    | none => (s.commit backend).1.committed

/-! ## The task -/

/-- The settings that the first transaction commits. -/
def runningSettings (started : Time) (s : ScanSettings) : ScanSettings :=
  { getSettings s with
    lastScanStatus := .running
    lastScanError := none
    lastScanAt := some started }

/-- The settings that the `except` block commits. -/
def failedSettings (started : Time) (className : String) (s : ScanSettings) : ScanSettings :=
  { getSettings s with
    lastScanStatus := .failed
    lastScanError := some className
    lastScanAt := some started }

/-- `_scan_platform_deps`: what is stored when the task has ended. -/
def scanPlatformDeps (answers : Answers V) (faults : Faults) (started now : Time)
    (d : ScanStore) : ScanStore :=
  let running := { d with settings := runningSettings started d.settings }
  match gather answers d.settings.excludedPackages with
  | .error className =>
    { running with settings := failedSettings started className running.settings }
  | .ok scan => persist faults started now scan running

/-! ## What the second phase stores -/

/-- Nothing strikes the second phase. -/
def Undisturbed (faults : Faults) (scan : Scan V) : Prop :=
  (∀ step ∈ persistSteps scan, faults step = none) ∧ faults .commit = none

/-- Every installed package has at most one stored row, and OSV repeats for it only identifiers
of stored findings. -/
def Storable (scan : Scan V) (db : ScanDatabase) : Prop :=
  ∀ dep ∈ scan.inventory.deps, AtMostOne db.dependencies dep ∧ RepeatsStored scan (.start db) dep

theorem persistScan_ok_iff {now : Time} {scan : Scan V} {db : ScanDatabase} :
    (∃ db', persistScan now scan db = .ok db') ↔ Storable scan db := by
  constructor
  · rintro ⟨db', h⟩
    exact (persistScan_ok h).1
  · intro hstorable
    cases h : persistScan now scan db with
    | ok db' => exact ⟨db', rfl⟩
    | error e =>
      obtain ⟨before, dep, after, hdeps, _, hwhy⟩ := persistScan_error h
      have hdep := hstorable dep (by rw [hdeps]; simp)
      rcases hwhy with ⟨_, hmany⟩ | ⟨_, _, hrepeat⟩
      · exact absurd hdep.1 hmany
      · exact absurd hdep.2 hrepeat

section Persist
variable {faults : Faults} {started now : Time} {scan : Scan V} {d : ScanStore}

theorem struckStep_undisturbed {step : PersistStep} (h : faults step = none) (m : ScanMemory) :
    struckStep faults started now scan step m = persistStep started now scan step m := by
  simp [struckStep, h]

/-- The steps of the packages are the loop of the scan. -/
theorem forEach_dependencies {deps : List DepRecord} {rest : List PersistStep} {m : ScanMemory}
    {s : ScanState} (hfaults : ∀ dep ∈ deps, faults (.dependency dep) = none)
    (h : syncAll scan m.kevIds now m.scan deps = .ok s) :
    forEach (struckStep faults started now scan) (deps.map .dependency ++ rest) m =
      forEach (struckStep faults started now scan) rest { m with scan := s } := by
  induction deps generalizing m with
  | nil =>
    cases h
    rfl
  | cons dep deps ih =>
    rw [List.forall_mem_cons] at hfaults
    simp only [List.map_cons, List.cons_append, forEach, struckStep_undisturbed hfaults.1,
      persistStep]
    rw [syncAll] at h
    split at h
    · cases h
    · rename_i s₁ hs₁
      simp only [hs₁]
      exact ih hfaults.2 (m := { m with scan := s₁ }) h

theorem forEach_dependencies_error {deps : List DepRecord} {rest : List PersistStep}
    {m : ScanMemory} {e : DbError} (hfaults : ∀ dep ∈ deps, faults (.dependency dep) = none)
    (h : syncAll scan m.kevIds now m.scan deps = .error e) :
    (forEach (struckStep faults started now scan) (deps.map .dependency ++ rest) m).2 ≠ none := by
  induction deps generalizing m with
  | nil => cases h
  | cons dep deps ih =>
    rw [List.forall_mem_cons] at hfaults
    simp only [List.map_cons, List.cons_append, forEach, struckStep_undisturbed hfaults.1,
      persistStep]
    rw [syncAll] at h
    split at h
    · rename_i e' he'
      simp only [he']
      cases e' <;> simp
    · rename_i s₁ hs₁
      simp only [hs₁]
      exact ih hfaults.2 (m := { m with scan := s₁ }) h

/-- A phase with a failing step stores nothing. -/
theorem persist_of_failed
    (h : (forEach (struckStep faults started now scan) (persistSteps scan)
      (backend.load d)).2 ≠ none) : persist faults started now scan d = d := by
  have hfails := Session.exec_failed (s := Session.start backend d) rfl h
  unfold persist
  split
  · rename_i s failure hexec
    exact (congrArg (fun r => r.1.committed) hexec).symm.trans (Session.exec_committed _ _)
  · rename_i s hexec
    exact absurd (congrArg Prod.snd hexec) hfails

variable (started) in
/-- Without a strike the steps compute what `persistScan` does. -/
theorem forEach_persistSteps {s : ScanState}
    (hsteps : ∀ step ∈ persistSteps scan, faults step = none)
    (hs : syncAll scan (SelfSecurity.kevIds d.db.cves scan) now (.start d.db)
      scan.inventory.deps = .ok s) :
    ∃ m, forEach (struckStep faults started now scan) (persistSteps scan) (backend.load d) =
        (m, none) ∧
      m.settings = successSettings started now scan.inventory.deps.length d.settings ∧
      m.alerts = updateAlerts now d.settings.notifyChannels scan.inventory.deps.length s
        d.alerts ∧
      persistScan now scan d.db = .ok (backend.stored m).db := by
  simp only [persistSteps, List.forall_mem_cons, List.forall_mem_append,
    List.forall_mem_map] at hsteps
  obtain ⟨hkev, hdeps, hdelete, hsupersede, hreport, halert, _⟩ := hsteps
  refine ⟨?m, ?run, ?_, ?_, ?_⟩
  case run =>
    simp only [persistSteps, forEach, struckStep_undisturbed hkev, persistStep]
    rw [forEach_dependencies hdeps hs]
    simp only [forEach, struckStep_undisturbed hdelete, struckStep_undisturbed hsupersede,
      struckStep_undisturbed hreport, struckStep_undisturbed halert, persistStep]
    rfl
  · rfl
  · rfl
  · rw [persistScan, hs]
    rfl

/-- What the task has stored after a scan that went through. -/
structure Completed (started now : Time) (scan : Scan V) (d d' : ScanStore) : Prop where
  rows : persistScan now scan d.db = .ok d'.db
  settings : d'.settings = successSettings started now scan.inventory.deps.length d.settings
  alerts : ∃ s, syncAll scan (SelfSecurity.kevIds d.db.cves scan) now (.start d.db)
      scan.inventory.deps = .ok s ∧
    d'.alerts = updateAlerts now d.settings.notifyChannels scan.inventory.deps.length s d.alerts

/-- An undisturbed phase stores all its changes in one commit. -/
theorem persist_undisturbed (hfaults : Undisturbed faults scan) (hdata : Storable scan d.db) :
    Completed started now scan d (persist faults started now scan d) := by
  obtain ⟨db, hdb⟩ : ∃ db, persistScan now scan d.db = .ok db := persistScan_ok_iff.mpr hdata
  cases hs : syncAll scan (SelfSecurity.kevIds d.db.cves scan) now (.start d.db)
    scan.inventory.deps with
  | error e => simp [persistScan, hs] at hdb
  | ok s =>
    obtain ⟨m, hrun, hsettings, halerts, hrows⟩ :=
      forEach_persistSteps started hfaults.1 hs
    have hpersist : persist faults started now scan d = backend.stored m := by
      simp only [persist, Session.exec_ok (s := Session.start backend d) rfl hrun, hfaults.2]
      rw [Session.commit_writable rfl rfl]
    rw [hpersist]
    exact ⟨hrows, hsettings, s, hs, halerts⟩

/-- A phase that is struck, or whose data cannot be stored, stores nothing. -/
theorem persist_disturbed (h : ¬ (Undisturbed faults scan ∧ Storable scan d.db)) :
    persist faults started now scan d = d := by
  by_cases hsteps : ∀ step ∈ persistSteps scan, faults step = none
  · by_cases hdata : Storable scan d.db
    · have hcommit : faults .commit ≠ none := fun hnone => h ⟨⟨hsteps, hnone⟩, hdata⟩
      obtain ⟨fault, hfault⟩ := Option.ne_none_iff_exists'.mp hcommit
      unfold persist
      split
      · rename_i s failure hexec
        exact (congrArg (fun r => r.1.committed) hexec).symm.trans (Session.exec_committed _ _)
      · rename_i s hexec
        simp only [hfault]
        exact (congrArg (fun r => r.1.committed) hexec).symm.trans (Session.exec_committed _ _)
    · apply persist_of_failed
      simp only [persistSteps, List.forall_mem_cons, List.forall_mem_append,
        List.forall_mem_map] at hsteps
      have herror : ∀ db, persistScan now scan d.db ≠ .ok db := fun db hdb =>
        hdata (persistScan_ok_iff.mp ⟨db, hdb⟩)
      simp only [persistSteps, forEach, struckStep_undisturbed hsteps.1, persistStep]
      cases hs : syncAll scan (SelfSecurity.kevIds d.db.cves scan) now (.start d.db)
        scan.inventory.deps with
      | ok s => exact absurd (by rw [persistScan, hs]) (herror _)
      | error e => exact forEach_dependencies_error hsteps.2.1 hs
  · push Not at hsteps
    obtain ⟨step, hstep, hstruck⟩ := hsteps
    refine persist_of_failed (forEach_fails hstep (fun m => ?_) _)
    obtain ⟨⟨failure, half⟩, hfault⟩ := Option.ne_none_iff_exists'.mp hstruck
    simp [struckStep, hfault]

end Persist

/-! ## How the task ends -/

/-- Without strikes the task stores the rows that the scan of the update workflow does. -/
theorem scanPlatformDeps_rows (answers : Answers V) (started now : Time) (d : ScanStore) :
    (scanPlatformDeps answers (fun _ => none) started now d).db =
      (UpdateWorkflow.scanPlatformDeps now
        (gather answers d.settings.excludedPackages).toOption
        { settings := { excludedPackages := d.settings.excludedPackages }, db := d.db }).db := by
  unfold scanPlatformDeps UpdateWorkflow.scanPlatformDeps
  cases hgather : gather answers d.settings.excludedPackages with
  | error className => rfl
  | ok scan =>
    obtain ⟨hne, hexcluded⟩ := gather_ok hgather
    have hscan : { scan with excluded := d.settings.excludedPackages } = scan := by
      rw [← hexcluded]
    simp only [Except.toOption, hne, ↓reduceIte, hscan]
    cases hpersist : persistScan now scan d.db with
    | ok db =>
      have hcompleted : Completed started now scan
          { d with settings := runningSettings started d.settings }
          (persist (fun _ => none) started now scan
            { d with settings := runningSettings started d.settings }) :=
        persist_undisturbed ⟨fun _ _ => rfl, rfl⟩ (persistScan_ok_iff.mp ⟨db, hpersist⟩)
      have hrows := hcompleted.rows
      simp only [hpersist, Except.ok.injEq] at hrows
      exact hrows.symm
    | error e =>
      rw [persist_disturbed]
      rintro ⟨_, hdata⟩
      obtain ⟨db, hdb⟩ : ∃ db, persistScan now scan d.db = .ok db := persistScan_ok_iff.mpr hdata
      simp [hpersist] at hdb

end Kepryx.ScanReports
