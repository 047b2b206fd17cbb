import Kepryx.IntegrationSync
import Kepryx.NmapXml
import Kepryx.ScanBoundary

/-!
# A pass over the scan networks

One session serves all networks of a pass. The handler of a failed network rolls back, records
the failure and commits it, and then names the network in the log. A rollback of a transaction
that has begun expires the objects of the session, and an expired attribute is not read outside
an awaited load: the log statement raises, and the pass ends there.
-/
namespace Kepryx.ScanPass
open Kepryx.IpNetworks Kepryx.Models Kepryx.NmapXml Kepryx.Runs Kepryx.ScanBoundary
open Kepryx.Transactions

variable {δ σ : Type*}

/-! ## A session that expires its objects -/

/-- What is committed, the view, whether a transaction has begun, and whether the objects that
were loaded so far are expired. -/
structure Session (δ σ : Type*) where
  committed : δ
  memory : σ
  active : Bool
  expired : Bool := false

namespace Session
variable {B : Backend δ σ} {s : Session δ σ}

def assign (s : Session δ σ) (f : σ → σ) : Session δ σ :=
  { s with memory := f s.memory, active := true }

/-- Flush and commit, and whether the database takes it; the attributes stay loaded. -/
def commit (B : Backend δ σ) (s : Session δ σ) : Session δ σ × Bool :=
  if B.writable s.memory then ({ s with committed := B.stored s.memory, active := false }, true)
  else ({ s with active := true }, false)

/-- Without a transaction there is nothing to roll back. -/
def rollback (B : Backend δ σ) (s : Session δ σ) : Session δ σ :=
  if s.active then { s with memory := B.load s.committed, active := false, expired := true } else s

/-- Nothing is pending and nothing is expired. -/
structure Settled (B : Backend δ σ) (s : Session δ σ) : Prop where
  committed : s.committed = B.stored s.memory
  writable : B.writable s.memory
  fresh : s.expired = false

theorem commit_writable (h : B.writable s.memory) :
    s.commit B = ({ s with committed := B.stored s.memory, active := false }, true) := if_pos h

theorem commit_not_writable (h : B.writable s.memory = false) :
    s.commit B = ({ s with active := true }, false) := by
  unfold commit
  rw [h]
  rfl

end Session

/-! ## Rows -/

inductive Status where
  | pending | running | completed | failed
  deriving DecidableEq, Repr

/-- A row of `scans`, without its output. -/
structure Scan where
  scanType : String
  target : String
  status : Status
  startedAt : Option Time := none
  completedAt : Option Time := none
  hostsFound : ℕ := 0
  error : Option String := none
  triggeredBy : String
  deriving DecidableEq, Repr

/-- A row of `scan_networks`. -/
structure NetworkRow extends ScanNetwork where
  name : String

/-- The scans, and the assets and alerts. -/
structure Stored (ι : Type*) where
  scans : List Scan
  inventory : ι

/-- A session on the assets and alerts that also holds the scans. -/
def withScans (B : Backend δ σ) : Backend (Stored δ) (Stored σ) where
  load d := ⟨d.scans, B.load d.inventory⟩
  stored m := ⟨m.scans, B.stored m.inventory⟩
  writable m := B.writable m.inventory
  stored_load d := by rw [B.stored_load]
  writable_load d := B.writable_load d.inventory

/-- The dictionary that is reconciled for a host. -/
structure HostDict where
  ip : String
  mac : Option String
  hostname : Option String
  name : String
  osGuess : Option String
  type : String
  segment : String
  softwareStack : List String
  cpe : List (Option String)
  services : List PortService
  macVendor : Option String

def hostDict (network : NetworkRow) (host : DiscoveredHost) : HostDict where
  ip := host.ip
  mac := host.mac
  hostname := host.hostname
  name := (host.hostname.filter (· ≠ "")).getD host.ip
  osGuess := host.osGuess
  type := "Unknown"
  segment := network.name
  softwareStack := host.services.filterMap fun s => s.product.filter (· ≠ "")
  cpe := host.services.flatMap PortService.cpe
  services := host.services
  macVendor := host.macVendor

/-- How `reconcile_host` ends: with a new view, or by an exception before or after its first
statement has begun a transaction. -/
inductive Reconciled (σ : Type*) where
  | done (memory : σ)
  | raised (began : Bool) (error : String)

/-- The surroundings of a pass: nmap, the reconciler, what the database says where it refuses a
commit, and the clock. -/
structure Environment (σ : Type*) where
  discover : NetworkRow → Except String (List DiscoveredHost)
  reconcileHost : String → HostDict → σ → Reconciled σ
  refusal : σ → String
  now : Time

/-- The settings that a pass reads. -/
structure PassSettings where
  scanNetworks : List String
  maxScanHosts : ℕ
  scanTimeoutSec : ℤ

variable (T : Texts) (settings : PassSettings) (B : Backend δ σ) (env : Environment σ)

/-! ## One network -/

/-- The loop over the hosts: the view and whether a transaction has begun, or the exception. -/
def reconcileHosts (network : NetworkRow) : List DiscoveredHost → σ → Bool →
    (σ × Bool) ⊕ (Bool × String)
  | [], memory, began => .inl (memory, began)
  | host :: hosts, memory, began =>
    match env.reconcileHost "nmap_scan" (hostDict network host) memory with
    | .done memory => reconcileHosts network hosts memory true
    | .raised began' error => .inr (began || began', error)

def newScan (network : NetworkRow) : Scan where
  scanType := "discovery"
  target := network.cidr
  status := .running
  startedAt := some env.now
  triggeredBy := "scheduler"

def markCompleted (hosts : ℕ) (scan : Scan) : Scan :=
  { scan with status := .completed, hostsFound := hosts, completedAt := some env.now }

/-- `str(e)[:1000]` -/
def markFailed (error : String) (scan : Scan) : Scan :=
  { scan with
    status := .failed
    error := some (String.ofList (error.toList.take 1000))
    completedAt := some env.now }

/-- Change the object of the `n`th scan. -/
def onScan (n : ℕ) (f : Scan → Scan) (m : Stored σ) : Stored σ :=
  { m with scans := m.scans.modify n f }

/-- A pass between two networks, and whether an exception has left it. -/
structure Pass (δ σ : Type*) where
  session : Session (Stored δ) (Stored σ)
  scanned : ℕ := 0
  failed : ℕ := 0
  totalHosts : ℕ := 0
  raised : Bool := false

/-- The `except` block: the log statement reads the network. -/
def handleFailure (n : ℕ) (error : String) (pass : Pass δ σ) : Pass δ σ :=
  let (session, ok) := (((pass.session.rollback (withScans B)).assign
    (onScan n (markFailed env error)))).commit (withScans B)
  { pass with session := session, failed := pass.failed + 1, raised := !ok || session.expired }

/-- The `try` block, and the handler of its exceptions. -/
def scanNetwork (network : NetworkRow) (n : ℕ) (pass : Pass δ σ) : Pass δ σ :=
  match env.discover network with
  | .error error => handleFailure B env n error pass
  | .ok hosts =>
    match reconcileHosts env network hosts pass.session.memory.inventory pass.session.active with
    | .inr (began, error) =>
      handleFailure B env n error
        { pass with session := { pass.session with active := began } }
    | .inl (memory, _) =>
      let session := pass.session.assign fun m =>
        onScan n (markCompleted env hosts.length) { m with inventory := memory }
      let pass := { pass with totalHosts := pass.totalHosts + hosts.length }
      match session.commit (withScans B) with
      | (session, true) => { pass with session := session }
      | (session, false) =>
        handleFailure B env n (env.refusal memory) { pass with session := session }

/-- One turn of the loop in `_run_all_network_scans`. -/
def turn (pass : Pass δ σ) (network : NetworkRow) : Pass δ σ :=
  if pass.raised then pass
  else if pass.session.expired then { pass with raised := true }
  else match authorizeScanNetwork T settings.scanNetworks settings.maxScanHosts network.cidr with
    | .error (.authorization _) => pass
    | .error .value => { pass with raised := true }
    | .ok _ =>
      let n := pass.session.memory.scans.length
      let added := pass.session.assign fun m => { m with scans := m.scans ++ [newScan env network] }
      match added.commit (withScans B) with
      | (session, true) =>
        scanNetwork B env network n { pass with session := session, scanned := pass.scanned + 1 }
      | (session, false) => { pass with session := session, raised := true }

/-! ## The pass -/

/-- A scan that was left running by a worker that stopped. -/
def isStale (scan : Scan) : Bool :=
  scan.status = .running &&
    scan.startedAt.any fun started => started < env.now - settings.scanTimeoutSec * 2

def recoverScan (scan : Scan) : Scan :=
  if isStale settings env scan then
    { scan with
      status := .failed
      error := some "recovered stale scan after worker interruption"
      completedAt := some env.now }
  else scan

def recovered (scans : List Scan) : ℕ := scans.countP (isStale settings env)

/-- What the pass returns. -/
structure Report where
  status : String
  networksScanned : ℕ
  failedNetworks : Option ℕ := none
  totalHosts : ℕ
  recoveredStale : ℕ
  error : Option String := none
  deriving DecidableEq, Repr

def report (recovered : ℕ) (pass : Pass δ σ) : Report :=
  if pass.scanned = 0 then
    { status := "blocked"
      networksScanned := 0
      totalHosts := 0
      recoveredStale := recovered
      error := some "no enabled scan network is authorized by SCAN_NETWORKS" }
  else
    { status := if pass.failed = 0 then "completed"
        else if pass.failed = pass.scanned then "failed" else "partial"
      networksScanned := pass.scanned
      failedNetworks := some pass.failed
      totalHosts := pass.totalHosts
      recoveredStale := recovered }

/-- The session once the stale scans are recovered. -/
def recoverStale (d : Stored δ) : Session (Stored δ) (Stored σ) :=
  let loaded : Session (Stored δ) (Stored σ) := ⟨d, (withScans B).load d, true, false⟩
  if recovered settings env d.scans = 0 then loaded
  else ((loaded.assign fun m => { m with
    scans := m.scans.map (recoverScan settings env) }).commit (withScans B)).1

/-- `_run_all_network_scans`: what is committed in the end, and the report unless it raises. -/
def runAllNetworkScans (networks : List NetworkRow) (d : Stored δ) : Stored δ × Option Report :=
  let pass := run (turn T settings B env) ⟨recoverStale settings B env d, 0, 0, 0, false⟩
    (networks.filter fun network => network.enabled)
  (pass.session.committed,
    if pass.raised then none else some (report (recovered settings env d.scans) pass))

/-! ## What a pass should do -/

/-- How a network ends, seen from the view that its turn starts with. -/
inductive Outcome (σ : Type*) where
  | completed (hosts : ℕ) (memory : σ)
  | failed (began : Bool) (error : String)

/-- A network fails when nmap does, when reconciling one of its hosts does, or when the database
refuses what its hosts changed. -/
def outcome (network : NetworkRow) (memory : σ) : Outcome σ :=
  match env.discover network with
  | .error error => .failed false error
  | .ok hosts =>
    match reconcileHosts env network hosts memory false with
    | .inr (began, error) => .failed began error
    | .inl (memory, _) =>
      if B.writable memory then .completed hosts.length memory
      else .failed true (env.refusal memory)

def authorized (network : NetworkRow) : Bool :=
  (authorizeScanNetwork T settings.scanNetworks settings.maxScanHosts
    network.cidr).toOption.isSome

/-- The networks that a pass should scan. -/
def toScan (networks : List NetworkRow) : List NetworkRow :=
  (networks.filter fun network => network.enabled).filter (authorized T settings)

/-- One row for each network, and what is committed of the assets and alerts in the end: a
network that is completed commits what its hosts changed, one that fails leaves no change. -/
inductive Ended : List NetworkRow → σ → List Scan → δ → Prop
  | none (memory : σ) : Ended [] memory [] (B.stored memory)
  | completed {network networks memory memory' hosts row rows inventory}
      (houtcome : outcome B env network memory = .completed hosts memory')
      (htarget : row.target = network.cidr) (hstatus : row.status = .completed)
      (hhosts : row.hostsFound = hosts) (hrest : Ended networks memory' rows inventory) :
      Ended (network :: networks) memory (row :: rows) inventory
  | failed {network networks memory began error row rows inventory}
      (houtcome : outcome B env network memory = .failed began error)
      (htarget : row.target = network.cidr) (hstatus : row.status = .failed)
      (hhosts : row.hostsFound = 0) (hrest : Ended networks memory rows inventory) :
      Ended (network :: networks) memory (row :: rows) inventory

/-- The counts of a report are those of the rows. -/
structure Matches (rows : List Scan) (report : Report) : Prop where
  scanned : report.networksScanned = rows.length
  failed : report.failedNetworks.getD 0 = rows.countP fun row => row.status = .failed
  hosts : report.totalHosts = (rows.map Scan.hostsFound).sum

/-- Each network that is authorized has its row, the others have none, and the report is that of
the rows. -/
def Unspoiled (networks : List NetworkRow) (d : Stored δ) : Prop :=
  ∃ rows, (runAllNetworkScans T settings B env networks d).1.scans =
      d.scans.map (recoverScan settings env) ++ rows ∧
    Ended B env (toScan T settings networks) (B.load d.inventory) rows
      (runAllNetworkScans T settings B env networks d).1.inventory ∧
    ∃ report, (runAllNetworkScans T settings B env networks d).2 = some report ∧
      Matches rows report

/-- The view with which the next network starts. -/
def advance (memory : σ) (network : NetworkRow) : σ :=
  match outcome B env network memory with
  | .completed _ memory' => memory'
  | .failed _ _ => memory

/-- The network does not fail once a transaction has begun. -/
def Harmless (memory : σ) (network : NetworkRow) : Prop :=
  match outcome B env network memory with
  | .failed began _ => began = false
  | .completed _ _ => True

/-! ## One turn -/

section Turn
variable {T settings B env}

/-- The loop goes on with nothing pending. -/
structure Ready (B : Backend δ σ) (pass : Pass δ σ) : Prop where
  running : pass.raised = false
  settled : Session.Settled (withScans B) pass.session

theorem modify_append_length {α : Type*} (xs : List α) (x : α) (f : α → α) :
    (xs ++ [x]).modify xs.length f = xs ++ [f x] := by
  induction xs with
  | nil => rfl
  | cons a xs ih => rw [List.cons_append, List.length_cons, List.modify_succ_cons, ih]; rfl

/-- Only a text of another range ends in the other exception, and a range is printed as one. -/
theorem authorizeScanNetwork_ne_value {allowed : List String} {maxHosts : ℕ} {cidr : String} :
    authorizeScanNetwork T allowed maxHosts cidr ≠ .error .value := by
  intro h
  unfold authorizeScanNetwork normalizeScanNetwork at h
  cases hread : T.network false cidr with
  | none => simp [hread] at h
  | some n =>
    have hfind : ∀ values : List String, findAllowed T (admitsNetwork n)
        "scan target is outside the authorized SCAN_NETWORKS boundary" values ≠ .error .value := by
      intro values
      induction values with
      | nil => simp [findAllowed]
      | cons value values ih =>
        unfold findAllowed
        split
        · simp
        · split
          · simp
          · exact ih
    have hcanonical : T.network true (T.networkText n) = some n := T.network_text hread true
    by_cases hsize : maxHosts < n.numAddresses
    · simp [hread, hcanonical, hsize] at h
    · by_cases hempty : allowed = []
      · simp [hread, hcanonical, hsize, hempty] at h
      · simp only [hread, Results.ok_bind, hcanonical, if_neg hsize, if_neg hempty] at h
        rcases Results.bind_eq_error.mp h with h | ⟨u, -, h⟩
        · exact hfind _ h
        · cases h

theorem turn_unauthorized {pass : Pass δ σ} (hready : Ready B pass) {network : NetworkRow}
    (h : authorized T settings network = false) :
    turn T settings B env pass network = pass := by
  unfold turn
  rw [hready.running, hready.settled.fresh]
  simp only [Bool.false_eq_true, if_false]
  cases hauth : authorizeScanNetwork T settings.scanNetworks settings.maxScanHosts network.cidr with
  | ok text => simp [authorized, hauth, Except.toOption] at h
  | error error =>
    cases error with
    | authorization message => rfl
    | value => exact absurd hauth authorizeScanNetwork_ne_value

/-- The pass once the row of a network is committed. -/
def begun (B : Backend δ σ) (env : Environment σ) (pass : Pass δ σ) (network : NetworkRow) :
    Pass δ σ :=
  { pass with
    session :=
      { committed := ⟨pass.session.memory.scans ++ [newScan env network],
          B.stored pass.session.memory.inventory⟩
        memory := ⟨pass.session.memory.scans ++ [newScan env network],
          pass.session.memory.inventory⟩
        active := false }
    scanned := pass.scanned + 1
    raised := false }

/-- The turn of a network that is authorized, from the commit of its row on. -/
theorem turn_authorized {pass : Pass δ σ} (hready : Ready B pass) {network : NetworkRow}
    (h : authorized T settings network = true) :
    turn T settings B env pass network =
      scanNetwork B env network pass.session.memory.scans.length (begun B env pass network) := by
  unfold turn
  rw [hready.running, hready.settled.fresh]
  simp only [Bool.false_eq_true, if_false]
  cases hauth : authorizeScanNetwork T settings.scanNetworks settings.maxScanHosts network.cidr with
  | error error => simp [authorized, hauth, Except.toOption] at h
  | ok text =>
    have hcommit := Session.commit_writable (B := withScans B)
      (s := pass.session.assign fun m => { m with scans := m.scans ++ [newScan env network] })
      hready.settled.writable
    dsimp only
    rw [hcommit]
    simp only [Session.assign, hready.settled.fresh]
    rfl

/-- The handler after an exception before a transaction: the failure is committed, nothing else. -/
theorem handleFailure_quiet {pass : Pass δ σ} (hactive : pass.session.active = false)
    (hfresh : pass.session.expired = false)
    (hwritable : B.writable pass.session.memory.inventory) (n : ℕ) (error : String) :
    handleFailure B env n error pass =
      { pass with
        session :=
          { committed := ⟨pass.session.memory.scans.modify n (markFailed env error),
              B.stored pass.session.memory.inventory⟩
            memory := ⟨pass.session.memory.scans.modify n (markFailed env error),
              pass.session.memory.inventory⟩
            active := false
            expired := false }
        failed := pass.failed + 1
        raised := false } := by
  have hrollback : pass.session.rollback (withScans B) = pass.session := by
    unfold Session.rollback
    rw [hactive]
    rfl
  have hcommit := Session.commit_writable (B := withScans B)
    (s := pass.session.assign (onScan n (markFailed env error))) hwritable
  unfold handleFailure
  rw [hrollback, hcommit]
  simp only [Session.assign, hfresh]
  rfl

/-- After an exception within a transaction the handler raises. -/
theorem handleFailure_active {pass : Pass δ σ} (hactive : pass.session.active = true) (n : ℕ)
    (error : String) : (handleFailure B env n error pass).raised = true := by
  have hrollback : (pass.session.rollback (withScans B)).expired = true := by
    unfold Session.rollback
    rw [hactive]
    rfl
  unfold handleFailure Session.commit
  split
  · rename_i session ok hcommit
    split at hcommit
    · cases hcommit
      simp only [Session.assign, hrollback, Bool.or_true]
    · cases hcommit
      rfl

theorem outcome_completed {network : NetworkRow} {memory memory' : σ} {hosts : ℕ}
    (h : outcome B env network memory = .completed hosts memory') :
    ∃ found began, env.discover network = .ok found ∧ found.length = hosts ∧
      reconcileHosts env network found memory false = .inl (memory', began) ∧
      B.writable memory' := by
  unfold outcome at h
  cases hdiscover : env.discover network with
  | error error => simp [hdiscover] at h
  | ok found =>
    rw [hdiscover] at h
    dsimp only at h
    cases hhosts : reconcileHosts env network found memory false with
    | inr p => simp [hhosts] at h
    | inl p =>
      obtain ⟨memory'', began⟩ := p
      rw [hhosts] at h
      dsimp only at h
      split at h
      · rename_i hwritable
        cases h
        exact ⟨found, began, rfl, rfl, hhosts, hwritable⟩
      · cases h

variable {pass : Pass δ σ} {network : NetworkRow}

/-- The scans that are committed are those of the session. -/
theorem Ready.scans (h : Ready B pass) : pass.session.memory.scans = pass.session.committed.scans :=
  (congrArg Stored.scans h.settled.committed).symm

/-- What a turn leaves that the loop goes on after. -/
structure Turned (B : Backend δ σ) (pass pass' : Pass δ σ) (memory : σ) (row : Scan) : Prop where
  ready : Ready B pass'
  memory : pass'.session.memory.inventory = memory
  scans : pass'.session.committed.scans = pass.session.committed.scans ++ [row]
  scanned : pass'.scanned = pass.scanned + 1

theorem turn_completed (hready : Ready B pass) (hauth : authorized T settings network = true)
    {hosts : ℕ} {memory : σ}
    (houtcome : outcome B env network pass.session.memory.inventory = .completed hosts memory) :
    Turned B pass (turn T settings B env pass network) memory
        (markCompleted env hosts (newScan env network)) ∧
      (turn T settings B env pass network).failed = pass.failed ∧
      (turn T settings B env pass network).totalHosts = pass.totalHosts + hosts := by
  obtain ⟨found, began, hdiscover, rfl, hhosts, hwritable⟩ := outcome_completed houtcome
  have hloop : reconcileHosts env network found (begun B env pass network).session.memory.inventory
      (begun B env pass network).session.active = .inl (memory, began) := hhosts
  rw [turn_authorized hready hauth]
  unfold scanNetwork
  rw [hdiscover]
  dsimp only
  rw [hloop]
  dsimp only
  have hcommit : ∀ s : Session (Stored δ) (Stored σ), B.writable s.memory.inventory →
      s.commit (withScans B) =
        ({ s with committed := (withScans B).stored s.memory, active := false }, true) :=
    fun s hs => Session.commit_writable (B := withScans B) hs
  rw [hcommit _ hwritable]
  refine ⟨⟨⟨rfl, ⟨rfl, hwritable, rfl⟩⟩, rfl, ?_, rfl⟩, rfl, rfl⟩
  simp only [begun, Session.assign, onScan, withScans, modify_append_length, hready.scans]

theorem turn_quiet (hready : Ready B pass) (hauth : authorized T settings network = true)
    {error : String}
    (houtcome : outcome B env network pass.session.memory.inventory = .failed false error) :
    Turned B pass (turn T settings B env pass network) pass.session.memory.inventory
        (markFailed env error (newScan env network)) ∧
      (turn T settings B env pass network).failed = pass.failed + 1 ∧
      (turn T settings B env pass network).totalHosts = pass.totalHosts := by
  have hhandled : turn T settings B env pass network =
      handleFailure B env pass.session.memory.scans.length error (begun B env pass network) := by
    rw [turn_authorized hready hauth]
    unfold outcome at houtcome
    unfold scanNetwork
    cases hdiscover : env.discover network with
    | error error' =>
      rw [hdiscover] at houtcome
      cases houtcome
      rfl
    | ok found =>
      rw [hdiscover] at houtcome
      dsimp only [begun] at houtcome ⊢
      cases hhosts : reconcileHosts env network found pass.session.memory.inventory false with
      | inr p =>
        obtain ⟨began, error'⟩ := p
        rw [hhosts] at houtcome
        cases houtcome
        rfl
      | inl p =>
        rw [hhosts] at houtcome
        dsimp only at houtcome
        split at houtcome
        · cases houtcome
        · cases houtcome
  have hwritable : B.writable (begun B env pass network).session.memory.inventory :=
    hready.settled.writable
  rw [hhandled, handleFailure_quiet rfl rfl hwritable]
  refine ⟨⟨⟨rfl, ⟨rfl, hready.settled.writable, rfl⟩⟩, rfl, ?_, rfl⟩, rfl, rfl⟩
  simp only [begun, modify_append_length, hready.scans]

/-- A failure within a transaction ends the pass. -/
theorem turn_raised (hready : Ready B pass) (hauth : authorized T settings network = true)
    {error : String}
    (houtcome : outcome B env network pass.session.memory.inventory = .failed true error) :
    (turn T settings B env pass network).raised = true := by
  rw [turn_authorized hready hauth]
  unfold outcome at houtcome
  unfold scanNetwork
  cases hdiscover : env.discover network with
  | error error' =>
    rw [hdiscover] at houtcome
    cases houtcome
  | ok found =>
    rw [hdiscover] at houtcome
    dsimp only [begun] at houtcome ⊢
    cases hhosts : reconcileHosts env network found pass.session.memory.inventory false with
    | inr p =>
      obtain ⟨began, error'⟩ := p
      rw [hhosts] at houtcome
      cases houtcome
      exact handleFailure_active rfl _ _
    | inl p =>
      obtain ⟨memory, began⟩ := p
      rw [hhosts] at houtcome
      dsimp only at houtcome ⊢
      split at houtcome
      · cases houtcome
      · rename_i hwritable
        have hrefused : ∀ s : Session (Stored δ) (Stored σ), B.writable s.memory.inventory = false →
            s.commit (withScans B) = ({ s with active := true }, false) :=
          fun s hs => Session.commit_not_writable (B := withScans B) hs
        rw [hrefused _ (Bool.eq_false_iff.mpr hwritable)]
        exact handleFailure_active rfl _ _

theorem turn_of_raised (h : pass.raised = true) (network : NetworkRow) :
    turn T settings B env pass network = pass := by
  unfold turn
  rw [h]
  rfl

theorem run_of_raised (h : pass.raised = true) (networks : List NetworkRow) :
    run (turn T settings B env) pass networks = pass := by
  induction networks with
  | nil => rfl
  | cons network networks ih => rw [run_cons, turn_of_raised h, ih]

end Turn

/-! ## The whole loop -/

section Loop
variable {T settings B env}

/-- What the loop leaves where no network fails within a transaction. -/
structure Finished (B : Backend δ σ) (env : Environment σ) (networks : List NetworkRow)
    (pass pass' : Pass δ σ) (rows : List Scan) : Prop where
  ready : Ready B pass'
  scans : pass'.session.committed.scans = pass.session.committed.scans ++ rows
  ended : Ended B env networks pass.session.memory.inventory rows pass'.session.committed.inventory
  scanned : pass'.scanned = pass.scanned + rows.length
  failed : pass'.failed = pass.failed + rows.countP fun row => row.status = .failed
  hosts : pass'.totalHosts = pass.totalHosts + (rows.map Scan.hostsFound).sum

theorem advance_of_completed {network : NetworkRow} {memory memory' : σ} {hosts : ℕ}
    (h : outcome B env network memory = .completed hosts memory') :
    advance B env memory network = memory' := by
  simp only [advance, h]

theorem advance_of_failed {network : NetworkRow} {memory : σ} {began : Bool} {error : String}
    (h : outcome B env network memory = .failed began error) :
    advance B env memory network = memory := by
  simp only [advance, h]

/-- By induction on the networks: the turn of each is the one of its outcome. -/
theorem run_harmless {networks : List NetworkRow} {pass : Pass δ σ} (hready : Ready B pass)
    (h : Along (advance B env) (Harmless B env) pass.session.memory.inventory
      (networks.filter (authorized T settings))) :
    ∃ rows, Finished B env (networks.filter (authorized T settings)) pass
      (run (turn T settings B env) pass networks) rows := by
  induction networks generalizing pass with
  | nil =>
    refine ⟨[], hready, (List.append_nil _).symm, ?_, rfl, rfl, rfl⟩
    have hinventory : pass.session.committed.inventory =
        B.stored pass.session.memory.inventory :=
      congrArg Stored.inventory hready.settled.committed
    rw [run_nil, hinventory]
    exact .none _
  | cons network networks ih =>
    rw [run_cons]
    by_cases hauth : authorized T settings network = true
    · rw [List.filter_cons_of_pos hauth] at h ⊢
      obtain ⟨hthis, hrest⟩ := h
      cases houtcome : outcome B env network pass.session.memory.inventory with
      | completed hosts memory =>
        obtain ⟨hturned, hfailed, htotal⟩ := turn_completed hready hauth houtcome
        rw [advance_of_completed houtcome, ← hturned.memory] at hrest
        obtain ⟨rows, hdone⟩ := ih hturned.ready hrest
        refine ⟨markCompleted env hosts (newScan env network) :: rows, hdone.ready,
          ?_, ?_, ?_, ?_, ?_⟩
        · rw [hdone.scans, hturned.scans, List.append_assoc]
          rfl
        · exact .completed houtcome rfl rfl rfl (hturned.memory ▸ hdone.ended)
        · rw [hdone.scanned, hturned.scanned, List.length_cons]
          omega
        · rw [hdone.failed, hfailed, List.countP_cons_of_neg (by simp [markCompleted])]
        · rw [hdone.hosts, htotal, List.map_cons, List.sum_cons, Nat.add_assoc]
          rfl
      | failed began error =>
        have hquiet : began = false := by simpa only [Harmless, houtcome] using hthis
        subst hquiet
        obtain ⟨hturned, hfailed, htotal⟩ := turn_quiet hready hauth houtcome
        rw [advance_of_failed houtcome, ← hturned.memory] at hrest
        obtain ⟨rows, hdone⟩ := ih hturned.ready hrest
        refine ⟨markFailed env error (newScan env network) :: rows, hdone.ready,
          ?_, ?_, ?_, ?_, ?_⟩
        · rw [hdone.scans, hturned.scans, List.append_assoc]
          rfl
        · exact .failed houtcome rfl rfl rfl (hturned.memory ▸ hdone.ended)
        · rw [hdone.scanned, hturned.scanned, List.length_cons]
          omega
        · rw [hdone.failed, hfailed, List.countP_cons_of_pos (by simp [markFailed])]
          omega
        · rw [hdone.hosts, htotal, List.map_cons, List.sum_cons]
          exact congrArg _ (Nat.zero_add _).symm
    · rw [turn_unauthorized hready (Bool.eq_false_iff.mpr hauth)]
      rw [List.filter_cons_of_neg hauth] at h ⊢
      exact ih hready h

/-- A network that fails within a transaction ends the pass by an exception. -/
theorem run_harmful {networks : List NetworkRow} {pass : Pass δ σ} (hready : Ready B pass)
    (h : ¬ Along (advance B env) (Harmless B env) pass.session.memory.inventory
      (networks.filter (authorized T settings))) :
    (run (turn T settings B env) pass networks).raised = true := by
  induction networks generalizing pass with
  | nil => exact absurd trivial h
  | cons network networks ih =>
    rw [run_cons]
    by_cases hauth : authorized T settings network = true
    · rw [List.filter_cons_of_pos hauth] at h
      cases houtcome : outcome B env network pass.session.memory.inventory with
      | completed hosts memory =>
        obtain ⟨hturned, -, -⟩ := turn_completed hready hauth houtcome
        refine ih hturned.ready fun hrest => h ⟨?_, ?_⟩
        · simp only [Harmless, houtcome]
        · rw [advance_of_completed houtcome, ← hturned.memory]
          exact hrest
      | failed began error =>
        cases began with
        | true =>
          have hraised := turn_raised hready hauth houtcome
          rw [run_of_raised hraised]
          exact hraised
        | false =>
          obtain ⟨hturned, -, -⟩ := turn_quiet hready hauth houtcome
          refine ih hturned.ready fun hrest => h ⟨?_, ?_⟩
          · simp only [Harmless, houtcome]
          · rw [advance_of_failed houtcome, ← hturned.memory]
            exact hrest
    · rw [turn_unauthorized hready (Bool.eq_false_iff.mpr hauth)]
      rw [List.filter_cons_of_neg hauth] at h
      exact ih hready h

theorem map_recoverScan {scans : List Scan} (h : recovered settings env scans = 0) :
    scans.map (recoverScan settings env) = scans := by
  have hid : scans.map (recoverScan settings env) = scans.map id := by
    refine List.map_congr_left fun scan hscan => ?_
    have hnot : ¬ isStale settings env scan = true := List.countP_eq_zero.mp h scan hscan
    exact if_neg hnot
  rw [hid, List.map_id]

theorem report_matches {pass : Pass δ σ} {rows : List Scan} (count : ℕ)
    (hscanned : pass.scanned = rows.length)
    (hfailed : pass.failed = rows.countP fun row => row.status = .failed)
    (hhosts : pass.totalHosts = (rows.map Scan.hostsFound).sum) :
    Matches rows (report count pass) := by
  unfold report
  by_cases hnone : pass.scanned = 0
  · have hrows : rows = [] := List.length_eq_zero_iff.mp (hscanned.symm.trans hnone)
    subst hrows
    rw [if_pos hnone]
    exact ⟨rfl, rfl, rfl⟩
  · rw [if_neg hnone]
    exact ⟨hscanned, hfailed, hhosts⟩

end Loop

/-- Each authorized network has one row that is completed or failed, its changes are committed
with the one and not with the other, and the report counts these rows, if and only if no
authorized network fails once a transaction has begun. -/
theorem pass_unspoiled_iff (T : Texts) (settings : PassSettings) (B : Backend δ σ)
    (env : Environment σ) (networks : List NetworkRow) (d : Stored δ) :
    Unspoiled T settings B env networks d ↔
      Along (advance B env) (Harmless B env) (B.load d.inventory) (toScan T settings networks) := by
  have hstart : Ready B (⟨recoverStale settings B env d, 0, 0, 0, false⟩ : Pass δ σ) ∧
      (recoverStale settings B env d).committed.scans =
        d.scans.map (recoverScan settings env) ∧
      (recoverStale settings B env d).memory.inventory = B.load d.inventory := by
    unfold recoverStale
    by_cases hnone : recovered settings env d.scans = 0
    · simp only [if_pos hnone]
      exact ⟨⟨rfl, ⟨((withScans B).stored_load d).symm, (withScans B).writable_load d, rfl⟩⟩,
        (map_recoverScan hnone).symm, rfl⟩
    · have hwritable : B.writable (B.load d.inventory) := B.writable_load d.inventory
      have hcommit : ∀ s : Session (Stored δ) (Stored σ), B.writable s.memory.inventory →
          s.commit (withScans B) =
            ({ s with committed := (withScans B).stored s.memory, active := false }, true) :=
        fun s hs => Session.commit_writable (B := withScans B) hs
      simp only [if_neg hnone]
      rw [hcommit _ hwritable]
      exact ⟨⟨rfl, ⟨rfl, hwritable, rfl⟩⟩, rfl, rfl⟩
  obtain ⟨hready, hscans, hinventory⟩ := hstart
  constructor
  · rintro ⟨rows, -, -, report, hreport, -⟩
    by_contra h
    have hraised := run_harmful (T := T) hready (by rw [hinventory]; exact h)
    simp only [runAllNetworkScans, hraised, if_true] at hreport
    cases hreport
  · intro h
    obtain ⟨rows, hdone⟩ := run_harmless (T := T) hready (by rw [hinventory]; exact h)
    refine ⟨rows, ?_, ?_, ?_⟩
    · exact hdone.scans.trans (congrArg (· ++ rows) hscans)
    · have hended := hdone.ended
      rw [hinventory] at hended
      exact hended
    · refine ⟨_, if_neg (by rw [hdone.ready.running]; exact Bool.noConfusion), ?_⟩
      exact report_matches _ (hdone.scanned.trans (Nat.zero_add _))
        (hdone.failed.trans (Nat.zero_add _)) (hdone.hosts.trans (Nat.zero_add _))

/-! ## A host that two assets are called like -/

/-- What the reconciler reads of the dictionary of a host. -/
def hostData (host : HostDict) : Reconciler.HostData where
  ip := .value host.ip
  mac := (host.mac.map .value).getD .null
  hostname := (host.hostname.map .value).getD .null
  name := .value host.name
  osGuess := (host.osGuess.map .value).getD .null
  type := .value host.type
  segment := .value host.segment
  softwareStack := .value host.softwareStack
  cpe := .value (host.cpe.filterMap id)
  services := .value (host.services.map fun s =>
    (s.service.map fun name => [("service", name)]).getD [])

/-- The host that nmap finds in a network. -/
def found (ip : String) (hostname : Option String) : DiscoveredHost where
  ip := ip
  mac := none
  macVendor := none
  hostname := hostname
  osGuess := none
  state := "up"
  services := []
  lastSeen := ""

def campusRow : NetworkRow := { cidr := "10.20.0.0/16", name := "campus" }

def segmentRow : NetworkRow := { cidr := "10.20.30.0/28", name := "segment" }

/-- The first network has a host of the given name, the second a server; they are reconciled by
the reconciler as it is. -/
def campusScan (hostname : String) : Environment ReportOrder.Held where
  discover network :=
    if network.name = "campus" then .ok [found "10.20.1.9" (some hostname)]
    else .ok [found "10.20.30.7" (some "web-1")]
  reconcileHost source host memory :=
    match ReportOrder.reconcileHeld IntegrationSync.addressing memory
        ⟨source, hostData host, 0, memory.objects.length + 3⟩ with
    | .ok memory => .done memory
    | .error _ => .raised true "Multiple rows were found when one or none was required"
  refusal _ := ""
  now := 0

def campusPass : PassSettings := ⟨["10.20.0.0/16"], 65536, 600⟩

/-- Two assets are called printer, and no network has been scanned. -/
def unscanned : Stored Database := ⟨[], IntegrationSync.twoPrinters.inventory⟩

def campusResult (hostname : String) : Stored Database × Option Report :=
  runAllNetworkScans campusTexts campusPass (IntegrationSync.inventorySession
    IntegrationSync.addressing 0) (campusScan hostname) [campusRow, segmentRow] unscanned

/-- A host of the first network is called printer: the network is recorded as failed, the second
network has no row, and the pass raises. With another name both are completed. -/
theorem second_network_lost :
    ((campusResult "printer").1.scans.map fun row => (row.target, row.status)) =
        [("10.20.0.0/16", .failed)] ∧
      (campusResult "printer").2 = none ∧
      (toScan campusTexts campusPass [campusRow, segmentRow]).map (fun row => row.name) =
        ["campus", "segment"] ∧
      ((campusResult "plotter").1.scans.map fun row => (row.target, row.status)) =
        [("10.20.0.0/16", .completed), ("10.20.30.0/28", .completed)] ∧
      ¬ Unspoiled campusTexts campusPass (IntegrationSync.inventorySession
        IntegrationSync.addressing 0) (campusScan "printer") [campusRow, segmentRow] unscanned := by
  have hraised : (campusResult "printer").2 = none := by decide +kernel
  refine ⟨by decide +kernel, hraised, by decide +kernel, by decide +kernel, ?_⟩
  rintro ⟨rows, -, -, report, hreport, -⟩
  rw [show (runAllNetworkScans _ _ _ _ _ _).2 = none from hraised] at hreport
  cases hreport

end Kepryx.ScanPass
