import Mathlib.Logic.Basic
import Kepryx.ReportOrder
import Kepryx.Results
import Kepryx.Transactions

/-!
# The sync of the integrations

One session serves all integrations: for each of them the task fetches the inventory,
reconciles host after host, and commits. The handler of an exception records the failure and
commits as well, without a rollback. What connectors deliver and what a host does to the
session are parameters, so that every pattern of failures is covered.
-/
namespace Kepryx.IntegrationSync
open Kepryx.Models Kepryx.Results Kepryx.Tables Kepryx.Runs Kepryx.Transactions

inductive LastStatus where
  | success | failed
  deriving DecidableEq, Repr

/-- The columns of an integration that the task reads or writes, and its configuration. -/
structure Integration where
  id : ℕ
  name : String
  connectorType : String
  enabled : Bool := true
  config : List (String × String) := []
  lastRun : Option Time := none
  lastStatus : Option LastStatus := none
  assetsReported : ℕ := 0
  failureCount : ℕ := 0
  deriving DecidableEq, Repr

/-- The integrations, and the assets and alerts. -/
structure Stored (ι : Type*) where
  integrations : Table Integration.id
  inventory : ι

/-- What a connector delivers: there may be no class for the type, and building it or the
fetch may raise. -/
inductive Delivery (Host : Type*) where
  | noConnector
  | connectorError
  | hosts (hosts : List Host)

/-- The surroundings of the task: the connectors, the reconciler, and the clock. -/
structure Environment (Host σ : Type*) where
  deliver : Integration → Delivery Host
  reconcileHost : String → Host → σ → σ × Option Failure
  now : Time

variable {δ σ Host : Type*}

/-- A session on the assets and alerts that also holds the integration objects. -/
def withIntegrations (B : Backend δ σ) : Backend (Stored δ) (Stored σ) where
  load d := ⟨d.integrations, B.load d.inventory⟩
  stored m := ⟨m.integrations, B.stored m.inventory⟩
  writable m := B.writable m.inventory
  stored_load d := by rw [B.stored_load]
  writable_load d := B.writable_load d.inventory

/-- What the task writes into an integration that succeeded. -/
def markSuccess (now : Time) (hosts : ℕ) (integ : Integration) : Integration :=
  { integ with
    lastRun := now
    lastStatus := LastStatus.success
    assetsReported := hosts
    failureCount := 0 }

/-- What the handler writes: after five consecutive failures the integration is disabled. -/
def markFailed (integ : Integration) : Integration :=
  let failureCount := integ.failureCount + 1
  { integ with
    failureCount := failureCount
    lastStatus := LastStatus.failed
    enabled := if 5 ≤ failureCount then false else integ.enabled }

/-- Change the object of an integration. -/
def onIntegration (f : Integration → Integration) (integ : Integration) (m : Stored σ) :
    Stored σ :=
  { m with
    integrations := match m.integrations.find integ.id with
      | some row => m.integrations.put (f row)
      | none => m.integrations }

/-- The task between two integrations: its session, and whether an exception left it. -/
structure Task (δ σ : Type*) where
  session : Session (Stored δ) (Stored σ)
  raised : Bool := false

variable (B : Backend δ σ) (env : Environment Host σ)

/-- The `try` block once the hosts are there. -/
def reconcileAll (integ : Integration) (hosts : List Host)
    (s : Session (Stored δ) (Stored σ)) : Session (Stored δ) (Stored σ) × Option Failure :=
  let block := forEach (env.reconcileHost integ.connectorType) hosts
  match s.exec fun m => ({ m with inventory := (block m.inventory).1 }, (block m.inventory).2) with
  | (s, some failure) => (s, some failure)
  | (s, none) =>
    (s.assign (onIntegration (markSuccess env.now hosts.length) integ)).commit
      (withIntegrations B)

/-- The `except` block. -/
def recordFailure (integ : Integration) (s : Session (Stored δ) (Stored σ)) : Task δ σ :=
  match (s.assign (onIntegration markFailed integ)).commit (withIntegrations B) with
  | (s, none) => ⟨s, false⟩
  | (s, some _) => ⟨s, true⟩

/-- One turn of the loop in `_sync_all`. -/
def syncOne (task : Task δ σ) (integ : Integration) : Task δ σ :=
  if task.raised then task
  else match env.deliver integ with
    | .noConnector => task
    | .connectorError => recordFailure B integ task.session
    | .hosts hosts =>
      match reconcileAll B env integ hosts task.session with
      | (s, none) => ⟨s, false⟩
      | (s, some _) => recordFailure B integ s

/-- `select(Integration).where(Integration.enabled.is_(True))`, for one of them when its
identifier is given. -/
def enabledIntegrations (d : Stored δ) (integrationId : Option ℕ) : List Integration :=
  d.integrations.rows.filter fun integ =>
    integ.enabled && (integrationId.all fun id => integ.id = id)

/-- `_sync_all` -/
def syncAll (d : Stored δ) (integrationId : Option ℕ) : Task δ σ :=
  run (syncOne B env) ⟨.start (withIntegrations B) d, false⟩ (enabledIntegrations d integrationId)

/-! ## All or nothing -/

/-- How an integration ends, seen from the view that its turn starts with. -/
inductive Outcome (σ : Type*) where
  | skipped
  | failed (failure : Failure) (memory : σ)
  | succeeded (hosts : ℕ) (memory : σ)

/-- An integration fails when its connector raises, when reconciling one of its hosts does, or
when the database refuses what its hosts changed. -/
def outcome (integ : Integration) (memory : σ) : Outcome σ :=
  match env.deliver integ with
  | .noConnector => .skipped
  | .connectorError => .failed .python memory
  | .hosts hosts =>
    match forEach (env.reconcileHost integ.connectorType) hosts memory with
    | (memory, some failure) => .failed failure memory
    | (memory, none) =>
      if B.writable memory then .succeeded hosts.length memory else .failed .database memory

/-- The turn of an integration is all or nothing: the loop goes on, a failed integration has
its failure committed and nothing else, and one that succeeded has its success committed with
the changes of all its hosts. -/
def AllOrNothing (task : Task δ σ) (integ : Integration) : Prop :=
  let task' := syncOne B env task integ
  let before := task.session.committed
  task'.raised = false ∧
    task'.session.committed = match outcome B env integ task.session.memory.inventory with
      | .skipped => before
      | .failed _ _ => onIntegration markFailed integ before
      | .succeeded hosts memory =>
        { onIntegration (markSuccess env.now hosts) integ before with
          inventory := B.stored memory }

/-- No error of the database ends the integration, and if an exception does, none of its hosts
has a change pending. -/
def Harmless (task : Task δ σ) (integ : Integration) : Prop :=
  match outcome B env integ task.session.memory.inventory with
  | .failed .database _ => False
  | .failed .python memory =>
    B.writable memory ∧ B.stored memory = task.session.committed.inventory
  | _ => True

/-- The loop goes on with nothing pending. -/
structure Ready (task : Task δ σ) : Prop where
  running : task.raised = false
  settled : Session.Settled (withIntegrations B) task.session

theorem recordFailure_writable {s : Session (Stored δ) (Stored σ)} (hactive : s.aborted = false)
    (hwritable : B.writable s.memory.inventory) (integ : Integration) :
    recordFailure B integ s =
      ⟨{ s with
          memory := onIntegration markFailed integ s.memory
          committed := ⟨(onIntegration markFailed integ s.memory).integrations,
            B.stored s.memory.inventory⟩ }, false⟩ := by
  have hcommit := Session.commit_writable (B := withIntegrations B)
    (s := s.assign (onIntegration markFailed integ)) hactive hwritable
  simp only [recordFailure, hcommit]
  rfl

theorem recordFailure_not_writable {s : Session (Stored δ) (Stored σ)}
    (hwritable : B.writable s.memory.inventory = false) (integ : Integration) :
    (recordFailure B integ s).raised := by
  have hcommit := Session.commit_not_writable (B := withIntegrations B)
    (s := s.assign (onIntegration markFailed integ)) hwritable
  simp only [recordFailure, hcommit]

theorem recordFailure_aborted {s : Session (Stored δ) (Stored σ)} (haborted : s.aborted)
    (integ : Integration) : (recordFailure B integ s).raised := by
  have hcommit := Session.commit_aborted (B := withIntegrations B)
    (s := s.assign (onIntegration markFailed integ)) haborted
  simp only [recordFailure, hcommit]

section ReconcileAll
variable {s : Session (Stored δ) (Stored σ)} {integ : Integration} {hosts : List Host}
  {memory : σ}

theorem reconcileAll_python (hactive : s.aborted = false)
    (h : forEach (env.reconcileHost integ.connectorType) hosts s.memory.inventory =
      (memory, some .python)) :
    reconcileAll B env integ hosts s =
      ({ s with memory := { s.memory with inventory := memory } }, some .python) := by
  simp [reconcileAll, Session.exec_active hactive, h]

theorem reconcileAll_database (hactive : s.aborted = false)
    (h : forEach (env.reconcileHost integ.connectorType) hosts s.memory.inventory =
      (memory, some .database)) :
    reconcileAll B env integ hosts s = ({ s with aborted := true }, some .database) := by
  simp [reconcileAll, Session.exec_active hactive, h]

/-- The flush of the commit may still be refused. -/
theorem reconcileAll_commit (hactive : s.aborted = false)
    (h : forEach (env.reconcileHost integ.connectorType) hosts s.memory.inventory =
      (memory, none)) :
    reconcileAll B env integ hosts s =
      let written := onIntegration (markSuccess env.now hosts.length) integ
        { s.memory with inventory := memory }
      if B.writable memory then
        ({ s with memory := written, committed := ⟨written.integrations, B.stored memory⟩ }, none)
      else ({ s with memory := written, aborted := true }, some .database) := by
  have hexec : reconcileAll B env integ hosts s =
      (Session.assign { s with memory := { s.memory with inventory := memory } }
        (onIntegration (markSuccess env.now hosts.length) integ)).commit
          (withIntegrations B) := by
    simp [reconcileAll, Session.exec_active hactive, h]
  rw [hexec]
  cases hwritable : B.writable memory with
  | true => exact Session.commit_writable (B := withIntegrations B) hactive hwritable
  | false => exact Session.commit_not_writable (B := withIntegrations B) hwritable

end ReconcileAll

variable {task : Task δ σ} {integ : Integration}

theorem syncOne_skipped (hready : Ready B task)
    (h : outcome B env integ task.session.memory.inventory = .skipped) :
    syncOne B env task integ = task := by
  unfold outcome at h
  cases hdeliver : env.deliver integ with
  | noConnector => simp [syncOne, hready.running, hdeliver]
  | connectorError => simp [hdeliver] at h
  | hosts hosts =>
    simp only [hdeliver] at h
    split at h
    · cases h
    · split at h <;> cases h

/-- The session with what the hosts so far have left there. -/
def leftBy (memory : σ) (s : Session (Stored δ) (Stored σ)) : Session (Stored δ) (Stored σ) :=
  { s with memory := { s.memory with inventory := memory } }

theorem syncOne_python (hready : Ready B task) {memory : σ}
    (h : outcome B env integ task.session.memory.inventory = .failed .python memory) :
    syncOne B env task integ = recordFailure B integ (leftBy memory task.session) := by
  unfold outcome at h
  cases hdeliver : env.deliver integ with
  | noConnector => simp [hdeliver] at h
  | connectorError =>
    simp only [hdeliver, Outcome.failed.injEq, true_and] at h
    simp [syncOne, hready.running, hdeliver, leftBy, ← h]
  | hosts hosts =>
    simp only [hdeliver] at h
    split at h
    · rename_i hblock
      cases h
      simp [syncOne, hready.running, hdeliver, leftBy,
        reconcileAll_python B env hready.settled.active hblock]
    · split at h <;> cases h

/-- After an error of the database the commit of the handler raises. -/
theorem syncOne_database (hready : Ready B task) {memory : σ}
    (h : outcome B env integ task.session.memory.inventory = .failed .database memory) :
    (syncOne B env task integ).raised := by
  unfold outcome at h
  cases hdeliver : env.deliver integ with
  | noConnector => simp [hdeliver] at h
  | connectorError => simp [hdeliver] at h
  | hosts hosts =>
    simp only [hdeliver] at h
    split at h
    · rename_i hblock
      cases h
      simpa [syncOne, hready.running, hdeliver,
        reconcileAll_database B env hready.settled.active hblock]
        using recordFailure_aborted B rfl integ
    · rename_i hblock
      split at h
      · cases h
      · rename_i hwritable
        simpa [syncOne, hready.running, hdeliver,
          reconcileAll_commit B env hready.settled.active hblock, hwritable]
          using recordFailure_aborted B rfl integ

theorem syncOne_succeeded (hready : Ready B task) {hosts : ℕ} {memory : σ}
    (h : outcome B env integ task.session.memory.inventory = .succeeded hosts memory) :
    B.writable memory ∧
      syncOne B env task integ =
        let written := onIntegration (markSuccess env.now hosts) integ
          { task.session.memory with inventory := memory }
        ⟨{ task.session with
            memory := written
            committed := ⟨written.integrations, B.stored memory⟩ }, false⟩ := by
  unfold outcome at h
  cases hdeliver : env.deliver integ with
  | noConnector => simp [hdeliver] at h
  | connectorError => simp [hdeliver] at h
  | hosts hosts =>
    simp only [hdeliver] at h
    split at h
    · cases h
    · rename_i hblock
      split at h
      · rename_i hwritable
        cases h
        refine ⟨hwritable, ?_⟩
        simp [syncOne, hready.running, hdeliver,
          reconcileAll_commit B env hready.settled.active hblock, hwritable]
      · cases h

/-! ## When it is -/

theorem Ready.integrations (h : Ready B task) :
    task.session.committed.integrations = task.session.memory.integrations :=
  congrArg Stored.integrations h.settled.committed

theorem allOrNothing_iff (hready : Ready B task) :
    AllOrNothing B env task integ ↔ Harmless B env task integ := by
  have hintegrations := hready.integrations
  unfold AllOrNothing Harmless
  cases houtcome : outcome B env integ task.session.memory.inventory with
  | skipped => simp [syncOne_skipped B env hready houtcome, hready.running]
  | succeeded hosts memory =>
    obtain ⟨-, hstep⟩ := syncOne_succeeded B env hready houtcome
    simp [hstep, onIntegration, hintegrations]
  | failed failure memory =>
    cases failure with
    | database => simp [syncOne_database B env hready houtcome]
    | python =>
      rw [syncOne_python B env hready houtcome]
      cases hwritable : B.writable memory with
      | false =>
        simp [recordFailure_not_writable B (s := leftBy memory task.session) hwritable, hwritable]
      | true =>
        rw [recordFailure_writable B (s := leftBy memory task.session) hready.settled.active
          hwritable]
        simp [onIntegration, hintegrations, leftBy, hwritable]

/-- A handler that gets its commit through leaves nothing pending. -/
theorem settled_recordFailure {s : Session (Stored δ) (Stored σ)}
    (h : (recordFailure B integ s).raised = false) :
    Session.Settled (withIntegrations B) (recordFailure B integ s).session := by
  unfold recordFailure at h ⊢
  split at h
  · rename_i s' hcommit
    have hsettled := Session.settled_commit (congrArg Prod.snd hcommit)
    rw [hcommit] at hsettled
    simpa [hcommit] using hsettled
  · cases h

theorem settled_reconcileAll {hosts : List Host} {s s' : Session (Stored δ) (Stored σ)}
    (h : reconcileAll B env integ hosts s = (s', none)) :
    Session.Settled (withIntegrations B) s' := by
  unfold reconcileAll at h
  dsimp only at h
  split at h
  · cases h
  · have hsettled := Session.settled_commit (congrArg Prod.snd h)
    rwa [h] at hsettled

/-- A turn that no exception leaves has nothing pending in the end. -/
theorem ready_syncOne (hready : Ready B task) (h : (syncOne B env task integ).raised = false) :
    Ready B (syncOne B env task integ) := by
  refine ⟨h, ?_⟩
  unfold syncOne at h ⊢
  rw [hready.running] at h ⊢
  simp only [Bool.false_eq_true, if_false] at h ⊢
  cases hdeliver : env.deliver integ with
  | noConnector => exact hready.settled
  | connectorError =>
    rw [hdeliver] at h
    exact settled_recordFailure B h
  | hosts hosts =>
    rw [hdeliver] at h
    dsimp only at h ⊢
    split at h
    · rename_i s hreconciled
      simpa [hreconciled] using settled_reconcileAll B env hreconciled
    · rename_i s failure hreconciled
      simpa [hreconciled] using settled_recordFailure B h

/-- The sync is all or nothing for every integration if and only if no integration ends by an
error of the database, or by an exception with changes of its hosts pending. -/
theorem sync_all_or_nothing_iff (d : Stored δ) (integrationId : Option ℕ) :
    let task : Task δ σ := ⟨.start (withIntegrations B) d, false⟩
    Along (syncOne B env) (AllOrNothing B env) task (enabledIntegrations d integrationId) ↔
      Along (syncOne B env) (Harmless B env) task (enabledIntegrations d integrationId) :=
  along_iff_of_invariant (Ready B) (fun _ _ hready => allOrNothing_iff B env hready)
    (fun _ _ hready h => ready_syncOne B env hready h.1)
    ⟨rfl, Session.settled_start _ d⟩ _

/-! ## The reconciler as it is -/

/-- The ORM raises the one, PostgreSQL the others. -/
def failureOf : DbError → Failure
  | .multipleResultsFound => .python
  | _ => .database

/-- A host as a connector delivers it, with the instant at which it is reconciled and the
identifier that a new asset would draw. -/
structure DeliveredHost where
  data : Reconciler.HostData
  now : Time := 0
  uuid : ℕ

/-- `reconcile_host` with the session that it leaves. Only a query raises an exception of the
program; what was pending before has then been flushed. -/
def reconcileHost (A : Reconciler.Addressing) (source : String) (h : DeliveredHost)
    (w : ReportOrder.Held) : ReportOrder.Held × Option Failure :=
  match ReportOrder.reconcileHeld A w ⟨source, h.data, h.now, h.uuid⟩ with
  | .ok w => (w, none)
  | .error e => ((ReportOrder.flushHeld A h.now w).toOption.getD w, some (failureOf e))

/-- A new asset has an identifier of its own, so no exception of the program follows its
insertion. -/
theorem createFromSource_error {A : Reconciler.Addressing} {now : Time} {uuid : ℕ}
    {s : Reconciler.Session} {source : String} {data : Reconciler.HostData} {e : DbError}
    (hfresh : ∀ x ∈ s.db.alerts, x.assetId ≠ some uuid)
    (h : Reconciler.createFromSource A now uuid s source data = .error e) :
    failureOf e = .database := by
  have hrecent : ∀ type, Reconciler.recentOpen now s.db.alerts type (some uuid) = [] := by
    intro type
    refine List.filter_eq_nil_iff.mpr fun x hx => ?_
    simp [hfresh x hx]
  have hraise : ∀ alert : Alert, alert.assetId = some uuid →
      Reconciler.raiseAlert now s.db.alerts alert = .ok (s.db.alerts ++ [alert]) := by
    intro alert hid
    simp [Reconciler.raiseAlert, hid, hrecent, scalarOneOrNone]
  have hshadow : ∀ name type, ∃ alerts, Reconciler.shadowAlert now s.db.alerts
      (Reconciler.newColumns now uuid source data name type) source = .ok alerts := by
    intro name type
    unfold Reconciler.shadowAlert
    split
    · exact ⟨_, hraise _ rfl⟩
    · exact ⟨_, rfl⟩
  unfold Reconciler.createFromSource at h
  split at h
  · rename_i name type hname htype
    obtain ⟨alerts, halerts⟩ := hshadow name type
    rcases bind_eq_error.mp h with hip | ⟨ip, -, h⟩
    · rw [ReportHandling.bindText_error hip]
      rfl
    rcases bind_eq_error.mp h with hmac | ⟨mac, -, h⟩
    · rw [ReportHandling.bindText_error hmac]
      rfl
    split at h
    · cases h
      rfl
    · simp [halerts] at h
  · cases h
    rfl

/-- The session of the reconciler: a commit flushes its objects. -/
def inventorySession (A : Reconciler.Addressing) (now : Time) :
    Backend Database ReportOrder.Held where
  load d := ⟨⟨d, .empty⟩, []⟩
  stored w := ((ReportOrder.flushHeld A now w).toOption.getD w).session.db
  writable w := (ReportOrder.flushHeld A now w).toOption.isSome
  stored_load _ := rfl
  writable_load _ := rfl

def printer (uuid : ℕ) : Asset :=
  { Reconciler.newColumns 0 uuid "manual" {} "printer" "Printer" with sources := some ["manual"] }

def crowdstrike : Integration :=
  { id := 1, name := "CrowdStrike", connectorType := "edr_crowdstrike" }

def nessus : Integration := { id := 2, name := "Nessus", connectorType := "vuln_nessus" }

/-- Two integrations, and two assets of one name. -/
def twoPrinters : Stored Database where
  integrations := ⟨[crowdstrike, nessus], by decide⟩
  inventory := { Database.empty with assets := ⟨[printer 1, printer 2], by decide⟩ }

/-- PostgreSQL takes no MAC from the text `unknown`. -/
def addressing : Reconciler.Addressing :=
  { Reconciler.Addressing.canonical with
    macaddr := fun t => if t = "unknown" then none else some t }

/-- The first integration delivers a server and the given host, the second none. -/
def delivering (second : Reconciler.HostData) : Environment DeliveredHost ReportOrder.Held where
  deliver integ :=
    if integ.id = 1 then
      .hosts [{ data := { name := .value "web-1", type := .value "Server" }, uuid := 3 },
        { data := second, uuid := 4 }]
    else .hosts []
  reconcileHost := reconcileHost addressing
  now := 0

/-- The sync when the second host of the first integration is the given one. -/
def syncWith (second : Reconciler.HostData) : Task Database ReportOrder.Held :=
  syncAll (inventorySession addressing 0) (delivering second) twoPrinters none

def AllOrNothingWith (second : Reconciler.HostData) : Prop :=
  Along (syncOne (inventorySession addressing 0) (delivering second))
    (AllOrNothing (inventorySession addressing 0) (delivering second))
    ⟨.start (withIntegrations (inventorySession addressing 0)) twoPrinters, false⟩
    (enabledIntegrations twoPrinters none)

def assetNames (task : Task Database ReportOrder.Held) : List String :=
  task.session.committed.inventory.assets.rows.map fun a => a.name

def statuses (task : Task Database ReportOrder.Held) : List (Option LastStatus × ℕ) :=
  task.session.committed.integrations.rows.map fun i => (i.lastStatus, i.failureCount)

/-- A host called like the two assets: the query raises, and the server is committed together
with the failure. A host whose MAC is a text that PostgreSQL does not take: the commit of the
handler raises, so that no failure is recorded and the second integration is not attempted. -/
theorem failed_sync_not_isolated :
    (assetNames (syncWith { name := .value "printer" }) = ["printer", "printer", "web-1"] ∧
      statuses (syncWith { name := .value "printer" }) =
        [(some .failed, 1), (some .success, 0)] ∧
      ¬ AllOrNothingWith { name := .value "printer" }) ∧
    ((syncWith { mac := .value "unknown" }).raised ∧
      statuses (syncWith { mac := .value "unknown" }) = [(none, 0), (none, 0)] ∧
      ¬ AllOrNothingWith { mac := .value "unknown" }) := by
  refine ⟨⟨by decide +kernel, by decide +kernel, ?_⟩, by decide +kernel, by decide +kernel, ?_⟩
  · intro h
    have hnames := congrArg
      (fun s : Stored Database => s.inventory.assets.rows.map fun a => a.name) h.1.2
    exact absurd hnames (by decide +kernel)
  · intro h
    exact absurd h.1.1 (by decide +kernel)

end Kepryx.IntegrationSync
