import Kepryx.AuditAlerts
import Kepryx.Runs
import Kepryx.SnapshotCommits
import Kepryx.UnitOfWork

/-!
# Audits that overlap

The schedule and the administrators start the same audit, and nothing keeps two of them apart.
Each reads its inventory, the mappings and the open alerts, and commits later: it inserts what it
did not find and updates the rest by primary key. A run that was not alone with a key or with a
gap leaves a second row.
-/
namespace Kepryx.ConcurrentAudits
open Kepryx.Models Kepryx.Tables Kepryx.Results Kepryx.Runs Kepryx.UnitOfWork
open Kepryx.SnapshotCommits Kepryx.ComplianceCatalog Kepryx.ComplianceAudit
open Kepryx.AuditLoop Kepryx.AuditRecord Kepryx.AuditAlerts

/-- An audit between its read and its commit. -/
structure Pending where
  runId : ℕ
  inputs : Inputs
  read : AuditDb
  after : AuditDb

structure State where
  db : AuditDb
  nextRun : ℕ
  inflight : List Pending

/-- An audit reads, or the audit at a position commits. -/
inductive Event where
  | read (inputs : Inputs)
  | commit (n : ℕ)

/-- The UPDATE of a mapping writes the columns that were changed. -/
def mergeMapping (loaded current stored : ComplianceMapping) : ComplianceMapping :=
  { stored with
    status := writeBack loaded.status current.status stored.status
    evidence := writeBack loaded.evidence current.evidence stored.evidence
    assessedAt := writeBack loaded.assessedAt current.assessedAt stored.assessedAt }

/-- The UPDATE of an alert. -/
def mergeAlert (loaded current stored : GapAlert) : GapAlert :=
  { stored with
    description := writeBack loaded.description current.description stored.description
    details := writeBack loaded.details current.details stored.details
    status := writeBack loaded.status current.status stored.status
    resolvedAt := writeBack loaded.resolvedAt current.resolvedAt stored.resolvedAt
    resolvedBy := writeBack loaded.resolvedBy current.resolvedBy stored.resolvedBy }

theorem mergeMapping_id (loaded current stored : ComplianceMapping) :
    (mergeMapping loaded current stored).id = stored.id := rfl

theorem mergeAlert_id (loaded current stored : GapAlert) :
    (mergeAlert loaded current stored).id = stored.id := rfl

/-- The commit of an audit. -/
def commitAudit (p : Pending) (db : AuditDb) : AuditDb where
  runs := db.runs ++ p.after.runs.drop p.read.runs.length
  results := db.results ++ p.after.results.drop p.read.results.length
  evidenceItems := db.evidenceItems ++ p.after.evidenceItems.drop p.read.evidenceItems.length
  links := db.links ++ p.after.links.drop p.read.links.length
  mappings := commit mergeMapping mergeMapping_id p.read.mappings p.after.mappings db.mappings
  alerts := commit mergeAlert mergeAlert_id p.read.alerts p.after.alerts db.alerts

/-- One event. An audit that raises never commits. -/
def step (P : Primitives) (s : State) : Event → State
  | .read inputs =>
    match runAudit P inputs s.nextRun s.db with
    | .ok after =>
      { s with
        nextRun := s.nextRun + 1
        inflight := s.inflight ++ [⟨s.nextRun, inputs, s.db, after⟩] }
    | .error _ => { s with nextRun := s.nextRun + 1 }
  | .commit n =>
    match s.inflight[n]? with
    | none => s
    | some p => { s with db := commitAudit p s.db, inflight := s.inflight.eraseIdx n }

/-- One mapping for each key and one open alert for each asset and title. -/
def Unique (db : AuditDb) : Prop := OnePerKey db.mappings ∧ OneOpen db.alerts

instance (mappings : Mappings) : Decidable (OnePerKey mappings) :=
  inferInstanceAs (Decidable (∀ m ∈ mappings.rows, ∀ m' ∈ mappings.rows, _))

instance (alerts : Alerts) : Decidable (OneOpen alerts) :=
  inferInstanceAs (Decidable (∀ x ∈ alerts.rows, ∀ y ∈ alerts.rows, _))

/-- At a commit, no mapping was committed for a key that the audit assesses and found no mapping
for, and no alert opened in a slot that it needs and found free. -/
def Alone (s : State) : Event → Prop
  | .read _ => True
  | .commit n => ∀ p, s.inflight[n]? = some p →
    (∀ key, Assessed p.inputs key → (∀ m ∈ p.read.mappings.rows, m.key ≠ key) →
      ∀ m ∈ s.db.mappings.rows, m.key ≠ key) ∧
    (∀ t, Alarming p.inputs t → openAt p.read.alerts t.slot = [] → openAt s.db.alerts t.slot = [])

/-! ## What one audit does to both tables -/

variable {P : Primitives} {inputs : Inputs} {runId : ℕ} {db db' : AuditDb}

/-- The keys of the mappings, and the slots of the open alerts. -/
def mappingSlot (m : ComplianceMapping) : Option Key := some m.key
def alertSlot (x : GapAlert) : Option (Option ℕ × String) :=
  if x.status = .open then some x.slot else none

theorem alertSlot_eq_some {x : GapAlert} {slot : Option ℕ × String} :
    alertSlot x = some slot ↔ x.status = .open ∧ x.slot = slot := by
  simp [alertSlot]

theorem onePerKey_iff {mappings : Mappings} : OnePerKey mappings ↔ OnePer mappingSlot mappings := by
  constructor
  · intro h m hm m' hm' key hkey hkey'
    exact h m hm m' hm' (Option.some.inj (hkey.trans hkey'.symm))
  · intro h m hm m' hm' hkey
    exact h m hm m' hm' m'.key (congrArg some hkey) rfl

theorem oneOpen_iff {alerts : Alerts} : OneOpen alerts ↔ OnePer alertSlot alerts := by
  constructor
  · intro h x hx y hy slot hxslot hyslot
    obtain ⟨hxopen, hxs⟩ := alertSlot_eq_some.mp hxslot
    obtain ⟨hyopen, hys⟩ := alertSlot_eq_some.mp hyslot
    exact h x hx y hy hxopen hyopen (hxs.trans hys.symm)
  · intro h x hx y hy hxopen hyopen hslot
    exact h x hx y hy y.slot (alertSlot_eq_some.mpr ⟨hxopen, hslot⟩)
      (alertSlot_eq_some.mpr ⟨hyopen, rfl⟩)

theorem runAudit_unique (hone : Unique db) (h : runAudit P inputs runId db = .ok db') :
    Unique db' := by
  obtain ⟨st, hst, rfl⟩ := runAudit_ok h
  obtain ⟨records, -, hmapped⟩ := auditLoop_recorded hone.1 hst
  exact ⟨hmapped.one, auditLoop_oneOpen hone.2 hst⟩

/-- A mapping after an audit was there, or is new under an assessed key that had none. -/
theorem runAudit_mapping_origin (hone : Unique db) (h : runAudit P inputs runId db = .ok db')
    {m : ComplianceMapping} (hm : m ∈ db'.mappings.rows) :
    (∃ m₀ ∈ db.mappings.rows, m₀.id = m.id ∧ m₀.key = m.key) ∨
      (m.id.run = runId ∧ Assessed inputs m.key ∧ ∀ m₀ ∈ db.mappings.rows, m₀.key ≠ m.key) := by
  obtain ⟨st, hst, rfl⟩ := runAudit_ok h
  obtain ⟨records, hrecorded, hmapped⟩ := auditLoop_recorded hone.1 hst
  rcases hmapped.origin m hm with hold | ⟨hrun, hkey, hfree⟩
  · exact .inl hold
  · exact .inr ⟨hrun, (mem_keys_iff_assessed hrecorded _).mp hkey, hfree⟩

/-- Every assessed key has a mapping after an audit. -/
theorem runAudit_assessed (hone : Unique db) (h : runAudit P inputs runId db = .ok db') {key : Key}
    (hkey : Assessed inputs key) : ∃ m ∈ db'.mappings.rows, m.key = key := by
  obtain ⟨st, hst, rfl⟩ := runAudit_ok h
  obtain ⟨records, hrecorded, hmapped⟩ := auditLoop_recorded hone.1 hst
  obtain ⟨r, hr, rfl⟩ := List.mem_map.mp ((mem_keys_iff_assessed hrecorded key).mpr hkey)
  obtain ⟨m, hm, hmkey, -⟩ := hmapped.lineage r hr
  exact ⟨m, hm, hmkey⟩

theorem runAudit_alert_origin (h : runAudit P inputs runId db = .ok db') {x : GapAlert}
    (hx : x ∈ db'.alerts.rows) :
    (∃ x₀ ∈ db.alerts.rows, x₀.id = x.id ∧ x₀.slot = x.slot ∧
        (x.status = .open → x₀.status = .open)) ∨
      (x.id.run = runId ∧ ∃ t, Alarming inputs t ∧ x.slot = t.slot ∧
        openAt db.alerts t.slot = []) := by
  obtain ⟨st, hst, rfl⟩ := runAudit_ok h
  exact (auditLoop_traced hst).origin x hx

theorem runAudit_opened (h : runAudit P inputs runId db = .ok db') {t : Turn}
    (ht : Alarming inputs t) : ∃ x ∈ db'.alerts.rows, x.slot = t.slot ∧ x.status = .open := by
  obtain ⟨st, hst, rfl⟩ := runAudit_ok h
  exact auditLoop_opened hst ht

/-! ## Audits in flight -/

/-- No row of the database is one that the run adds. -/
structure Unborn (runId : ℕ) (db : AuditDb) : Prop where
  mappings : ∀ m ∈ db.mappings.rows, m.id.run ≠ runId
  alerts : ∀ x ∈ db.alerts.rows, x.id.run ≠ runId

theorem unborn_of_drawn {n : ℕ} (h : DrawnBelow n db) (hle : n ≤ runId) : Unborn runId db where
  mappings m hm := ((h.mappings m hm).trans_le hle).ne
  alerts x hx := ((h.alerts x hx).trans_le hle).ne

/-- The audit ran on what it read, its rows are still its own, and the alerts that it read keep
their slots and stay closed. -/
structure PendingSound (P : Primitives) (s : State) (p : Pending) : Prop where
  ran : runAudit P p.inputs p.runId p.read = .ok p.after
  one : Unique p.read
  drawn : DrawnBelow p.runId p.read
  below : p.runId < s.nextRun
  unborn : Unborn p.runId s.db
  alerts : ∀ x₀ ∈ p.read.alerts.rows, ∀ x ∈ s.db.alerts.rows, x₀.id = x.id →
    x₀.slot = x.slot ∧ (x.status = .open → x₀.status = .open)

structure Sound (P : Primitives) (s : State) : Prop where
  one : Unique s.db
  drawn : DrawnBelow s.nextRun s.db
  pending : ∀ p ∈ s.inflight, PendingSound P s p
  apart : ∀ p ∈ s.inflight, ∀ q ∈ s.inflight, Unborn p.runId q.read
  distinct : s.inflight.Pairwise fun p q => p.runId ≠ q.runId

variable {s : State} {p : Pending}

/-- The mappings that an audit adds. -/
abbrev addedMappings (p : Pending) (db : AuditDb) : List ComplianceMapping :=
  added p.read.mappings p.after.mappings db.mappings

/-- The alerts that an audit adds. -/
abbrev addedAlerts (p : Pending) (db : AuditDb) : List GapAlert :=
  added p.read.alerts p.after.alerts db.alerts

theorem addedMapping_origin (hp : PendingSound P s p) {m : ComplianceMapping}
    (hm : m ∈ addedMappings p s.db) : m.id.run = p.runId ∧ Assessed p.inputs m.key ∧
      ∀ m₀ ∈ p.read.mappings.rows, m₀.key ≠ m.key := by
  obtain ⟨hafter, hread, -⟩ := mem_added.mp hm
  rcases runAudit_mapping_origin hp.one hp.ran hafter with ⟨m₀, hm₀, hid, -⟩ | hnew
  · exact absurd hid (Table.find_eq_none.mp hread m₀ hm₀)
  · exact hnew

theorem addedAlert_origin (hp : PendingSound P s p) {x : GapAlert}
    (hx : x ∈ addedAlerts p s.db) : x.id.run = p.runId ∧
      ∃ t, Alarming p.inputs t ∧ x.slot = t.slot ∧ openAt p.read.alerts t.slot = [] := by
  obtain ⟨hafter, hread, -⟩ := mem_added.mp hx
  rcases runAudit_alert_origin hp.ran hafter with ⟨x₀, hx₀, hid, -, -⟩ | hnew
  · exact absurd hid (Table.find_eq_none.mp hread x₀ hx₀)
  · exact hnew

/-- An assessed key without a mapping is one that the audit adds. -/
theorem exists_addedMapping (hp : PendingSound P s p) {key : Key} (hkey : Assessed p.inputs key)
    (hfree : ∀ m ∈ p.read.mappings.rows, m.key ≠ key) :
    ∃ m ∈ addedMappings p s.db, m.key = key := by
  obtain ⟨m, hm, rfl⟩ := runAudit_assessed hp.one hp.ran hkey
  rcases runAudit_mapping_origin hp.one hp.ran hm with ⟨m₀, hm₀, -, hkey₀⟩ | ⟨hrun, -, -⟩
  · exact absurd hkey₀ (hfree m₀ hm₀)
  · refine ⟨m, mem_added.mpr ⟨hm, Table.find_eq_none.mpr ?_, Table.find_eq_none.mpr ?_⟩, rfl⟩
    · intro m₀ hm₀ hid
      have hlt := hp.drawn.mappings m₀ hm₀
      rw [hid, hrun] at hlt
      exact lt_irrefl _ hlt
    · intro m₀ hm₀ hid
      exact hp.unborn.mappings m₀ hm₀ (hid ▸ hrun)

/-- An alarming turn whose slot was free has an alert that the audit adds. -/
theorem exists_addedAlert (hp : PendingSound P s p) {t : Turn} (ht : Alarming p.inputs t)
    (hfree : openAt p.read.alerts t.slot = []) :
    ∃ x ∈ addedAlerts p s.db, x.status = .open ∧ x.slot = t.slot := by
  obtain ⟨x, hx, hslot, hopen⟩ := runAudit_opened hp.ran ht
  rcases runAudit_alert_origin hp.ran hx with ⟨x₀, hx₀, -, hslot₀, hopen₀⟩ | ⟨hrun, -⟩
  · have hmem := mem_openAt.mpr ⟨hx₀, hslot₀.trans hslot, hopen₀ hopen⟩
    rw [hfree] at hmem
    cases hmem
  · refine ⟨x, mem_added.mpr ⟨hx, Table.find_eq_none.mpr ?_, Table.find_eq_none.mpr ?_⟩, hopen,
      hslot⟩
    · intro x₀ hx₀ hid
      have hlt := hp.drawn.alerts x₀ hx₀
      rw [hid, hrun] at hlt
      exact lt_irrefl _ hlt
    · intro x₀ hx₀ hid
      exact hp.unborn.alerts x₀ hx₀ (hid ▸ hrun)

/-! ## What a commit leaves -/

theorem mem_commit_mappings {m : ComplianceMapping} :
    m ∈ (commitAudit p s.db).mappings.rows ↔ (∃ a ∈ s.db.mappings.rows,
      updated mergeMapping p.read.mappings p.after.mappings a = m) ∨ m ∈ addedMappings p s.db :=
  mem_commit mergeMapping_id

theorem mem_commit_alerts {x : GapAlert} :
    x ∈ (commitAudit p s.db).alerts.rows ↔ (∃ a ∈ s.db.alerts.rows,
      updated mergeAlert p.read.alerts p.after.alerts a = x) ∨ x ∈ addedAlerts p s.db :=
  mem_commit mergeAlert_id

theorem updated_mapping_key (read after : Mappings) (m : ComplianceMapping) :
    (updated mergeMapping read after m).key = m.key := by
  unfold updated
  split
  · rfl
  · rfl

theorem updated_alert_slot (read after : Alerts) (x : GapAlert) :
    (updated mergeAlert read after x).slot = x.slot := by
  unfold updated
  split
  · rfl
  · rfl

/-- An alert that is open after a commit was open before it. -/
theorem updated_alert_open (hp : PendingSound P s p) {x : GapAlert}
    (h : (updated mergeAlert p.read.alerts p.after.alerts x).status = .open) :
    x.status = .open := by
  unfold updated at h
  split at h
  · rename_i loaded current hread hafter
    obtain ⟨hloaded, hlid⟩ := Table.find_eq_some.mp hread
    obtain ⟨hcurrent, hcid⟩ := Table.find_eq_some.mp hafter
    have hstatus : writeBack loaded.status current.status x.status = .open := h
    by_cases heq : current.status = loaded.status
    · rwa [heq, writeBack_unchanged] at hstatus
    · rw [writeBack_changed heq] at hstatus
      exfalso
      rcases runAudit_alert_origin hp.ran hcurrent with ⟨x₀, hx₀, hid, -, hopen⟩ | ⟨hrun, -⟩
      · have hsame : x₀ = loaded := Table.eq_of_key hx₀ hloaded (hid.trans (hcid.trans hlid.symm))
        exact heq (hstatus.trans (hsame ▸ hopen hstatus).symm)
      · have hlt := hp.drawn.alerts loaded hloaded
        rw [hlid, ← hcid, hrun] at hlt
        exact lt_irrefl _ hlt
  · exact h

/-- A commit leaves an alert open whose slot the audit found free. -/
theorem updated_alert_stays (hp : PendingSound P s p) {x : GapAlert} (hx : x ∈ s.db.alerts.rows)
    (hopen : x.status = .open) (hfree : openAt p.read.alerts x.slot = []) :
    (updated mergeAlert p.read.alerts p.after.alerts x).status = .open := by
  unfold updated
  split
  · rename_i loaded current hread hafter
    obtain ⟨hloaded, hlid⟩ := Table.find_eq_some.mp hread
    obtain ⟨hslot, hstays⟩ := hp.alerts loaded hloaded x hx hlid
    have hmem := mem_openAt.mpr ⟨hloaded, hslot, hstays hopen⟩
    rw [hfree] at hmem
    cases hmem
  · exact hopen

theorem commit_mappings_iff (hs : Sound P s) (hp : PendingSound P s p) :
    OnePerKey (commitAudit p s.db).mappings ↔
      ∀ key, Assessed p.inputs key → (∀ m ∈ p.read.mappings.rows, m.key ≠ key) →
        ∀ m ∈ s.db.mappings.rows, m.key ≠ key := by
  have hstored := onePerKey_iff.mp hs.one.1
  have hafter := onePerKey_iff.mp (runAudit_unique hp.one hp.ran).1
  have hslot : ∀ m, mappingSlot (updated mergeMapping p.read.mappings p.after.mappings m) =
      mappingSlot m := fun m => congrArg some (updated_mapping_key _ _ m)
  rw [onePerKey_iff]
  refine (onePer_commit_iff mergeMapping_id p.read.mappings hstored hafter
    (fun m _ key h => (hslot m).symm.trans h) fun m _ _ _ key _ h => (hslot m).trans h).trans ?_
  constructor
  · intro hfree key hkey habsent m hm heq
    obtain ⟨m', hm', hkey'⟩ := exists_addedMapping hp hkey habsent
    exact hfree m' hm' m hm key (congrArg some hkey') (congrArg some heq)
  · intro hfree m' hm' m hm key hkey' hkey
    obtain ⟨-, hassessed, habsent⟩ := addedMapping_origin hp hm'
    exact hfree m'.key hassessed habsent m hm (Option.some.inj (hkey.trans hkey'.symm))

theorem commit_alerts_iff (hs : Sound P s) (hp : PendingSound P s p) :
    OneOpen (commitAudit p s.db).alerts ↔
      ∀ t, Alarming p.inputs t → openAt p.read.alerts t.slot = [] →
        openAt s.db.alerts t.slot = [] := by
  have hstored := oneOpen_iff.mp hs.one.2
  have hafter := oneOpen_iff.mp (runAudit_unique hp.one hp.ran).2
  rw [oneOpen_iff]
  refine (onePer_commit_iff mergeAlert_id p.read.alerts hstored hafter ?_ ?_).trans ?_
  · intro x _ slot h
    obtain ⟨hopen, hslot⟩ := alertSlot_eq_some.mp h
    exact alertSlot_eq_some.mpr
      ⟨updated_alert_open hp hopen, (updated_alert_slot _ _ x).symm.trans hslot⟩
  · intro x hx r hr slot hr' hx'
    obtain ⟨hopen, hslot⟩ := alertSlot_eq_some.mp hx'
    obtain ⟨-, hrslot⟩ := alertSlot_eq_some.mp hr'
    obtain ⟨-, t, -, htslot, hfree⟩ := addedAlert_origin hp hr
    have hfound : openAt p.read.alerts x.slot = [] := by
      rw [hslot, ← hrslot, htslot]
      exact hfree
    exact alertSlot_eq_some.mpr
      ⟨updated_alert_stays hp hx hopen hfound, (updated_alert_slot _ _ x).trans hslot⟩
  · constructor
    · intro hfree t ht habsent
      obtain ⟨r, hr, hopen, hslot⟩ := exists_addedAlert hp ht habsent
      refine List.eq_nil_iff_forall_not_mem.mpr fun x hx => ?_
      obtain ⟨hmem, hxslot, hxopen⟩ := mem_openAt.mp hx
      exact hfree r hr x hmem t.slot (alertSlot_eq_some.mpr ⟨hopen, hslot⟩)
        (alertSlot_eq_some.mpr ⟨hxopen, hxslot⟩)
    · intro hfree r hr x hx slot hr' hx'
      obtain ⟨-, hrslot⟩ := alertSlot_eq_some.mp hr'
      obtain ⟨hopen, hslot⟩ := alertSlot_eq_some.mp hx'
      obtain ⟨-, t, ht, htslot, habsent⟩ := addedAlert_origin hp hr
      have hmem := mem_openAt.mpr ⟨hx, hslot.trans (hrslot.symm.trans htslot), hopen⟩
      rw [hfree t ht habsent] at hmem
      cases hmem

/-! ## Runs -/

theorem commitAudit_drawn {n : ℕ} (hp : PendingSound P s p) (hs : DrawnBelow n s.db)
    (hn : p.runId < n) : DrawnBelow n (commitAudit p s.db) := by
  have hafter : DrawnBelow n p.after := (runAudit_drawnBelow hp.drawn hp.ran).mono hn
  constructor
  · intro r hr
    rcases List.mem_append.mp hr with hr | hr
    · exact hs.results r hr
    · exact hafter.results r (List.mem_of_mem_drop hr)
  · intro m hm
    rcases mem_commit_mappings.mp hm with ⟨a, ha, rfl⟩ | hm
    · rw [updated_key mergeMapping_id]
      exact hs.mappings a ha
    · exact hafter.mappings m (mem_added.mp hm).1
  · intro x hx
    rcases mem_commit_alerts.mp hx with ⟨a, ha, rfl⟩ | hx
    · rw [updated_key mergeAlert_id]
      exact hs.alerts a ha
    · exact hafter.alerts x (mem_added.mp hx).1

/-- The other audits in flight stay sound when one commits. -/
theorem pendingSound_commit (hp : PendingSound P s p) {q : Pending} (hq : PendingSound P s q)
    (hne : q.runId ≠ p.runId) (hapart : Unborn p.runId q.read) {inflight : List Pending} :
    PendingSound P ⟨commitAudit p s.db, s.nextRun, inflight⟩ q := by
  refine ⟨hq.ran, hq.one, hq.drawn, hq.below, ⟨?_, ?_⟩, ?_⟩
  · intro m hm
    rcases mem_commit_mappings.mp hm with ⟨a, ha, rfl⟩ | hm
    · rw [updated_key mergeMapping_id]
      exact hq.unborn.mappings a ha
    · rw [(addedMapping_origin hp hm).1]
      exact hne.symm
  · intro x hx
    rcases mem_commit_alerts.mp hx with ⟨a, ha, rfl⟩ | hx
    · rw [updated_key mergeAlert_id]
      exact hq.unborn.alerts a ha
    · rw [(addedAlert_origin hp hx).1]
      exact hne.symm
  · intro x₀ hx₀ x hx hid
    rcases mem_commit_alerts.mp hx with ⟨a, ha, rfl⟩ | hx
    · rw [updated_key mergeAlert_id] at hid
      obtain ⟨hslot, hopen⟩ := hq.alerts x₀ hx₀ a ha hid
      exact ⟨hslot.trans (updated_alert_slot _ _ a).symm,
        fun h => hopen (updated_alert_open hp h)⟩
    · exact absurd (hid ▸ (addedAlert_origin hp hx).1) (hapart.alerts x₀ hx₀)

theorem sound_read (hs : Sound P s) (inputs : Inputs) : Sound P (step P s (.read inputs)) := by
  simp only [step]
  split
  · rename_i after hran
    have hdrawn : DrawnBelow (s.nextRun + 1) s.db := hs.drawn.mono (Nat.le_succ _)
    set p : Pending := ⟨s.nextRun, inputs, s.db, after⟩
    have hnew : PendingSound P ⟨s.db, s.nextRun + 1, s.inflight ++ [p]⟩ p := by
      refine ⟨hran, hs.one, hs.drawn, Nat.lt_succ_self _, unborn_of_drawn hs.drawn le_rfl, ?_⟩
      intro x₀ hx₀ x hx hid
      rw [Table.eq_of_key hx₀ hx hid]
      exact ⟨rfl, fun h => h⟩
    refine ⟨hs.one, hdrawn, ?_, ?_, ?_⟩
    · intro q hq
      rcases List.mem_append.mp hq with hq | hq
      · have h := hs.pending q hq
        exact ⟨h.ran, h.one, h.drawn, h.below.trans (Nat.lt_succ_self _), h.unborn, h.alerts⟩
      · rw [List.mem_singleton.mp hq]
        exact hnew
    · intro q hq q' hq'
      rcases List.mem_append.mp hq with hq | hq
      · rcases List.mem_append.mp hq' with hq' | hq'
        · exact hs.apart q hq q' hq'
        · rw [List.mem_singleton.mp hq']
          exact (hs.pending q hq).unborn
      · rw [List.mem_singleton.mp hq]
        rcases List.mem_append.mp hq' with hq' | hq'
        · have h := hs.pending q' hq'
          exact unborn_of_drawn h.drawn h.below.le
        · rw [List.mem_singleton.mp hq']
          exact unborn_of_drawn hs.drawn le_rfl
    · refine List.pairwise_append.mpr ⟨hs.distinct, List.pairwise_singleton .., ?_⟩
      intro q hq q' hq'
      rw [List.mem_singleton.mp hq']
      exact (hs.pending q hq).below.ne
  · refine ⟨hs.one, hs.drawn.mono (Nat.le_succ _), ?_, hs.apart, hs.distinct⟩
    intro q hq
    have h := hs.pending q hq
    exact ⟨h.ran, h.one, h.drawn, h.below.trans (Nat.lt_succ_self _), h.unborn, h.alerts⟩

/-- A commit keeps both tables unique if and only if the audit was alone. -/
theorem unique_step_iff (hs : Sound P s) (e : Event) : Unique (step P s e).db ↔ Alone s e := by
  cases e with
  | read inputs =>
    refine iff_of_true ?_ trivial
    exact (sound_read hs inputs).one
  | commit n =>
    simp only [step, Alone]
    split
    · rename_i hnone
      exact iff_of_true hs.one fun p hp => by rw [hnone] at hp; cases hp
    · rename_i p hsome
      have hp := hs.pending p (List.mem_of_getElem? hsome)
      refine (and_congr (commit_mappings_iff hs hp) (commit_alerts_iff hs hp)).trans ?_
      constructor
      · intro h q hq
        rw [hsome] at hq
        cases hq
        exact h
      · intro h
        exact h p hsome

theorem sound_step (hs : Sound P s) {e : Event} (halone : Alone s e) : Sound P (step P s e) := by
  cases e with
  | read inputs => exact sound_read hs inputs
  | commit n =>
    have hone := (unique_step_iff hs (.commit n)).mpr halone
    simp only [step] at hone ⊢
    split at hone
    · exact hs
    · rename_i p hsome
      have hmem := List.mem_of_getElem? hsome
      have hp := hs.pending p hmem
      have hother : ∀ q ∈ s.inflight.eraseIdx n, q ∈ s.inflight ∧ q.runId ≠ p.runId := by
        intro q hq
        obtain ⟨i, hi, hqi⟩ := List.mem_eraseIdx_iff_getElem?.mp hq
        refine ⟨List.mem_of_getElem? hqi, ?_⟩
        obtain ⟨hilt, hqi⟩ := List.getElem?_eq_some_iff.mp hqi
        obtain ⟨hnlt, hpn⟩ := List.getElem?_eq_some_iff.mp hsome
        have hdistinct := List.pairwise_iff_getElem.mp hs.distinct
        rcases Nat.lt_or_gt_of_ne hi with hlt | hgt
        · exact hqi ▸ hpn ▸ hdistinct i n hilt hnlt hlt
        · exact hqi ▸ hpn ▸ (hdistinct n i hnlt hilt hgt).symm
      refine ⟨hone, commitAudit_drawn hp hs.drawn hp.below, ?_, ?_, ?_⟩
      · intro q hq
        obtain ⟨hq, hne⟩ := hother q hq
        exact pendingSound_commit hp (hs.pending q hq) hne (hs.apart p hmem q hq)
      · intro q hq q' hq'
        exact hs.apart q (hother q hq).1 q' (hother q' hq').1
      · exact List.Pairwise.sublist (List.eraseIdx_sublist ..) hs.distinct

/-- A database between two audits: both tables are unique, and the next identifiers are free. -/
structure Quiet where
  db : AuditDb
  nextRun : ℕ
  one : Unique db
  drawn : DrawnBelow nextRun db

def Quiet.state (q : Quiet) : State := ⟨q.db, q.nextRun, []⟩

theorem sound_quiet (q : Quiet) : Sound P q.state where
  one := q.one
  drawn := q.drawn
  pending _ h := absurd h List.not_mem_nil
  apart _ h := absurd h List.not_mem_nil
  distinct := .nil

/-- Along any interleaving of audits both tables stay unique if and only if every audit that
commits was alone with the keys and the gaps that it had not found. -/
theorem unique_iff_alone (P : Primitives) (q : Quiet) (events : List Event) :
    Along (step P) (fun s e => Unique (step P s e).db) q.state events ↔
      Along (step P) Alone q.state events := by
  refine along_iff_of_invariant (Sound P) (fun s e hs => unique_step_iff hs e) ?_
    (sound_quiet q) events
  intro s e hs hunique
  exact sound_step hs ((unique_step_iff hs e).mp hunique)

/-- A database that no audit has written yet. -/
def Quiet.empty : Quiet where
  db := .empty
  nextRun := 0
  one := ⟨onePerKey_empty, fun _ h => absurd h List.not_mem_nil⟩
  drawn := drawnBelow_empty

/-- The scheduled audit and a manual one of the same inventory, which overlap. -/
def overlapping : List Event :=
  [.read ⟨inventory, frameworks, 5, 6, "scheduler"⟩, .read ⟨inventory, frameworks, 5, 6, "admin"⟩,
    .commit 0, .commit 0]

theorem overlapping_audits_duplicate :
    ¬ OnePerKey (run (step Primitives.plain) Quiet.empty.state overlapping).db.mappings ∧
      ¬ OneOpen (run (step Primitives.plain) Quiet.empty.state overlapping).db.alerts := by
  decide +kernel

end Kepryx.ConcurrentAudits
