import Kepryx.AlertDeduplication
import Kepryx.StaleWrites

/-!
# The life of an alert

Every writer of `alerts` together: reconciliation, scans, proposals and retention insert rows, the
API, a clean self-security scan and an audit resolve them, the notification worker marks them, the
cleanup deletes what was resolved long ago, and the deletion of an asset clears the reference to
it. A writer loads its rows first and commits later; a commit that misses a row is rolled back.
-/
namespace Kepryx.AlertLifecycle
open Kepryx.Models Kepryx.Tables Kepryx.UnitOfWork Kepryx.StaleWrites Kepryx.Runs

/-- A row of `alerts`. -/
structure StoredAlert where
  id : ℕ
  alertType : String
  severity : String
  title : String
  description : String
  assetId : Option ℕ
  details : List (String × Option String)
  status : AlertStatus
  notified : Bool
  notificationChannels : List String
  createdAt : Time
  resolvedAt : Option Time
  resolvedBy : Option String
  deriving DecidableEq, Repr

/-- What a writer passes to `Alert(...)`; the other columns have defaults. -/
structure NewAlert where
  alertType : String
  severity : String
  title : String
  description : String
  assetId : Option ℕ := none
  details : List (String × Option String) := []
  notificationChannels : List String := []
  deriving DecidableEq, Repr

/-- The row of a new alert, in a transaction that started at the time `now`. -/
def NewAlert.row (new : NewAlert) (id : ℕ) (now : Time) : StoredAlert where
  id := id
  alertType := new.alertType
  severity := new.severity
  title := new.title
  description := new.description
  assetId := new.assetId
  details := new.details
  status := .open
  notified := false
  notificationChannels := new.notificationChannels
  createdAt := now
  resolvedAt := none
  resolvedBy := none

/-- What an audit finds for the control of an open gap alert. -/
inductive Verdict where
  | compliant
  | gap (description : String) (details : List (String × Option String))

/-- A writer that loads rows and changes some of them. An audit and the worker are given by what
they decide for a row. -/
inductive Writer where
  | resolveAlert (id : ℕ) (username : String)
  | cleanScan
  | runAudit (verdict : StoredAlert → Option Verdict)
  | dispatchPending (chosen : StoredAlert → Option (List String))

def StoredAlert.resolve (a : StoredAlert) (username : String) (time : Time) : StoredAlert :=
  { a with status := .resolved, resolvedAt := some time, resolvedBy := some username }

/-- The change of a loaded row, by a writer that read the clock at the time `time`. -/
def Writer.change (time : Time) : Writer → StoredAlert → Option StoredAlert
  | .resolveAlert id username, a => if a.id = id then some (a.resolve username time) else none
  | .cleanScan, a =>
    if a.alertType = "self_security" ∧ a.status = .open then
      some (a.resolve "self-security-scan" time)
    else none
  | .runAudit verdict, a =>
    if a.alertType = "compliance_gap" ∧ a.status = .open then
      (verdict a).map fun
        | .compliant => a.resolve "compliance_audit" time
        | .gap description details => { a with description := description, details := details }
    else none
  | .dispatchPending chosen, a =>
    if a.notified = false ∧ a.status = .open then
      (chosen a).map fun channels => { a with notified := true, notificationChannels := channels }
    else none

/-- The columns that a writer changed are written over the stored row. -/
def mergeAlert (loaded current stored : StoredAlert) : StoredAlert :=
  { stored with
    description := writeBack loaded.description current.description stored.description
    details := writeBack loaded.details current.details stored.details
    status := writeBack loaded.status current.status stored.status
    notified := writeBack loaded.notified current.notified stored.notified
    notificationChannels := writeBack loaded.notificationChannels current.notificationChannels
      stored.notificationChannels
    resolvedAt := writeBack loaded.resolvedAt current.resolvedAt stored.resolvedAt
    resolvedBy := writeBack loaded.resolvedBy current.resolvedBy stored.resolvedBy }

def protocol : Protocol StoredAlert.id (Writer × Time) where
  change op := op.1.change op.2
  merge := mergeAlert
  merge_key _ _ _ := rfl

/-- The committed rows, the clock, the number of rows that were ever inserted, from which the
identifiers are drawn, and the changes that writers hold. -/
structure State where
  now : Time
  drawn : ℕ
  alerts : Table StoredAlert.id
  inflight : List (Writes StoredAlert.id)

def start (now : Time) : State := ⟨now, 0, .empty, []⟩

/-- `ALERT_RETENTION_DAYS` -/
def alertRetentionDays : ℤ := 180

/-- The condition of the `DELETE` of `_cleanup_old_data`. -/
def expired (now : Time) (a : StoredAlert) : Bool :=
  a.status = .resolved && a.resolvedAt.any (· < now - days alertRetentionDays)

/-- An `UPDATE` of the commit finds no row. -/
def missesRow (alerts : Table StoredAlert.id) (writes : Writes StoredAlert.id) : Bool :=
  writes.rows.any fun w => w.1 ≠ w.2 && (alerts.find w.1.id).isNone

/-- `ON DELETE SET NULL` -/
def unlink (assetId : ℕ) (a : StoredAlert) : StoredAlert :=
  if a.assetId = some assetId then { a with assetId := none } else a

theorem unlink_id (assetId : ℕ) (a : StoredAlert) : (unlink assetId a).id = a.id := by
  unfold unlink
  split <;> rfl

/-- Time passes, a transaction that began some time ago inserts an alert, a writer that read the
clock some time ago loads its rows, the writer at a position commits or rolls back, the cleanup
runs, or an asset is deleted. -/
inductive Event where
  | tick (microseconds : ℕ)
  | raise (new : NewAlert) (age : ℕ)
  | load (writer : Writer) (age : ℕ)
  | finish (n : ℕ) (committed : Bool)
  | cleanup
  | deleteAsset (assetId : ℕ)

/-- The new row under the next identifier, which no row has yet. -/
def State.raise (s : State) (new : NewAlert) (age : ℕ) : State :=
  { s with
    drawn := s.drawn + 1
    alerts := (s.alerts.insert? (new.row s.drawn (s.now - age))).getD s.alerts }

def step (s : State) : Event → State
  | .tick microseconds => { s with now := s.now + microseconds }
  | .raise new age => s.raise new age
  | .load writer age =>
    { s with inflight := s.inflight ++ [readRows protocol (writer, s.now - age) s.alerts] }
  | .finish n committed =>
    match s.inflight[n]? with
    | none => s
    | some writes =>
      let s := { s with inflight := s.inflight.eraseIdx n }
      if committed = false ∨ missesRow s.alerts writes then s
      else { s with
        alerts := s.alerts.mapRows (commitRow protocol writes) (commitRow_key protocol writes) }
  | .cleanup => { s with alerts := s.alerts.delete (expired s.now) }
  | .deleteAsset assetId =>
    { s with alerts := s.alerts.mapRows (unlink assetId) (unlink_id assetId) }

/-! ## What a row may become -/

/-- A resolved row says when and by whom, an open one does not. -/
def Marked (a : StoredAlert) : Prop :=
  match a.status with
  | .open => a.resolvedAt = none ∧ a.resolvedBy = none
  | .resolved => a.resolvedAt.isSome ∧ a.resolvedBy.isSome

/-- The row `b` is what the row `a` may have become: it is the same alert, a resolved one is not
open again and a notified one is not notified anew, and its asset is the same or deleted. -/
structure Later (a b : StoredAlert) : Prop where
  id : b.id = a.id
  alertType : b.alertType = a.alertType
  severity : b.severity = a.severity
  title : b.title = a.title
  createdAt : b.createdAt = a.createdAt
  assetId : b.assetId = a.assetId ∨ b.assetId = none
  resolved : a.status = .resolved → b.status = .resolved
  notified : a.notified = true → b.notified = true

theorem Later.refl (a : StoredAlert) : Later a a :=
  ⟨rfl, rfl, rfl, rfl, rfl, .inl rfl, fun h => h, fun h => h⟩

theorem Later.trans {a b c : StoredAlert} (hab : Later a b) (hbc : Later b c) : Later a c where
  id := hbc.id.trans hab.id
  alertType := hbc.alertType.trans hab.alertType
  severity := hbc.severity.trans hab.severity
  title := hbc.title.trans hab.title
  createdAt := hbc.createdAt.trans hab.createdAt
  assetId := by
    rcases hbc.assetId with h | h
    · rw [h]
      exact hab.assetId
    · exact .inr h
  resolved h := hbc.resolved (hab.resolved h)
  notified h := hbc.notified (hab.notified h)

theorem marked_row (new : NewAlert) (id : ℕ) (now : Time) : Marked (new.row id now) := ⟨rfl, rfl⟩

theorem later_unlink (assetId : ℕ) (a : StoredAlert) : Later a (unlink assetId a) := by
  unfold unlink
  split
  · exact ⟨rfl, rfl, rfl, rfl, rfl, .inr rfl, fun h => h, fun h => h⟩
  · exact .refl a

theorem marked_unlink {assetId : ℕ} {a : StoredAlert} (h : Marked a) :
    Marked (unlink assetId a) := by
  unfold unlink
  split
  · exact h
  · exact h

/-- What a writer does to a row that it loaded: it resolves it, describes a gap anew, or marks an
open row as notified. -/
theorem change_cases {op : Writer × Time} {a b : StoredAlert} (h : protocol.change op a = some b) :
    (∃ username, b = a.resolve username op.2) ∨
    (∃ description details, b = { a with description := description, details := details }) ∨
    a.notified = false ∧
      ∃ channels, b = { a with notified := true, notificationChannels := channels } := by
  obtain ⟨writer, time⟩ := op
  cases writer with
  | resolveAlert id username =>
    simp only [protocol, Writer.change] at h
    split at h
    · cases h
      exact .inl ⟨username, rfl⟩
    · cases h
  | cleanScan =>
    simp only [protocol, Writer.change] at h
    split at h
    · cases h
      exact .inl ⟨_, rfl⟩
    · cases h
  | runAudit verdict =>
    simp only [protocol, Writer.change] at h
    split at h
    · obtain ⟨v, -, rfl⟩ := Option.map_eq_some_iff.mp h
      cases v with
      | compliant => exact .inl ⟨_, rfl⟩
      | gap description details => exact .inr (.inl ⟨description, details, rfl⟩)
    · cases h
  | dispatchPending chosen =>
    simp only [protocol, Writer.change] at h
    split at h
    · rename_i hopen
      obtain ⟨channels, -, rfl⟩ := Option.map_eq_some_iff.mp h
      exact .inr (.inr ⟨hopen.1, channels, rfl⟩)
    · cases h

theorem isSome_writeBack {α : Type*} [DecidableEq α] {loaded stored : Option α} {x : α}
    (h : loaded = none ∨ stored.isSome) : (writeBack loaded (some x) stored).isSome := by
  unfold writeBack
  split
  · rename_i hsame
    exact h.resolve_left fun hnone => by rw [hnone] at hsame; cases hsame
  · rfl

/-- A commit over what the loaded row has become since. -/
theorem merge_later {op : Writer × Time} {loaded current stored : StoredAlert}
    (hchange : protocol.change op loaded = some current) (hloaded : Marked loaded)
    (hstored : Marked stored) (hlater : Later loaded stored) :
    Later stored (mergeAlert loaded current stored) ∧
      Marked (mergeAlert loaded current stored) := by
  rcases change_cases hchange with ⟨username, rfl⟩ | ⟨description, details, rfl⟩ |
    ⟨hnotified, channels, rfl⟩
  · -- A row that was loaded as open has no resolution yet, so all three columns are written.
    have hwritten : loaded.resolvedAt = none ∧ loaded.resolvedBy = none ∨
        stored.resolvedAt.isSome ∧ stored.resolvedBy.isSome := by
      unfold Marked at hloaded hstored
      cases hstatus : loaded.status with
      | «open» =>
        rw [hstatus] at hloaded
        exact .inl hloaded
      | resolved =>
        rw [hlater.resolved hstatus] at hstored
        exact .inr hstored
    have hresolved : (mergeAlert loaded (loaded.resolve username op.2) stored).status =
        .resolved := by
      by_cases hstatus : AlertStatus.resolved = loaded.status
      · exact (if_pos hstatus).trans (hlater.resolved hstatus.symm)
      · exact if_neg hstatus
    refine ⟨⟨rfl, rfl, rfl, rfl, rfl, .inl rfl, fun _ => hresolved, fun h => ?_⟩, ?_⟩
    · exact (writeBack_unchanged loaded.notified stored.notified).trans h
    · rw [Marked, hresolved]
      exact ⟨isSome_writeBack (hwritten.imp And.left And.left),
        isSome_writeBack (hwritten.imp And.right And.right)⟩
  · have hcolumns : mergeAlert loaded { loaded with description := description, details := details }
        stored = { stored with
          description := writeBack loaded.description description stored.description
          details := writeBack loaded.details details stored.details } := by
      simp only [mergeAlert, writeBack_unchanged]
    rw [hcolumns]
    exact ⟨⟨rfl, rfl, rfl, rfl, rfl, .inl rfl, fun h => h, fun h => h⟩, hstored⟩
  · have hcolumns : mergeAlert loaded { loaded with
          notified := true, notificationChannels := channels } stored = { stored with
          notified := writeBack loaded.notified true stored.notified
          notificationChannels := writeBack loaded.notificationChannels channels
            stored.notificationChannels } := by
      simp only [mergeAlert, writeBack_unchanged]
    rw [hcolumns]
    refine ⟨⟨rfl, rfl, rfl, rfl, rfl, .inl rfl, fun h => h, fun _ => ?_⟩, hstored⟩
    exact writeBack_changed (by rw [hnotified]; decide) _

/-! ## One step -/

/-- Every change in flight is one of a row that was stored, and the stored row is what the loaded
one may have become. Identifiers are drawn once. -/
structure Consistent (s : State) : Prop where
  marked : ∀ a ∈ s.alerts.rows, Marked a
  drawn : ∀ a ∈ s.alerts.rows, a.id < s.drawn
  change : ∀ writes ∈ s.inflight, ∀ w ∈ writes.rows, ∃ op, protocol.change op w.1 = some w.2
  loaded : ∀ writes ∈ s.inflight, ∀ w ∈ writes.rows, Marked w.1 ∧ w.1.id < s.drawn
  later : ∀ writes ∈ s.inflight, ∀ w ∈ writes.rows, ∀ a ∈ s.alerts.rows, a.id = w.1.id →
    Later w.1 a

theorem raise_rows {s : State} (hs : Consistent s) (new : NewAlert) (age : ℕ) :
    (s.raise new age).alerts.rows = s.alerts.rows ++ [new.row s.drawn (s.now - age)] := by
  cases h : s.alerts.insert? (new.row s.drawn (s.now - age)) with
  | some t =>
    have hraise : (s.raise new age).alerts = t := by rw [State.raise, h, Option.getD_some]
    rw [hraise, (Table.insert?_eq_some h).1]
  | none =>
    obtain ⟨a, ha⟩ := Option.isSome_iff_exists.mp (Table.insert?_eq_none.mp h)
    obtain ⟨ha, hid⟩ := Table.find_eq_some.mp ha
    exact absurd hid (Nat.ne_of_lt (hs.drawn a ha))

/-- A commit leaves a later row of every stored one. -/
theorem later_commitRow {s : State} (hs : Consistent s) {writes : Writes StoredAlert.id}
    (hwrites : writes ∈ s.inflight) {a : StoredAlert} (ha : a ∈ s.alerts.rows) :
    Later a (commitRow protocol writes a) ∧ Marked (commitRow protocol writes a) := by
  unfold commitRow
  split
  · rename_i w hw
    obtain ⟨hw, hid⟩ := Table.find_eq_some.mp hw
    obtain ⟨op, hchange⟩ := hs.change writes hwrites w hw
    exact merge_later hchange (hs.loaded writes hwrites w hw).1 (hs.marked a ha)
      (hs.later writes hwrites w hw a ha hid.symm)
  · exact ⟨.refl a, hs.marked a ha⟩

/-- A row after a step is a later one of a stored row, or a new one. -/
theorem row_origin {s : State} (hs : Consistent s) {e : Event} {b : StoredAlert}
    (hb : b ∈ (step s e).alerts.rows) : Marked b ∧ ((∃ a ∈ s.alerts.rows, Later a b) ∨
      b.id = s.drawn ∧ ∃ new age, e = .raise new age) := by
  cases e with
  | tick microseconds => exact ⟨hs.marked b hb, .inl ⟨b, hb, .refl b⟩⟩
  | raise new age =>
    rw [step, raise_rows hs] at hb
    rcases List.mem_append.mp hb with hb | hb
    · exact ⟨hs.marked b hb, .inl ⟨b, hb, .refl b⟩⟩
    · rw [List.mem_singleton.mp hb]
      exact ⟨marked_row _ _ _, .inr ⟨rfl, new, age, rfl⟩⟩
  | load writer age => exact ⟨hs.marked b hb, .inl ⟨b, hb, .refl b⟩⟩
  | finish n committed =>
    rw [step] at hb
    split at hb
    · exact ⟨hs.marked b hb, .inl ⟨b, hb, .refl b⟩⟩
    · rename_i writes hwrites
      dsimp only at hb
      split at hb
      · exact ⟨hs.marked b hb, .inl ⟨b, hb, .refl b⟩⟩
      · obtain ⟨a, ha, rfl⟩ := List.mem_map.mp hb
        obtain ⟨hlater, hmarked⟩ := later_commitRow hs (List.mem_of_getElem? hwrites) ha
        exact ⟨hmarked, .inl ⟨a, ha, hlater⟩⟩
  | cleanup =>
    have hb := (Table.mem_delete.mp hb).1
    exact ⟨hs.marked b hb, .inl ⟨b, hb, .refl b⟩⟩
  | deleteAsset assetId =>
    obtain ⟨a, ha, rfl⟩ := List.mem_map.mp hb
    exact ⟨marked_unlink (hs.marked a ha), .inl ⟨a, ha, later_unlink assetId a⟩⟩

/-- What a step leaves of a stored row: a later one, or nothing if the cleanup deletes it. -/
theorem row_step {s : State} (hs : Consistent s) (e : Event) {a : StoredAlert}
    (ha : a ∈ s.alerts.rows) :
    (∃ b ∈ (step s e).alerts.rows, Later a b) ∨ e = .cleanup ∧ expired s.now a = true := by
  cases e with
  | tick microseconds => exact .inl ⟨a, ha, .refl a⟩
  | raise new age =>
    refine .inl ⟨a, ?_, .refl a⟩
    rw [step, raise_rows hs]
    exact List.mem_append_left _ ha
  | load writer age => exact .inl ⟨a, ha, .refl a⟩
  | finish n committed =>
    rw [step]
    split
    · exact .inl ⟨a, ha, .refl a⟩
    · rename_i writes hwrites
      dsimp only
      split
      · exact .inl ⟨a, ha, .refl a⟩
      · exact .inl ⟨_, List.mem_map.mpr ⟨a, ha, rfl⟩,
          (later_commitRow hs (List.mem_of_getElem? hwrites) ha).1⟩
  | cleanup =>
    cases hexpired : expired s.now a with
    | true => exact .inr ⟨rfl, rfl⟩
    | false => exact .inl ⟨a, Table.mem_delete.mpr ⟨ha, hexpired⟩, .refl a⟩
  | deleteAsset assetId =>
    exact .inl ⟨_, List.mem_map.mpr ⟨a, ha, rfl⟩, later_unlink assetId a⟩

/-- A writer in flight was in flight before, or has just loaded its rows. -/
theorem inflight_origin {s : State} {e : Event} {writes : Writes StoredAlert.id}
    (h : writes ∈ (step s e).inflight) : writes ∈ s.inflight ∨
      (step s e).alerts = s.alerts ∧ ∃ op, writes = readRows protocol op s.alerts := by
  cases e with
  | tick microseconds => exact .inl h
  | raise new age => exact .inl h
  | load writer age =>
    rcases List.mem_append.mp h with h | h
    · exact .inl h
    · exact .inr ⟨rfl, _, List.mem_singleton.mp h⟩
  | finish n committed =>
    rw [step] at h
    split at h
    · exact .inl h
    · dsimp only at h
      split at h
      · exact .inl (List.mem_of_mem_eraseIdx h)
      · exact .inl (List.mem_of_mem_eraseIdx h)
  | cleanup => exact .inl h
  | deleteAsset assetId => exact .inl h

theorem drawn_step (s : State) (e : Event) : s.drawn ≤ (step s e).drawn := by
  cases e with
  | raise new age => exact Nat.le_succ _
  | finish n committed =>
    rw [step]
    split
    · exact le_refl _
    · dsimp only
      split <;> exact le_refl _
  | _ => exact le_refl _

theorem consistent_step {s : State} (hs : Consistent s) (e : Event) : Consistent (step s e) := by
  have hdrawn := drawn_step s e
  constructor
  · exact fun b hb => (row_origin hs hb).1
  · intro b hb
    rcases (row_origin hs hb).2 with ⟨a, ha, hlater⟩ | ⟨hid, new, age, rfl⟩
    · rw [hlater.id]
      exact (hs.drawn a ha).trans_le hdrawn
    · rw [hid]
      exact Nat.lt_succ_self _
  · intro writes hwrites w hw
    rcases inflight_origin hwrites with hwrites | ⟨-, op, rfl⟩
    · exact hs.change writes hwrites w hw
    · exact ⟨op, (mem_readRows.mp hw).2⟩
  · intro writes hwrites w hw
    rcases inflight_origin hwrites with hwrites | ⟨-, op, rfl⟩
    · exact ⟨(hs.loaded writes hwrites w hw).1, (hs.loaded writes hwrites w hw).2.trans_le hdrawn⟩
    · have hrow := (mem_readRows.mp hw).1
      exact ⟨hs.marked w.1 hrow, (hs.drawn w.1 hrow).trans_le hdrawn⟩
  · intro writes hwrites w hw b hb hid
    rcases inflight_origin hwrites with hwrites | ⟨halerts, op, rfl⟩
    · rcases (row_origin hs hb).2 with ⟨a, ha, hlater⟩ | ⟨hnew, -⟩
      · exact (hs.later writes hwrites w hw a ha (hlater.id.symm.trans hid)).trans hlater
      · exact absurd (hid.symm.trans hnew) (Nat.ne_of_lt (hs.loaded writes hwrites w hw).2)
    · rw [halerts] at hb
      rw [Table.eq_of_key hb (mem_readRows.mp hw).1 hid]
      exact .refl _

theorem consistent_start (now : Time) : Consistent (start now) where
  marked _ ha := absurd ha List.not_mem_nil
  drawn _ ha := absurd ha List.not_mem_nil
  change _ h := absurd h List.not_mem_nil
  loaded _ h := absurd h List.not_mem_nil
  later _ h := absurd h List.not_mem_nil

/-! ## Every run -/

/-- The row is due for the next cleanup: it was resolved more than 180 days before. -/
def Outlived (s : State) (a : StoredAlert) : Prop :=
  ∃ b ∈ s.alerts.rows, Later a b ∧ b.status = .resolved ∧
    ∃ resolved ∈ b.resolvedAt, resolved + days alertRetentionDays < s.now

/-- One of the events is a cleanup that deletes the row, which was due for it, and from then on
no row has its identifier. -/
def Deleted (s : State) (a : StoredAlert) (es : List Event) : Prop :=
  ∃ es', es' ++ [.cleanup] <+: es ∧ Outlived (run step s es') a ∧
    ∀ es'', es' ++ [.cleanup] <+: es'' → es'' <+: es →
      ∀ b ∈ (run step s es'').alerts.rows, b.id ≠ a.id

theorem outlived_of_expired {s : State} {a : StoredAlert} (ha : a ∈ s.alerts.rows)
    (h : expired s.now a = true) : Outlived s a := by
  rw [expired, Bool.and_eq_true, decide_eq_true_eq, Option.any_eq_true] at h
  obtain ⟨hstatus, resolved, hresolved, hlt⟩ := h
  exact ⟨a, ha, .refl a, hstatus, resolved, hresolved,
    lt_sub_iff_add_lt.mp (of_decide_eq_true hlt)⟩

/-- A deleted row does not come back, since its identifier is not drawn again. -/
theorem absent_run {s : State} (hs : Consistent s) {id : ℕ} (hid : id < s.drawn)
    (habsent : ∀ b ∈ s.alerts.rows, b.id ≠ id) (es : List Event) :
    ∀ b ∈ (run step s es).alerts.rows, b.id ≠ id := by
  induction es generalizing s with
  | nil => exact habsent
  | cons e es ih =>
    refine ih (consistent_step hs e) (hid.trans_le (drawn_step s e)) fun b hb => ?_
    rcases (row_origin hs hb).2 with ⟨a, ha, hlater⟩ | ⟨hnew, -⟩
    · rw [hlater.id]
      exact habsent a ha
    · rw [hnew]
      exact (Nat.ne_of_lt hid).symm

/-- The cleanup deletes an expired row. -/
theorem deleted_of_expired {s : State} (hs : Consistent s) {a : StoredAlert}
    (ha : a ∈ s.alerts.rows) (h : expired s.now a = true) (es : List Event) :
    Deleted s a (.cleanup :: es) := by
  refine ⟨[], ⟨es, rfl⟩, outlived_of_expired ha h, ?_⟩
  rintro _ ⟨es', rfl⟩ -
  refine absent_run (consistent_step hs .cleanup) (hs.drawn a ha) (fun b hb hid => ?_) es'
  obtain ⟨hb, hkept⟩ := Table.mem_delete.mp hb
  rw [Table.eq_of_key hb ha hid, h] at hkept
  cases hkept

theorem Deleted.cons {s : State} {a b : StoredAlert} {e : Event} {es : List Event}
    (hlater : Later a b) (h : Deleted (step s e) b es) : Deleted s a (e :: es) := by
  obtain ⟨es', hes', ⟨c, hc, hbc, hresolved⟩, habsent⟩ := h
  refine ⟨e :: es', List.cons_prefix_cons.mpr ⟨rfl, hes'⟩, ⟨c, hc, hlater.trans hbc, hresolved⟩,
    fun es'' hafter hbefore => ?_⟩
  obtain ⟨rest, rfl⟩ := hafter
  rw [← hlater.id]
  exact habsent _ ⟨rest, rfl⟩ (List.cons_prefix_cons.mp hbefore).2

/-- Whatever writers overlap, a stored alert stays what it is: it is not opened or notified anew
and keeps its asset as long as that is there. Only the cleanup deletes it, when it has been
resolved for more than 180 days. -/
theorem alert_kept {s : State} (hs : Consistent s) {a : StoredAlert} (ha : a ∈ s.alerts.rows)
    (es : List Event) :
    (∃ b ∈ (run step s es).alerts.rows, Later a b ∧ Marked b) ∨ Deleted s a es := by
  induction es generalizing s a with
  | nil => exact .inl ⟨a, ha, .refl a, hs.marked a ha⟩
  | cons e es ih =>
    rcases row_step hs e ha with ⟨b, hb, hlater⟩ | ⟨rfl, hexpired⟩
    · rcases ih (consistent_step hs e) hb with ⟨c, hc, hbc, hmarked⟩ | hdeleted
      · exact .inl ⟨c, hc, hlater.trans hbc, hmarked⟩
      · exact .inr (hdeleted.cons hlater)
    · exact .inr (deleted_of_expired hs ha hexpired es)

/-- A row with the identifier of a stored alert is what that alert has become. -/
theorem later_run {s : State} (hs : Consistent s) {a b : StoredAlert} (ha : a ∈ s.alerts.rows)
    {es : List Event} (hb : b ∈ (run step s es).alerts.rows) (hid : b.id = a.id) : Later a b := by
  rcases alert_kept hs ha es with ⟨c, hc, hlater, -⟩ | ⟨es', hes', -, habsent⟩
  · rwa [Table.eq_of_key hb hc (hid.trans hlater.id.symm)]
  · exact absurd hid (habsent es hes' (List.prefix_refl es) b hb)

theorem consistent_run (now : Time) (es : List Event) : Consistent (run step (start now) es) :=
  run_invariant Consistent (fun _ e hs => consistent_step hs e) (consistent_start now) es

/-- The life of every alert in every run that begins with no alerts. -/
theorem alert_life (now : Time) (before after : List Event) {a : StoredAlert}
    (ha : a ∈ (run step (start now) before).alerts.rows) :
    (∃ b ∈ (run step (start now) (before ++ after)).alerts.rows, Later a b ∧ Marked b) ∨
      Deleted (run step (start now) before) a after := by
  have happend : run step (start now) (before ++ after) =
      run step (run step (start now) before) after := List.foldl_append
  rw [happend]
  exact alert_kept (consistent_run now before) ha after

def inactiveUser : NewAlert where
  alertType := "inactive_user"
  severity := "medium"
  title := "Inactive user account: alice"
  description := "User alice has not logged in for >365 days."

/-- An alert that was resolved is deleted half a year and a second later. -/
theorem inactive_user_deleted :
    Deleted (run step (start 0) [.raise inactiveUser 0]) (inactiveUser.row 0 0)
      [.load (.resolveAlert 0 "root") 0, .finish 0 true, .tick 15552001000000, .cleanup] := by
  refine (alert_life 0 [.raise inactiveUser 0] [.load (.resolveAlert 0 "root") 0, .finish 0 true,
    .tick 15552001000000, .cleanup] List.mem_cons_self).resolve_left ?_
  rintro ⟨b, hb, -⟩
  have hnone : (run step (start 0) ([.raise inactiveUser 0] ++
      [.load (.resolveAlert 0 "root") 0, .finish 0 true, .tick 15552001000000,
        .cleanup])).alerts.rows = [] := by decide +kernel
  rw [hnone] at hb
  exact List.not_mem_nil hb

end Kepryx.AlertLifecycle
