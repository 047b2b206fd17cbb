import Mathlib.Data.List.Nodup
import Kepryx.Models
import Kepryx.Runs

/-!
# Retention of the audit log

Each run of the retention task marks old rows as archived, at most 10000 of them, and then, if
deletion is enabled, deletes every row past the retention period, archived or not. A row is
lost unarchived when the backlog of unarchived rows exceeds what one run can mark.
-/
namespace Kepryx.AuditRetention
open Kepryx.Models Kepryx.Tables Kepryx.Runs

/-- The columns of `audit_log` that the retention task reads and writes. -/
structure AuditLog where
  id : ℕ
  timestamp : Time
  archived : Bool := false
  deriving DecidableEq, Repr

/-- `AUDIT_LOG_ARCHIVE_DAYS` and `AUDIT_LOG_RETENTION_DAYS` -/
structure Policy where
  archiveDays : ℤ
  retentionDays : ℤ

/-- The order in which a query without `ORDER BY` returns its rows. -/
structure RowOrder where
  arrange : List AuditLog → List AuditLog
  perm : ∀ rows, (arrange rows).Perm rows

abbrev AuditTable := Table AuditLog.id

/-! ## The two passes -/

/-- The rows that the archive pass looks for. -/
def due (policy : Policy) (now : Time) (a : AuditLog) : Bool :=
  a.timestamp < now - days policy.archiveDays && !a.archived

/-- `old_logs` -/
def oldLogs (policy : Policy) (now : Time) (order : RowOrder) (t : AuditTable) : List AuditLog :=
  (order.arrange (t.rows.filter (due policy now))).take 10000

/-- `_archive_old_audit_logs` -/
def archiveOldAuditLogs (policy : Policy) (now : Time) (order : RowOrder) (t : AuditTable) :
    AuditTable :=
  let ids := (oldLogs policy now order t).map AuditLog.id
  t.mapRows (fun a => if a.id ∈ ids then { a with archived := true } else a)
    fun a => by split <;> rfl

/-- The rows past the retention period. -/
def expired (policy : Policy) (now : Time) (a : AuditLog) : Bool :=
  a.timestamp < now - days policy.retentionDays

/-- `_delete_expired_audit_logs` -/
def deleteExpiredAuditLogs (policy : Policy) (now : Time) (enabled : Bool) (t : AuditTable) :
    AuditTable :=
  if enabled then t.delete (expired policy now) else t

/-- What can happen: new rows arrive, or the retention task runs, with the time of each pass and
`RETENTION_DELETE_ENABLED`. -/
inductive Request where
  | arrive (id : ℕ) (timestamp : Time)
  | enforceAll (archiveNow deleteNow : Time) (deleteEnabled : Bool)
  deriving DecidableEq, Repr

/-- A request, and the order in which the query of the archive pass returns its rows. -/
abbrev Event := Request × RowOrder

def step (policy : Policy) (t : AuditTable) : Event → AuditTable
  | (.arrive id timestamp, _) => (t.insert? { id := id, timestamp := timestamp }).getD t
  | (.enforceAll archiveNow deleteNow deleteEnabled, order) =>
    deleteExpiredAuditLogs policy deleteNow deleteEnabled
      (archiveOldAuditLogs policy archiveNow order t)

/-! ## Rows that are deleted -/

/-- Every row that an event deletes is archived when the delete pass starts. -/
def DeletesArchived (policy : Policy) (t : AuditTable) : Event → Prop
  | (.arrive _ _, _) => True
  | (.enforceAll archiveNow deleteNow deleteEnabled, order) =>
    ∀ a ∈ (archiveOldAuditLogs policy archiveNow order t).rows,
      a ∉ (deleteExpiredAuditLogs policy deleteNow deleteEnabled
        (archiveOldAuditLogs policy archiveNow order t)).rows → a.archived

/-- Deletion is off, or no unarchived row is past the retention period, or all such rows are due
for the archive and one pass can mark everything that is due. -/
def BacklogCovered (policy : Policy) (t : AuditTable) : Request → Prop
  | .arrive _ _ => True
  | .enforceAll archiveNow deleteNow deleteEnabled =>
    deleteEnabled → ∀ a ∈ t.rows, a.archived = false → expired policy deleteNow a →
      due policy archiveNow a ∧ (t.rows.filter (due policy archiveNow)).length ≤ 10000

section Archive
variable {policy : Policy} {now : Time} {order : RowOrder} {t : AuditTable}

theorem mem_oldLogs {a : AuditLog} (h : a ∈ oldLogs policy now order t) :
    a ∈ t.rows ∧ due policy now a :=
  List.mem_filter.mp ((order.perm _).mem_iff.mp (List.mem_of_mem_take h))

/-- The ids that the pass marks are those of the rows it selected. -/
theorem id_mem_oldLogs {a : AuditLog} (ha : a ∈ t.rows) :
    a.id ∈ (oldLogs policy now order t).map AuditLog.id ↔ a ∈ oldLogs policy now order t := by
  constructor
  · intro h
    obtain ⟨b, hb, hid⟩ := List.mem_map.mp h
    have hsame : b = a := Table.eq_of_key (mem_oldLogs hb).1 ha hid
    exact hsame ▸ hb
  · intro h
    exact List.mem_map_of_mem h

/-- What stays unarchived is what was unarchived and not selected. -/
theorem mem_archive_unarchived {a : AuditLog} (harchived : a.archived = false) :
    a ∈ (archiveOldAuditLogs policy now order t).rows ↔
      a ∈ t.rows ∧ a ∉ oldLogs policy now order t := by
  unfold archiveOldAuditLogs
  rw [show ∀ f hf, (t.mapRows f hf).rows = t.rows.map f from fun _ _ => rfl, List.mem_map]
  constructor
  · rintro ⟨b, hb, h⟩
    split at h
    · rw [← h] at harchived
      cases harchived
    · rename_i hnot
      rw [id_mem_oldLogs hb, h] at hnot
      exact ⟨h ▸ hb, hnot⟩
  · rintro ⟨ha, hnot⟩
    refine ⟨a, ha, ?_⟩
    rw [if_neg (fun h => hnot ((id_mem_oldLogs ha).mp h))]

end Archive

/-- An enforcement deletes archived rows only, exactly when with deletion on every unarchived row
past the retention period is selected by the archive pass. -/
theorem deletesArchived_iff {policy : Policy} {t : AuditTable} {archiveNow deleteNow : Time}
    {deleteEnabled : Bool} {order : RowOrder} :
    DeletesArchived policy t (.enforceAll archiveNow deleteNow deleteEnabled, order) ↔
      (deleteEnabled → ∀ a ∈ t.rows, a.archived = false → expired policy deleteNow a →
        a ∈ oldLogs policy archiveNow order t) := by
  cases deleteEnabled with
  | false =>
    refine iff_of_true (fun a ha hgone => absurd ha ?_) fun h => by cases h
    exact hgone
  | true =>
    simp only [DeletesArchived, deleteExpiredAuditLogs, ↓reduceIte, Table.mem_delete, not_and,
      Bool.not_eq_false, forall_const]
    constructor
    · intro h a ha harchived hexpired
      by_contra hnot
      have hstays := (mem_archive_unarchived harchived).mpr ⟨ha, hnot⟩
      have hmarked := h a hstays fun _ => hexpired
      rw [harchived] at hmarked
      cases hmarked
    · intro h a ha hgone
      by_contra hnot
      have harchived : a.archived = false := by simpa using hnot
      obtain ⟨hrow, hleft⟩ := (mem_archive_unarchived harchived).mp ha
      exact hleft (h a hrow harchived (hgone ha))

/-- The order that returns one row last. -/
def lastInOrder (a : AuditLog) : RowOrder where
  arrange rows := if a ∈ rows then rows.erase a ++ [a] else rows
  perm rows := by
    split
    · rename_i ha
      exact (List.perm_append_singleton a _).trans (List.perm_cons_erase ha).symm
    · exact List.Perm.refl rows

/-- A backlog that one pass cannot mark can leave out any of its rows. -/
theorem notMem_oldLogs_lastInOrder {policy : Policy} {now : Time} {t : AuditTable} {a : AuditLog}
    (hlarge : 10000 < (t.rows.filter (due policy now)).length) :
    a ∉ oldLogs policy now (lastInOrder a) t := by
  intro h
  obtain ⟨ha, hdue⟩ := mem_oldLogs h
  have hmem : a ∈ t.rows.filter (due policy now) := List.mem_filter.mpr ⟨ha, hdue⟩
  have hnodup : (t.rows.filter (due policy now)).Nodup := t.nodup.of_map.filter _
  have hlength := List.length_erase_of_mem hmem
  simp only [oldLogs, lastInOrder, hmem, ↓reduceIte] at h
  rw [List.take_append_of_le_length (by omega)] at h
  exact hnodup.not_mem_erase (List.mem_of_mem_take h)

/-- Whatever rows the archive pass selects, an enforcement deletes archived rows only: exactly when
the backlog is covered. -/
theorem deletesArchived_all_orders {policy : Policy} {t : AuditTable} {r : Request} :
    (∀ order, DeletesArchived policy t (r, order)) ↔ BacklogCovered policy t r := by
  cases r with
  | arrive id timestamp => exact iff_of_true (fun _ => trivial) trivial
  | enforceAll archiveNow deleteNow deleteEnabled =>
    simp only [deletesArchived_iff]
    constructor
    · intro h henabled a ha harchived hexpired
      refine ⟨(mem_oldLogs (h (lastInOrder a) henabled a ha harchived hexpired)).2, ?_⟩
      by_contra hlarge
      exact notMem_oldLogs_lastInOrder (Nat.lt_of_not_le hlarge)
        (h (lastInOrder a) henabled a ha harchived hexpired)
    · intro h order henabled a ha harchived hexpired
      obtain ⟨hdue, hcount⟩ := h henabled a ha harchived hexpired
      have hlength : (order.arrange (t.rows.filter (due policy archiveNow))).length ≤ 10000 :=
        (order.perm _).length_eq.trans_le hcount
      rw [oldLogs, List.take_of_length_le hlength, (order.perm _).mem_iff]
      exact List.mem_filter.mpr ⟨ha, hdue⟩

/-- In all runs of a script of arrivals and enforcements, whatever the order in which the rows are
returned, only archived rows are deleted: exactly when in all of them every enforcement finds
its backlog covered. -/
theorem archived_before_deleted_iff (policy : Policy) (t : AuditTable) (script : List Request) :
    (∀ events : List Event, events.map Prod.fst = script →
      Along (step policy) (DeletesArchived policy) t events) ↔
    ∀ events : List Event, events.map Prod.fst = script →
      Along (step policy) (fun t e => BacklogCovered policy t e.1) t events :=
  along_choices_iff (fun _ _ => deletesArchived_all_orders) t script

/-! ## A backlog of 10001 rows -/

/-- The order of the table. -/
def storedOrder : RowOrder := ⟨id, fun _ => List.Perm.refl _⟩

/-- More rows of one day than one pass marks. -/
def backlog : AuditTable where
  rows := (List.range 10001).map fun i => { id := i, timestamp := 0 }
  nodup := by
    rw [List.map_map]
    exact (List.nodup_range).map fun _ _ h => h

theorem mem_backlog {a : AuditLog} :
    a ∈ backlog.rows ↔ ∃ i, i < 10001 ∧ { id := i, timestamp := 0 } = a := by
  simp only [backlog, List.mem_map, List.mem_range]

/-- Deletion is switched on after seven years: the last row is deleted unarchived. -/
theorem backlog_deleted_unarchived :
    ¬ ∀ (policy : Policy) (t : AuditTable) (events : List Event),
      policy.archiveDays ≤ policy.retentionDays →
      Along (step policy) (DeletesArchived policy) t events := by
  intro h
  have hrun := (h ⟨365, 2555⟩ backlog [(.enforceAll (days 2556) (days 2556) true, storedOrder)]
    (by decide)).1
  have hlast : (⟨10000, 0, false⟩ : AuditLog) ∈ backlog.rows :=
    mem_backlog.mpr ⟨10000, by omega, rfl⟩
  have hselected := deletesArchived_iff.mp hrun rfl _ hlast rfl (by decide)
  have hall : backlog.rows.filter (due ⟨365, 2555⟩ (days 2556)) = backlog.rows := by
    apply List.filter_eq_self.mpr
    intro a ha
    obtain ⟨i, _, rfl⟩ := mem_backlog.mp ha
    simp [due, days]
  rw [oldLogs, hall] at hselected
  simp only [storedOrder, id_eq, backlog, ← List.map_take, List.take_range, List.mem_map,
    List.mem_range] at hselected
  obtain ⟨i, hi, heq⟩ := hselected
  have hid : i = 10000 := congrArg AuditLog.id heq
  omega

end Kepryx.AuditRetention
