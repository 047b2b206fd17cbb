import Kepryx.Runs
import Kepryx.Tables
import Kepryx.UnitOfWork

/-!
# Reads that are committed later

An operation reads rows of a table, decides from what it read how to change them, and
commits any time later. The commit addresses the rows by key and writes the columns that
the operation changed, over whatever the table holds by then; there is no version check
and the last writer wins. Any number of operations may be between their read and their
commit, and some of them never commit.
-/
namespace Kepryx.StaleWrites
open Kepryx.Tables Kepryx.UnitOfWork Kepryx.Runs

variable {ρ κ ω α : Type*} {key : ρ → κ}

/-- The operations on the rows of a table: how an operation changes a row that it read, if it
does, and what the commit of a change from `loaded` to `current` leaves of a stored row. -/
structure Protocol (key : ρ → κ) (ω : Type*) where
  change : ω → ρ → Option ρ
  merge : ρ → ρ → ρ → ρ
  merge_key : ∀ loaded current stored, key (merge loaded current stored) = key stored

/-- The changes that an operation holds: at most one for each row that it read. -/
abbrev Writes (key : ρ → κ) := Table fun w : ρ × ρ => key w.1

/-- The changes of an operation that reads the table. -/
def readRows (P : Protocol key ω) (op : ω) (t : Table key) : Writes key where
  rows := t.rows.filterMap fun r => (P.change op r).map (r, ·)
  nodup := by
    rw [List.map_filterMap]
    refine List.Nodup.sublist ?_ t.nodup
    have hsub : ∀ rs : List ρ, List.Sublist
        (rs.filterMap fun r => ((P.change op r).map (r, ·)).map fun w => key w.1) (rs.map key) := by
      intro rs
      induction rs with
      | nil => exact .slnil
      | cons r rs ih =>
        cases h : P.change op r with
        | none => simpa [h] using ih.cons (key r)
        | some r' => simpa [h] using ih.cons_cons (key r)
    exact hsub t.rows

theorem mem_readRows {P : Protocol key ω} {op : ω} {t : Table key} {w : ρ × ρ} :
    w ∈ (readRows P op t).rows ↔ w.1 ∈ t.rows ∧ P.change op w.1 = some w.2 := by
  simp only [readRows, List.mem_filterMap, Option.map_eq_some_iff]
  constructor
  · rintro ⟨r, hr, r', hr', rfl⟩
    exact ⟨hr, hr'⟩
  · rintro ⟨hr, hr'⟩
    exact ⟨w.1, hr, w.2, hr', rfl⟩

/-- The commit of the changes, by key. -/
def commitRow (P : Protocol key ω) [DecidableEq κ] (writes : Writes key) (stored : ρ) : ρ :=
  match writes.find (key stored) with
  | some w => P.merge w.1 w.2 stored
  | none => stored

theorem commitRow_key (P : Protocol key ω) [DecidableEq κ] (writes : Writes key) (stored : ρ) :
    key (commitRow P writes stored) = key stored := by
  unfold commitRow
  split
  · exact P.merge_key ..
  · rfl

/-- The table, and the operations between their read and their commit. -/
structure State (key : ρ → κ) (ω : Type*) where
  table : Table key
  inflight : List (ω × Writes key)

/-- An operation reads, or the operation at a position commits. -/
inductive Event (ω : Type*) where
  | read (op : ω)
  | commit (n : ℕ)

variable [DecidableEq κ] (P : Protocol key ω)

def step (s : State key ω) : Event ω → State key ω
  | .read op => { s with inflight := s.inflight ++ [(op, readRows P op s.table)] }
  | .commit n =>
    match s.inflight[n]? with
    | none => s
    | some (_, writes) =>
      { table := s.table.mapRows (commitRow P writes) (commitRow_key P writes)
        inflight := s.inflight.eraseIdx n }

variable {P}

theorem find_commit {t : Table key} {writes : Writes key} (k : κ) :
    (t.mapRows (commitRow P writes) (commitRow_key P writes)).find k =
      (t.find k).map fun stored => match writes.find k with
        | some w => P.merge w.1 w.2 stored
        | none => stored := by
  rw [Table.find_mapRows]
  cases h : t.find k with
  | none => rfl
  | some stored =>
    have hk : key stored = k := Table.find_some_key h
    simp [commitRow, hk]

/-- An operation in flight is one that was in flight or has just read. -/
theorem mem_inflight_step {s : State key ω} {e : Event ω} {p : ω × Writes key}
    (h : p ∈ (step P s e).inflight) :
    p ∈ s.inflight ∨ ∃ op, e = .read op ∧ p = (op, readRows P op s.table) := by
  cases e with
  | read op =>
    rcases List.mem_append.mp h with h | h
    · exact .inl h
    · exact .inr ⟨op, rfl, List.mem_singleton.mp h⟩
  | commit n =>
    simp only [step] at h
    split at h
    · exact .inl h
    · exact .inl (List.mem_of_mem_eraseIdx h)

/-! ## A column that keeps its value -/

section Column
variable [DecidableEq α] {col : ρ → α}

/-- The row under `k` has the value `v` in the column. -/
def Holds (col : ρ → α) (v : α) (k : κ) (t : Table key) : Prop := (t.find k).map col = some v

/-- The commit writes the column of a row only if the operation changed it. -/
def ColumnWise (P : Protocol key ω) (col : ρ → α) : Prop :=
  ∀ loaded current stored,
    col (P.merge loaded current stored) = writeBack (col loaded) (col current) (col stored)

/-- A change that does not write another value than `v` into the column. -/
def Spares (col : ρ → α) (v : α) (w : ρ × ρ) : Prop := col w.2 = col w.1 ∨ col w.2 = v

theorem writeBack_eq_stored_iff {loaded current v : α} :
    writeBack loaded current v = v ↔ current = loaded ∨ current = v := by
  by_cases h : current = loaded
  · simp [h]
  · simp [writeBack, h]

/-- A commit keeps the value exactly when its change of the row spares it. -/
theorem holds_commit_iff (hcol : ColumnWise P col) {t : Table key} {v : α} {k : κ}
    (h : Holds col v k t) (writes : Writes key) :
    Holds col v k (t.mapRows (commitRow P writes) (commitRow_key P writes)) ↔
      ∀ w, writes.find k = some w → Spares col v w := by
  obtain ⟨stored, hstored, rfl⟩ := Option.map_eq_some_iff.mp h
  rw [Holds, find_commit, hstored]
  cases hw : writes.find k with
  | none => simp
  | some w =>
    simp only [Option.map_some, Option.some.injEq, forall_eq']
    rw [hcol w.1 w.2 stored, writeBack_eq_stored_iff]
    rfl

/-- The value is there and no operation in flight will replace it. -/
structure Settled (col : ρ → α) (v : α) (k : κ) (s : State key ω) : Prop where
  holds : Holds col v k s.table
  spared : ∀ p ∈ s.inflight, ∀ w, p.2.find k = some w → Spares col v w

/-- An operation that reads the value leaves it. -/
def Respects (P : Protocol key ω) (col : ρ → α) (v : α) : Prop :=
  ∀ op r r', col r = v → P.change op r = some r' → col r' = v

theorem settled_step (hcol : ColumnWise P col) {v : α} (hrespects : Respects P col v) {k : κ}
    {s : State key ω} (h : Settled col v k s) (e : Event ω) : Settled col v k (step P s e) := by
  constructor
  · cases e with
    | read op => exact h.holds
    | commit n =>
      simp only [step]
      split
      · exact h.holds
      · rename_i op writes hn
        exact (holds_commit_iff hcol h.holds writes).mpr
          (h.spared _ (List.mem_of_getElem? hn))
  · intro p hp w hw
    rcases mem_inflight_step hp with hp | ⟨op, -, rfl⟩
    · exact h.spared p hp w hw
    · obtain ⟨hmem, hkey⟩ := Table.find_eq_some.mp hw
      obtain ⟨hr, hchange⟩ := mem_readRows.mp hmem
      obtain ⟨stored, hstored, hv⟩ := Option.map_eq_some_iff.mp h.holds
      have hrow : s.table.find k = some w.1 := Table.find_eq_some.mpr ⟨hr, hkey⟩
      rw [hrow] at hstored
      cases hstored
      exact .inr (hrespects op w.1 w.2 hv hchange)

/-- A settled value stays, whatever is read and committed afterwards. -/
theorem settled_run (hcol : ColumnWise P col) {v : α} (hrespects : Respects P col v) {k : κ}
    {s : State key ω} (h : Settled col v k s) (es : List (Event ω)) :
    Settled col v k (run (step P) s es) :=
  run_invariant (Settled col v k) (fun _ e hs => settled_step hcol hrespects hs e) h es

end Column

end Kepryx.StaleWrites
