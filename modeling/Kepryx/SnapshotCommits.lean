import Kepryx.Tables

/-!
# A table that is read, worked on and committed later

A transaction reads a table, works on what it read, and commits later. The commit updates the
rows that it read by their key, over whatever they hold by then, and inserts the rows that it
added. A slot is something that at most one row should occupy and that no constraint protects:
the commit keeps it so exactly when no row that it adds meets one that was committed meanwhile.
-/
namespace Kepryx.SnapshotCommits
open Kepryx.Tables

variable {ρ κ τ : Type*} {key : ρ → κ}

/-- At most one row for each slot. -/
def OnePer (slot : ρ → Option τ) (t : Table key) : Prop :=
  ∀ a ∈ t.rows, ∀ b ∈ t.rows, ∀ s, slot a = some s → slot b = some s → a = b

variable [DecidableEq κ]

/-- What the commit leaves of a stored row: a row that was read is merged with its change. -/
def updated (merge : ρ → ρ → ρ → ρ) (read after : Table key) (stored : ρ) : ρ :=
  match read.find (key stored), after.find (key stored) with
  | some loaded, some current => merge loaded current stored
  | _, _ => stored

/-- The rows that the commit inserts, under keys that are free. -/
def added (read after stored : Table key) : List ρ :=
  after.rows.filter fun r => (read.find (key r)).isNone && (stored.find (key r)).isNone

theorem mem_added {read after stored : Table key} {r : ρ} :
    r ∈ added read after stored ↔
      r ∈ after.rows ∧ read.find (key r) = none ∧ stored.find (key r) = none := by
  simp [added]

theorem updated_key {merge : ρ → ρ → ρ → ρ} (hmerge : ∀ l c s, key (merge l c s) = key s)
    (read after : Table key) (stored : ρ) : key (updated merge read after stored) = key stored := by
  unfold updated
  split
  · exact hmerge ..
  · rfl

/-- The table after the commit. -/
def commit (merge : ρ → ρ → ρ → ρ) (hmerge : ∀ l c s, key (merge l c s) = key s)
    (read after stored : Table key) : Table key where
  rows := stored.rows.map (updated merge read after) ++ added read after stored
  nodup := by
    have hkeys : (stored.rows.map (updated merge read after)).map key = stored.rows.map key := by
      rw [List.map_map]
      exact List.map_congr_left fun r _ => updated_key hmerge read after r
    rw [List.map_append, hkeys, List.nodup_append]
    refine ⟨stored.nodup, (List.filter_sublist.map key).nodup after.nodup, ?_⟩
    rintro k hk k' hk' rfl
    obtain ⟨r, hr, rfl⟩ := List.mem_map.mp hk'
    obtain ⟨a, ha, hkey⟩ := List.mem_map.mp hk
    exact Table.find_eq_none.mp (mem_added.mp hr).2.2 a ha hkey

variable {merge : ρ → ρ → ρ → ρ}
variable {read after stored : Table key} {slot : ρ → Option τ}

theorem mem_commit (hmerge : ∀ l c s, key (merge l c s) = key s) {x : ρ} :
    x ∈ (commit merge hmerge read after stored).rows ↔
    (∃ a ∈ stored.rows, updated merge read after a = x) ∨ x ∈ added read after stored := by
  simp [commit]

/-- The commit keeps at most one row for each slot if and only if no added row has the slot of a
stored one. -/
theorem onePer_commit_iff (hmerge : ∀ l c s, key (merge l c s) = key s) (read : Table key)
    (hstored : OnePer slot stored) (hafter : OnePer slot after)
    (htakes : ∀ a ∈ stored.rows, ∀ s, slot (updated merge read after a) = some s →
      slot a = some s)
    (hleaves : ∀ a ∈ stored.rows, ∀ r ∈ added read after stored, ∀ s, slot r = some s →
      slot a = some s → slot (updated merge read after a) = some s) :
    OnePer slot (commit merge hmerge read after stored) ↔
      ∀ r ∈ added read after stored, ∀ a ∈ stored.rows, ∀ s, slot r = some s →
        slot a ≠ some s := by
  constructor
  · intro hone r hr a ha s hrs has
    have hupdated := hleaves a ha r hr s hrs has
    have hleft : updated merge read after a ∈ (commit merge hmerge read after stored).rows :=
      (mem_commit hmerge).mpr (.inl ⟨a, ha, rfl⟩)
    have hright : r ∈ (commit merge hmerge read after stored).rows :=
      (mem_commit hmerge).mpr (.inr hr)
    have hsame := hone _ hleft r hright s hupdated hrs
    have hkey : key a = key r := by
      rw [← hsame]
      exact (updated_key hmerge read after a).symm
    exact Table.find_eq_none.mp (mem_added.mp hr).2.2 a ha hkey
  · intro hfree x hx y hy s hxs hys
    rcases (mem_commit hmerge).mp hx with ⟨a, ha, rfl⟩ | hx
    · rcases (mem_commit hmerge).mp hy with ⟨b, hb, rfl⟩ | hy
      · rw [hstored a ha b hb s (htakes a ha s hxs) (htakes b hb s hys)]
      · exact absurd (htakes a ha s hxs) (hfree y hy a ha s hys)
    · rcases (mem_commit hmerge).mp hy with ⟨b, hb, rfl⟩ | hy
      · exact absurd (htakes b hb s hys) (hfree x hx b hb s hxs)
      · exact hafter x (mem_added.mp hx).1 y (mem_added.mp hy).1 s hxs hys

end Kepryx.SnapshotCommits
