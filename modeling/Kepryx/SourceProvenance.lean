import Kepryx.Runs
import Kepryx.ReportHandling

/-!
# Which sources the stored rows remember

Each report is committed in a session of its own. The list loaded from `sources` is
appended to in place and assigned back, so the new source reaches the row only when
the stored list was null or empty.
-/
namespace Kepryx.SourceProvenance
open Kepryx.Models Kepryx.Tables Kepryx.Runs Kepryx.Reconciler Kepryx.ReportHandling

/-- The database, and every pair of an asset and a source that has reported it. -/
structure Ledger where
  db : Database
  reporters : List (ℕ × String)

/-- A committed report enters the ledger. -/
def record (A : Addressing) (l : Ledger) (r : Report) : Ledger :=
  match reconcileAndCommit A l.db r with
  | .ok (db', i) => ⟨db', (i, r.source) :: l.reporters⟩
  | .error _ => l

/-- After the commit the stored row of the asset remembers every source that has reported
it, and its shadow flag is the one of its stored sources. -/
def Remembers (A : Addressing) (l : Ledger) (r : Report) : Prop :=
  ∀ db' i, reconcileAndCommit A l.db r = .ok (db', i) →
    ∃ a, db'.assets.find i = some a ∧
      (∀ s, (i, s) ∈ (i, r.source) :: l.reporters → s ∈ a.sourceList) ∧
      a.isShadow = isShadow a.sourceList

/-- If the report is committed into a stored asset, then that row has no sources yet or
already lists the reporting one. -/
def ReachesRow (A : Addressing) (l : Ledger) (r : Report) : Prop :=
  ∀ p, reconcileAndCommit A l.db r = .ok p →
    ∀ a, findExisting A l.db r.data = .ok (some a) →
      a.sourceList = [] ∨ r.source ∈ a.sourceList

/-- Every reported asset is stored with the sources that have reported it. -/
def Complete (l : Ledger) : Prop :=
  ∀ i s, (i, s) ∈ l.reporters → ∃ a, l.db.assets.find i = some a ∧ s ∈ a.sourceList

/-- A merge whose row is reached leaves exactly the sources the object had. -/
theorem merged_sourceList {A : Addressing} {r : Report} {a a' : Asset} (h : Merged A r a a')
    (hr : a.sourceList = [] ∨ r.source ∈ a.sourceList) :
    a'.sourceList = withSource a.sourceList r.source := by
  unfold Asset.sourceList at *
  rw [h.sources]
  rcases hr with hnil | hmem
  · simp [Asset.sourceList, hnil, withSource]
  · have hne : a.sources.getD [] ≠ [] := List.ne_nil_of_mem hmem
    simp [Asset.sourceList, hne, withSource, hmem]

/-- A merge whose row is not reached loses the reporting source. -/
theorem merged_not_mem {A : Addressing} {r : Report} {a a' : Asset} (h : Merged A r a a')
    (hne : a.sourceList ≠ []) (hnot : r.source ∉ a.sourceList) : r.source ∉ a'.sourceList := by
  have hsame : a'.sourceList = a.sourceList := by
    unfold Asset.sourceList at *
    rw [h.sources, if_neg (by simpa [Asset.sourceList] using hne)]
  rwa [hsame]

/-- In a complete ledger a committed report is remembered exactly when it reaches its row. -/
theorem remembers_iff {A : Addressing} {l : Ledger} (hl : Complete l) (r : Report) :
    ReachesRow A l r ↔ Remembers A l r := by
  constructor
  · intro hr db' i hc
    rcases reconcileAndCommit_cases hc with ⟨a, a', hfind, ha, hm, -, hdb, rfl⟩ |
      ⟨a, -, hcr, -, hins, rfl⟩
    · have hput : db'.assets.find a.id = some a' := by
        rw [hdb, ← hm.id]
        exact Table.find_put_self (by rw [hm.id, Table.find_key ha]; rfl)
      have hsources := merged_sourceList hm (hr _ hc a hfind)
      refine ⟨a', hput, fun s hs => ?_, by rw [hm.isShadow, hsources]⟩
      rw [hsources, mem_withSource]
      rcases List.mem_cons.mp hs with he | hs
      · exact .inr (congrArg Prod.snd he)
      · obtain ⟨b, hb, hsb⟩ := hl _ _ hs
        rw [show l.db.assets.find a.id = some a from Table.find_key ha] at hb
        cases hb
        exact .inl hsb
    · have hfind : db'.assets.find a.id = some a := by simp [Table.find_insert? hins]
      have hsources : a.sourceList = [r.source] := by simp [Asset.sourceList, hcr.sources]
      refine ⟨a, hfind, fun s hs => ?_, by rw [hcr.isShadow, hsources]⟩
      rcases List.mem_cons.mp hs with he | hs
      · rw [hsources]
        exact List.mem_singleton.mpr (congrArg Prod.snd he)
      · obtain ⟨b, hb, -⟩ := hl _ _ hs
        rw [(Table.insert?_eq_some hins).2] at hb
        cases hb
  · intro hrem p hc a hfind
    obtain ⟨db', i⟩ := p
    obtain ⟨b, hb, hmem, -⟩ := hrem db' i hc
    rcases reconcileAndCommit_cases hc with ⟨a₀, a', hfind', ha, hm, -, hdb, rfl⟩ |
      ⟨a₀, hfind', -⟩
    · rw [hfind] at hfind'
      cases hfind'
      have hput : db'.assets.find a.id = some a' := by
        rw [hdb, ← hm.id]
        exact Table.find_put_self (by rw [hm.id, Table.find_key ha]; rfl)
      rw [hput] at hb
      cases hb
      by_contra hno
      obtain ⟨hne, hnot⟩ := not_or.mp hno
      exact merged_not_mem hm hne hnot (hmem _ List.mem_cons_self)
    · rw [hfind] at hfind'
      cases hfind'

/-- A remembered report keeps the ledger complete. -/
theorem complete_record {A : Addressing} {l : Ledger} (hl : Complete l) {r : Report}
    (hr : ReachesRow A l r) : Complete (record A l r) := by
  unfold record
  cases hc : reconcileAndCommit A l.db r with
  | error e => exact hl
  | ok p =>
    obtain ⟨db', i⟩ := p
    obtain ⟨b, hb, hmem, -⟩ := (remembers_iff hl r).mp hr db' i hc
    intro j s hs
    by_cases hj : j = i
    · subst hj
      exact ⟨b, hb, hmem s hs⟩
    · have hold : (j, s) ∈ l.reporters :=
        (List.mem_cons.mp hs).resolve_left fun he => hj (congrArg Prod.fst he)
      obtain ⟨c, hcj, hsc⟩ := hl j s hold
      refine ⟨c, ?_, hsc⟩
      rcases reconcileAndCommit_cases hc with ⟨a, a', -, -, hm, -, hdb, rfl⟩ |
        ⟨a, -, -, -, hins, rfl⟩
      · rw [hdb, Table.find_put_of_ne (by rwa [hm.id]), hcj]
      · simp [Table.find_insert? hins, Ne.symm hj, hcj]

/-- The stored rows of a sequence of reports remember their sources after every commit, and
have the shadow flag of their stored sources, exactly when every report that is committed
into a stored asset finds there no source or its own. -/
theorem sources_persisted_iff (A : Addressing) (db : Database) (reports : List Report) :
    Along (record A) (Remembers A) ⟨db, []⟩ reports ↔
      Along (record A) (ReachesRow A) ⟨db, []⟩ reports :=
  (along_iff_of_invariant Complete (fun _ r hl => remembers_iff hl r)
    (fun _ _ hl hr => complete_record hl hr) (fun _ _ h => by cases h) reports).symm

/-- A network scan finds a host and the EDR then reports it: the row still lists the scan
only, and its shadow flag denies it. -/
theorem sources_lost :
    ¬ ∀ (A : Addressing) (reports : List Report),
      Along (record A) (Remembers A) ⟨.empty, []⟩ reports := by
  intro h
  have hrun := h .canonical
    [{ source := "nmap_scan", data := { ip := .value "10.0.0.5", name := .value "10.0.0.5" } },
      { source := "edr_crowdstrike", data := { ip := .value "10.0.0.5" } }]
  obtain ⟨a, ha, hmem, -⟩ := hrun.2.1 _ _ rfl
  have hlost : some a.sourceList = some ["nmap_scan"] := (congrArg (Option.map _) ha).symm
  have hedr := hmem "edr_crowdstrike" List.mem_cons_self
  rw [Option.some.inj hlost] at hedr
  exact absurd hedr (by decide)

end Kepryx.SourceProvenance
