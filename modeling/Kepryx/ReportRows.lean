import Kepryx.ReportHandling

/-!
# The rows that a report writes, in full

A report that is matched replaces the row of its asset, one that is not inserts a row. Both rows
are computed here column by column, with the alerts that come with them.
-/
namespace Kepryx.ReportRows
open Kepryx.Models Kepryx.Results Kepryx.Tables Kepryx.UnitOfWork Kepryx.Reconciler
open Kepryx.ReportHandling

/-- The row that a merged report leaves, given what the address columns hold. -/
def mergedRow (r : Report) (a : Asset) (ip mac : Option String) : Asset :=
  { mergeColumns r.now a.toAssetColumns a.sourceList r.source r.data with
    ip := ip
    mac := mac
    sources := if a.sourceList = [] then some [r.source] else a.sources }

/-- The row that a report inserts, given what the address columns hold. -/
def createdRow (r : Report) (name type : String) (ip mac : Option String) : Asset :=
  { newColumns r.now r.uuid r.source r.data name type with
    ip := ip
    mac := mac
    sources := some [r.source] }

@[simp] theorem mergedRow_id (r : Report) (a : Asset) (ip mac : Option String) :
    (mergedRow r a ip mac).id = a.id := by simp [mergedRow]

/-- A row whose `last_seen` was just set is flushed as it is. -/
theorem flushUpdate_now {now : Time} {a b : Asset} (h : b.lastSeen = now) :
    flushUpdate now a b = b := by
  unfold flushUpdate
  split
  · rename_i he
    exact he.symm
  · rw [h, ite_self, ← h]

/-- What the flush of a merged report binds to the address columns. -/
def boundText (convert : String → Option String) (a : Asset) (r : Report) (f : Field)
    (old : Option String) : Except DbError (Option String) :=
  flushText convert old ((writtenText a r f).or old) old

/-- A matched report raises what its drift alert or the address columns raise, and replaces the
row of the asset otherwise. -/
theorem reconcileAndCommit_merge {A : Addressing} {db : Database} {r : Report} {a : Asset}
    (hfind : findExisting A db r.data = .ok (some a)) :
    reconcileAndCommit A db r = (do
      let alerts ← driftAlert r.now db.alerts a.toAssetColumns r.data
      let ip ← boundText A.inet a r .ip a.ip
      let mac ← boundText A.macaddr a r .mac a.mac
      return ({ db with assets := db.assets.put (mergedRow r a ip mac), alerts := alerts },
        a.id)) := by
  have ha := findExisting_mem hfind
  have hcols := (loadAsset_spec Heap.empty a).1
  rw [reconcileAndCommit, reconcileHost, hfind]
  simp only [ok_bind]
  cases hdrift : driftAlert r.now db.alerts a.toAssetColumns r.data with
  | error e =>
    simp only [mergeSource, hcols, hdrift, error_bind]
  | ok alerts =>
    obtain ⟨s', asset', hm, hdb⟩ : ∃ s' asset',
        mergeSource r.now ⟨db, (loadAsset Heap.empty a).1⟩ (loadAsset Heap.empty a).2 r.source
          r.data = .ok (s', asset') ∧ s'.db = { db with alerts := alerts } := by
      simp only [mergeSource, hcols, hdrift, ok_bind, pure_eq_ok]
      exact ⟨_, _, rfl, rfl⟩
    have hsources := flush_sources hm
    obtain ⟨-, hmerged, hloaded⟩ := mergeSource_loaded hm
    have hid : asset'.id = a.id := by rw [hmerged]; simp
    have hfield : ∀ f, field asset'.toAssetColumns f =
        (writtenText a r f).or (field a.toAssetColumns f) := by
      intro f
      rw [hmerged, field_merged]
    have hstored : s'.db.assets.find asset'.id = some a := by
      rw [hdb, hid]
      exact Table.find_key ha
    have hip : asset'.ip = (writtenText a r .ip).or a.ip := hfield .ip
    have hmac : asset'.mac = (writtenText a r .mac).or a.mac := hfield .mac
    have hlip : asset'.loaded.ip = a.ip := by rw [hloaded]
    have hlmac : asset'.loaded.mac = a.mac := by rw [hloaded]
    simp only [hm, ok_bind, flushAsset, hstored, hip, hmac, hlip, hlmac, boundText]
    cases flushText A.inet a.ip ((writtenText a r .ip).or a.ip) a.ip with
    | error e => rfl
    | ok ip =>
      cases flushText A.macaddr a.mac ((writtenText a r .mac).or a.mac) a.mac with
      | error e => rfl
      | ok mac =>
        have hrow : ({ asset'.toAssetColumns with
            ip := ip
            mac := mac
            sources := asset'.sources.flush s'.heap a.sources } : Asset) =
              mergedRow r a ip mac := by
          rw [hsources, hmerged]
          rfl
        dsimp only at hrow
        have hlast : (mergedRow r a ip mac).lastSeen = r.now := rfl
        simp only [ok_bind, pure_eq_ok, hrow, flushUpdate_now hlast, hdb]
        rw [hid]

/-- A committed report without a match inserted one row. -/
theorem reconcileAndCommit_create {A : Addressing} {db db' : Database} {r : Report} {i : ℕ}
    (hfind : findExisting A db r.data = .ok none)
    (h : reconcileAndCommit A db r = .ok (db', i)) :
    ∃ name type ip mac, newName r.data = some name ∧
      bindText A.inet r.data.ip.get = .ok ip ∧ bindText A.macaddr r.data.mac.get = .ok mac ∧
      db.assets.insert? (createdRow r name type ip mac) = some db'.assets ∧ i = r.uuid := by
  unfold reconcileAndCommit reconcileHost at h
  obtain ⟨⟨s', asset⟩, hhost, h⟩ := bind_eq_ok.mp h
  obtain ⟨s'', hf, h⟩ := bind_eq_ok.mp h
  cases h
  rw [hfind, ok_bind] at hhost
  dsimp only at hhost
  obtain ⟨a, alerts, -, -, hins, -, -, hasset⟩ := createFromSource_ok hhost
  have ha : a ∈ s'.db.assets.rows := (Table.mem_insert? hins).mpr (.inr rfl)
  rw [flush_created ha hasset hf]
  unfold createFromSource at hhost
  split at hhost
  · rename_i name type hname htype
    obtain ⟨ip, hip, hhost⟩ := bind_eq_ok.mp hhost
    obtain ⟨mac, hmac, hhost⟩ := bind_eq_ok.mp hhost
    split at hhost
    · cases hhost
    · rename_i assets hassets
      obtain ⟨alerts, -, hhost⟩ := bind_eq_ok.mp hhost
      cases hhost
      exact ⟨name, type, ip, mac, hname, hip, hmac, hassets, rfl⟩
  · cases hhost

end Kepryx.ReportRows
