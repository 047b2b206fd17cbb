import Kepryx.Results
import Kepryx.RiskWriters
import Kepryx.Runs

/-!
# Who moves `last_seen`

The column is refreshed by every UPDATE that does not set it, and a flush sends an UPDATE as
soon as one attribute changed. So the operations that no source triggers leave `last_seen`
alone exactly when they write nothing new.
-/
namespace Kepryx.LastSeen
open Kepryx.Models Kepryx.Results Kepryx.Tables Kepryx.Runs Kepryx.CveFeeds Kepryx.RiskWriters

/-- The operations that write stored assets without a report; each reads the clock once. -/
inductive Op where
  | detectStaleAssets (now : Time) (thresholdDays : ℤ)
  | rescoreAssets (now : Time)
  | updateAsset (now : Time) (assetId : ℕ) (body : AssetUpdate)
  | enrichOneAsset (now : Time) (assetId : ℕ) (enrich : List String → Except FeedError Answer)

def perform (isoformat : Time → String) (db : Database) : Op → Except Failure Database
  | .detectStaleAssets now thresholdDays => detectStaleAssets isoformat now thresholdDays db
  | .rescoreAssets now => .ok (rescoreAssets now db)
  | .updateAsset now assetId body => updateAsset now db assetId body
  | .enrichOneAsset now assetId enrich => enrichOneAsset now enrich db assetId

/-- The database after an operation; an exception rolls it back. -/
def step (isoformat : Time → String) (db : Database) (op : Op) : Database :=
  match perform isoformat db op with
  | .ok db' => db'
  | .error _ => db

/-- Every asset has the same `last_seen` in both databases. -/
def SeenKept (db db' : Database) : Prop :=
  ∀ i, (db'.assets.find i).map (fun a => a.lastSeen) = (db.assets.find i).map fun a => a.lastSeen

/-- Writing `b` over the stored asset `a` changes no column, or happens at the very instant
of its `last_seen`. -/
def Unmoved (now : Time) (a b : Asset) : Prop := b = a ∨ now = a.lastSeen

/-- What an operation that gets through writes is what was stored: the check selects no
asset, and the computed risk and the requested values are the stored ones. -/
def Idle (isoformat : Time → String) (db : Database) : Op → Prop
  | .detectStaleAssets now thresholdDays =>
    ∀ alerts, staleAlerts isoformat now thresholdDays db.alerts
        (db.assets.rows.filter (selectStale now thresholdDays)) = .ok alerts →
      ∀ a ∈ db.assets.rows, selectStale now thresholdDays a → now = a.lastSeen
  | .rescoreAssets now =>
    ∀ a ∈ db.assets.rows,
      Unmoved now a (storeRisk a (riskOf a.toAssetColumns (activeEvidence db a.id)))
  | .updateAsset now assetId body =>
    ∀ a, db.assets.find assetId = some a → ∀ b, applyUpdate body a = .ok b →
      Unmoved now a (storeRisk b (riskOf b.toAssetColumns (linkedEvidence db assetId)))
  | .enrichOneAsset now assetId enrich =>
    ∀ a, db.assets.find assetId = some a → a.cpe.getD [] ≠ [] →
      ∀ answer, enrich (a.cpe.getD []) = .ok answer →
        Unmoved now a (storeRisk a (riskOf a.toAssetColumns (answer.rows.map answerEvidence)))

/-! ## One flush -/

theorem flushUpdate_lastSeen_iff {now : Time} {a b : Asset} (h : b.lastSeen = a.lastSeen) :
    (flushUpdate now a b).lastSeen = a.lastSeen ↔ Unmoved now a b := by
  by_cases hb : b = a
  · simp [hb, Unmoved]
  · rw [flushUpdate_lastSeen_of_changed hb h]
    simp [Unmoved, hb]

theorem SeenKept.refl (db : Database) : SeenKept db db := fun _ => rfl

theorem SeenKept.trans {db db' db'' : Database} (h : SeenKept db db') (h' : SeenKept db' db'') :
    SeenKept db db'' := fun i => (h' i).trans (h i)

/-- Flushing every row keeps `last_seen` exactly when every row is unmoved. -/
theorem seenKept_mapRows {db db' : Database} {now : Time} {g : Asset → Asset}
    (hg : ∀ a, (g a).lastSeen = a.lastSeen)
    (hdb : ∀ i, db'.assets.find i = (db.assets.find i).map fun a => flushUpdate now a (g a)) :
    SeenKept db db' ↔ ∀ a ∈ db.assets.rows, Unmoved now a (g a) := by
  constructor
  · intro h a ha
    have hi := h a.id
    rw [hdb, show db.assets.find a.id = some a from Table.find_key ha] at hi
    exact (flushUpdate_lastSeen_iff (hg a)).mp (Option.some.inj hi)
  · intro h i
    rw [hdb]
    cases ha : db.assets.find i with
    | none => rfl
    | some a =>
      have hmem := (Table.find_eq_some.mp ha).1
      exact congrArg some ((flushUpdate_lastSeen_iff (hg a)).mpr (h a hmem))

/-- Flushing one row keeps `last_seen` exactly when that row is unmoved. -/
theorem seenKept_put {db db' : Database} {now : Time} {i : ℕ} {a b : Asset}
    (ha : db.assets.find i = some a) (hid : b.id = a.id) (hb : b.lastSeen = a.lastSeen)
    (hdb : db'.assets = db.assets.put (flushUpdate now a b)) :
    SeenKept db db' ↔ Unmoved now a b := by
  obtain ⟨hmem, rfl⟩ := Table.find_eq_some.mp ha
  have hid' : (flushUpdate now a b).id = a.id := flushUpdate_id hid
  have hself : db'.assets.find a.id = some (flushUpdate now a b) := by
    rw [hdb, ← hid']
    exact Table.find_put_self (by rw [hid', ha]; rfl)
  constructor
  · intro h
    have hi := h a.id
    rw [hself, ha] at hi
    exact (flushUpdate_lastSeen_iff hb).mp (Option.some.inj hi)
  · intro h j
    by_cases hj : j = a.id
    · rw [hj, hself, ha]
      exact congrArg some ((flushUpdate_lastSeen_iff hb).mpr h)
    · rw [hdb, Table.find_put_of_ne (by rwa [hid'])]

theorem applyUpdate_ok {body : AssetUpdate} {a b : Asset} (h : applyUpdate body a = .ok b) :
    b.id = a.id ∧ b.lastSeen = a.lastSeen := by
  unfold applyUpdate at h
  obtain ⟨criticality, -, h⟩ := bind_eq_ok.mp h
  obtain ⟨dataClassification, -, h⟩ := bind_eq_ok.mp h
  obtain ⟨controlCoverage, -, h⟩ := bind_eq_ok.mp h
  obtain ⟨authMethod, -, h⟩ := bind_eq_ok.mp h
  cases h
  exact ⟨rfl, rfl⟩

/-! ## One operation -/

theorem unmoved_markStale {now : Time} {n : ℤ} {a : Asset} :
    Unmoved now a (markStale now n a) ↔ (selectStale now n a → now = a.lastSeen) := by
  unfold Unmoved markStale
  by_cases hsel : selectStale now n a
  · have hstale : ({ a with isStale := true } : Asset) ≠ a := by
      intro h
      have hnot : a.isStale = false := by simpa [selectStale] using (Bool.and_eq_true_iff.mp hsel).2
      have htrue : true = a.isStale := congrArg (fun x : Asset => x.isStale) h
      simp [hnot] at htrue
    simp [hsel, hstale]
  · simp [hsel]

theorem seenKept_detect (isoformat : Time → String) (db : Database) (now : Time) (n : ℤ) :
    SeenKept db (step isoformat db (.detectStaleAssets now n)) ↔
      Idle isoformat db (.detectStaleAssets now n) := by
  cases hal : staleAlerts isoformat now n db.alerts (db.assets.rows.filter (selectStale now n)) with
  | error e => simp [step, perform, detectStaleAssets, Idle, hal, SeenKept.refl]
  | ok alerts =>
    simp only [step, perform, detectStaleAssets, Idle, hal, Except.ok.injEq, forall_eq',
      ← unmoved_markStale]
    refine seenKept_mapRows (fun a => by unfold markStale; split <;> rfl) fun i => ?_
    exact Table.find_mapRows db.assets (flagged now n) (flagged_id now n) i

theorem seenKept_rescore (isoformat : Time → String) (db : Database) (now : Time) :
    SeenKept db (step isoformat db (.rescoreAssets now)) ↔
      Idle isoformat db (.rescoreAssets now) :=
  seenKept_mapRows (fun _ => rfl) fun i => find_rescoreAssets now db i

theorem seenKept_update (isoformat : Time → String) (db : Database) (now : Time) (i : ℕ)
    (body : AssetUpdate) :
    SeenKept db (step isoformat db (.updateAsset now i body)) ↔
      Idle isoformat db (.updateAsset now i body) := by
  cases ha : db.assets.find i with
  | none => simp [step, perform, updateAsset, Idle, ha, SeenKept.refl]
  | some a =>
    cases hb : applyUpdate body a with
    | error e => simp [step, perform, updateAsset, Idle, ha, hb, SeenKept.refl]
    | ok b =>
      obtain ⟨hid, hlast⟩ := applyUpdate_ok hb
      simp only [step, perform, updateAsset, Idle, ha, hb, Option.some.injEq, Except.ok.injEq,
        forall_eq']
      exact seenKept_put ha hid hlast rfl

theorem seenKept_enrich (isoformat : Time → String) (db : Database) (now : Time) (i : ℕ)
    (enrich : List String → Except FeedError Answer) :
    SeenKept db (step isoformat db (.enrichOneAsset now i enrich)) ↔
      Idle isoformat db (.enrichOneAsset now i enrich) := by
  cases ha : db.assets.find i with
  | none => simp [step, perform, enrichOneAsset, Idle, ha, SeenKept.refl]
  | some a =>
    by_cases hcpe : a.cpe.getD [] = []
    · simp [step, perform, enrichOneAsset, Idle, ha, hcpe, SeenKept.refl]
    · cases hanswer : enrich (a.cpe.getD []) with
      | error e => simp [step, perform, enrichOneAsset, Idle, ha, hcpe, hanswer, SeenKept.refl]
      | ok answer =>
        simp only [step, perform, enrichOneAsset, Idle, ha, hcpe, hanswer, if_false, ne_eq,
          not_false_eq_true, Option.some.injEq, Except.ok.injEq, forall_eq', forall_const]
        exact seenKept_put ha rfl rfl (assets_storeAnswer now db a answer)

/-- An operation keeps `last_seen` exactly when it writes nothing new. -/
theorem seenKept_step_iff (isoformat : Time → String) (db : Database) (op : Op) :
    SeenKept db (step isoformat db op) ↔ Idle isoformat db op := by
  cases op with
  | detectStaleAssets now n => exact seenKept_detect isoformat db now n
  | rescoreAssets now => exact seenKept_rescore isoformat db now
  | updateAsset now i body => exact seenKept_update isoformat db now i body
  | enrichOneAsset now i enrich => exact seenKept_enrich isoformat db now i enrich

/-! ## Every run -/

/-- A run keeps `last_seen` from operation to operation exactly when each of its operations
writes nothing new; every state of such a run has the `last_seen` of the first one, so an
asset that was not seen since a cutoff stays before that cutoff. -/
theorem last_seen_kept_iff (isoformat : Time → String) (db : Database) (ops : List Op) :
    (Along (step isoformat) (fun db op => SeenKept db (step isoformat db op)) db ops ↔
      Along (step isoformat) (Idle isoformat) db ops) ∧
    (Along (step isoformat) (Idle isoformat) db ops →
      SeenKept db (run (step isoformat) db ops) ∧
      ∀ i a cutoff, db.assets.find i = some a → a.lastSeen < cutoff →
        ∃ a', (run (step isoformat) db ops).assets.find i = some a' ∧ a'.lastSeen < cutoff) := by
  have hiff := seenKept_step_iff isoformat
  refine ⟨⟨Along.mono fun db op => (hiff db op).mp, Along.mono fun db op => (hiff db op).mpr⟩,
    fun halong => ?_⟩
  have hkept : SeenKept db (run (step isoformat) db ops) :=
    run_invariant_along (SeenKept db) (fun db' op h hidle => h.trans ((hiff db' op).mpr hidle))
      (SeenKept.refl db) halong
  refine ⟨hkept, fun i a cutoff ha hlt => ?_⟩
  have hi := hkept i
  rw [ha, Option.map_some] at hi
  obtain ⟨a', ha', hlast⟩ := Option.map_eq_some_iff.mp hi
  exact ⟨a', ha', hlast ▸ hlt⟩

/-- An asset last seen at the epoch. -/
def unseen : Database where
  assets := ⟨[{ Reconciler.newColumns 0 1 "manual" {} "srv" "Server" with
    sources := some ["manual"] }], by decide⟩
  cves := .empty
  assetCves := .empty
  alerts := []

/-- The check that flags the asset as stale a hundred days later makes it seen that day. -/
theorem stale_flag_moves_last_seen :
    ¬ ∀ (isoformat : Time → String) (db : Database) (ops : List Op),
      SeenKept db (run (step isoformat) db ops) := by
  intro h
  have hseen := h (fun _ => "") unseen [.detectStaleAssets (days 100) 30] 1
  exact absurd hseen (by decide)

end Kepryx.LastSeen
