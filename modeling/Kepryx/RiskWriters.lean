import Kepryx.CveFeeds
import Kepryx.Reconciler
import Kepryx.RiskEngine

/-!
# The writers of stored assets besides the reconciler

Rescoring, the update endpoint and enrichment each build a CVE list of their own and
store the risk that it gives. The staleness check only sets a flag. Every operation is
one transaction with one clock reading, and an exception leaves the database as it was.
-/
namespace Kepryx.RiskWriters
open Kepryx.Models Kepryx.Tables Kepryx.RiskEngine Kepryx.CveFeeds

/-! ## The risk columns -/

/-- The three assignments that store a risk. -/
def storeRisk (a : Asset) (r : Risk) : Asset :=
  { a with riskScore := r.score, riskTier := r.tier, riskBreakdown := some r.breakdown }

/-- The entries that the risk engine gets from the columns of an asset. -/
def riskInput (c : AssetColumns) : RiskInput where
  controlCoverage := .value c.controlCoverage
  networkExposure := .value c.networkExposure
  authMethod := .value c.authMethod
  criticality := .value c.criticality
  dataClassification := .value c.dataClassification
  eolStatus := c.eolStatus

/-- The risk that an asset has with a CVE list. -/
def riskOf (c : AssetColumns) (cves : List CveEvidence) : Risk :=
  (computeRisk { riskInput c with cves := cves }).toRisk

/-- The risk columns of a stored asset. -/
def storedRisk (a : Asset) : ℤ × Tier × Option Breakdown :=
  (a.riskScore, a.riskTier, a.riskBreakdown)

@[simp] theorem storeRisk_id (a : Asset) (r : Risk) : (storeRisk a r).id = a.id := rfl

@[simp] theorem storedRisk_storeRisk (a : Asset) (r : Risk) :
    storedRisk (storeRisk a r) = (r.score, r.tier, some r.breakdown) := rfl

/-- Two risks are stored as the same columns only if they are the same. -/
theorem storedRisk_storeRisk_inj {a b : Asset} {r s : Risk} :
    storedRisk (storeRisk a r) = storedRisk (storeRisk b s) ↔ r = s := by
  cases r
  cases s
  simp

theorem storeRisk_eq_self {a : Asset} {r : Risk} :
    storeRisk a r = a ↔ storedRisk a = (r.score, r.tier, some r.breakdown) := by
  constructor
  · intro h
    rw [← h, storedRisk_storeRisk]
  · intro h
    obtain ⟨h1, h2, h3⟩ : a.riskScore = r.score ∧ a.riskTier = r.tier ∧
        a.riskBreakdown = some r.breakdown := by simpa [storedRisk] using h
    simp only [storeRisk, ← h1, ← h2, ← h3]

/-! ## `_rescore_assets` -/

/-- The links of an asset. -/
def linksOf (db : Database) (assetId : ℕ) : List AssetCVE :=
  db.assetCves.rows.filter fun l => l.assetId = assetId

/-- `not ac.suppressed and not ac.remediated` -/
def active (l : AssetCVE) : Bool := !l.suppressed && !l.remediated

/-- What rescoring reads of a stored CVE. -/
def rescoreEvidence (cve : CVE) : CveEvidence :=
  { cvssV3 := cve.cvssV3, epss := some (cve.epssScore.getD 0), kev := cve.kev }

/-- The stored CVEs of some links; the foreign key makes them exist. -/
def cvesOf (db : Database) (links : List AssetCVE) : List CVE :=
  links.filterMap fun l => db.cves.find l.cveId

/-- The CVE list that rescoring gives to the risk engine. -/
def activeEvidence (db : Database) (assetId : ℕ) : List CveEvidence :=
  (cvesOf db ((linksOf db assetId).filter active)).map rescoreEvidence

theorem flushUpdate_id {now : Time} {a b : Asset} (h : b.id = a.id) :
    (flushUpdate now a b).id = a.id := by
  rw [flushUpdate_eq]
  exact h

/-- The row that rescoring leaves for an asset. -/
def rescored (now : Time) (db : Database) (a : Asset) : Asset :=
  flushUpdate now a (storeRisk a (riskOf a.toAssetColumns (activeEvidence db a.id)))

/-- `_rescore_assets` -/
def rescoreAssets (now : Time) (db : Database) : Database :=
  { db with assets := db.assets.mapRows (rescored now db) fun _ => flushUpdate_id rfl }

/-! ## `update_asset` -/

/-- `AssetUpdate`; an unset field is missing. -/
structure AssetUpdate where
  criticality : Entry String := .missing
  dataClassification : Entry String := .missing
  controlCoverage : Entry String := .missing
  authMethod : Entry String := .missing
  tags : Entry (List String) := .missing
  deriving DecidableEq, Repr

/-- The flush of a text column that is not nullable and holds at most `width` characters. -/
def bindColumn (width : ℕ) : Entry String → Except DbError String
  | .value v => if v.length ≤ width then .ok v else .error .dataError
  | _ => .error .notNullViolation

/-- The flush of a text column that a request may have set. -/
def bindPatch (width : ℕ) (old : String) : Entry String → Except DbError String
  | .missing => .ok old
  | e => bindColumn width e

/-- The loop over the changes of the request, as far as its flush. -/
def applyUpdate (body : AssetUpdate) (a : Asset) : Except DbError Asset := do
  let criticality ← bindPatch 16 a.criticality body.criticality
  let dataClassification ← bindPatch 32 a.dataClassification body.dataClassification
  let controlCoverage ← bindPatch 16 a.controlCoverage body.controlCoverage
  let authMethod ← bindPatch 32 a.authMethod body.authMethod
  return { a with
    criticality := criticality
    dataClassification := dataClassification
    controlCoverage := controlCoverage
    authMethod := authMethod
    tags := match body.tags with
      | .missing => a.tags
      | tags => tags.get }

/-- What the update endpoint reads of a stored CVE. -/
def updateEvidence (cve : CVE) : CveEvidence :=
  { cvssV3 := cve.cvssV3, epssScore := cve.epssScore, kev := cve.kev }

/-- The CVE list that the update endpoint gives to the risk engine: every link counts. -/
def linkedEvidence (db : Database) (assetId : ℕ) : List CveEvidence :=
  (cvesOf db (linksOf db assetId)).map updateEvidence

/-- The exceptions of a request or of an enrichment. -/
inductive Failure where
  | notFound
  | database (e : DbError)
  | feed (e : FeedError)
  deriving DecidableEq, Repr

/-- `update_asset` -/
def updateAsset (now : Time) (db : Database) (assetId : ℕ) (body : AssetUpdate) :
    Except Failure Database :=
  match db.assets.find assetId with
  | none => .error .notFound
  | some a =>
    match applyUpdate body a with
    | .error e => .error (.database e)
    | .ok b =>
      let risk := riskOf b.toAssetColumns (linkedEvidence db assetId)
      .ok { db with assets := db.assets.put (flushUpdate now a (storeRisk b risk)) }

/-! ## `_enrich_one_asset` -/

/-- The row that the upsert of an enriched CVE leaves. -/
def upsertedCve (now : Time) (old : Option CVE) (c : EnrichedCve) : CVE :=
  match old with
  | none =>
    { id := c.id
      cvssV3 := c.cvssV3
      cvssVector := c.cvssVector
      epssScore := some c.epssScore
      epssPercentile := some c.epssPercentile
      kev := c.kev
      description := some c.description
      affectedCpes := c.affectedCpes
      lastSynced := now }
  | some cve =>
    { cve with
      cvssV3 := (c.cvssV3.filter (· ≠ 0)).or cve.cvssV3
      epssScore := some c.epssScore
      epssPercentile := some c.epssPercentile
      kev := c.kev
      lastSynced := now }

/-- The link that enrichment adds for a CVE. -/
def newLink (assetId : ℕ) (c : EnrichedCve) : AssetCVE :=
  { assetId := assetId, cveId := c.id, matchedCpe := some c.matchedCpe }

/-- One turn of the loop over the enriched CVEs: the upsert and the junction. -/
def storeCve (now : Time) (assetId : ℕ) (db : Database) (c : EnrichedCve) : Database :=
  { db with
    cves := db.cves.upsert (upsertedCve now (db.cves.find c.id) c)
    assetCves := match db.assetCves.find (assetId, c.id) with
      | some _ => db.assetCves
      | none => db.assetCves.upsert (newLink assetId c) }

/-- What enrichment reads of an enriched CVE. -/
def answerEvidence (c : EnrichedCve) : CveEvidence :=
  { cvssV3 := c.cvssV3, epss := some c.epssScore, kev := c.kev }

/-- The database after an answer of the enricher for a stored asset. -/
def storeAnswer (now : Time) (db : Database) (a : Asset) (answer : Answer) : Database :=
  let db := answer.rows.foldl (storeCve now a.id) db
  let risk := riskOf a.toAssetColumns (answer.rows.map answerEvidence)
  { db with assets := db.assets.put (flushUpdate now a (storeRisk a risk)) }

/-- `_enrich_one_asset`, with the call of the enricher as a parameter. -/
def enrichOneAsset (now : Time) (enrich : List String → Except FeedError Answer) (db : Database)
    (assetId : ℕ) : Except Failure Database :=
  match db.assets.find assetId with
  | none => .error .notFound
  | some a =>
    if a.cpe.getD [] = [] then .ok db
    else match enrich (a.cpe.getD []) with
      | .error e => .error (.feed e)
      | .ok answer => .ok (storeAnswer now db a answer)

/-! ## `detect_stale_assets` -/

/-- The assets that the staleness check selects. -/
def selectStale (now : Time) (thresholdDays : ℤ) (a : Asset) : Bool :=
  a.lastSeen < now - days thresholdDays && !a.isStale

/-- The alert for a stale asset; `isoformat` is the text of a timestamp. -/
def staleAlert (isoformat : Time → String) (now : Time) (thresholdDays : ℤ) (a : Asset) :
    Alert where
  alertType := .staleAsset
  severity := .low
  title := "Stale asset: " ++ a.name
  description := "Last seen " ++ isoformat a.lastSeen ++ " — exceeds " ++
    toString thresholdDays ++ "d threshold"
  assetId := a.id
  createdAt := now

/-- The alerts of the loop over the selected assets. -/
def staleAlerts (isoformat : Time → String) (now : Time) (thresholdDays : ℤ) :
    List Alert → List Asset → Except DbError (List Alert)
  | alerts, [] => .ok alerts
  | alerts, a :: assets =>
    match Reconciler.raiseAlert now alerts (staleAlert isoformat now thresholdDays a) with
    | .error e => .error e
    | .ok alerts => staleAlerts isoformat now thresholdDays alerts assets

/-- The assignment of the loop over the selected assets. -/
def markStale (now : Time) (thresholdDays : ℤ) (a : Asset) : Asset :=
  if selectStale now thresholdDays a then { a with isStale := true } else a

/-- The row that the staleness check leaves for an asset. -/
def flagged (now : Time) (thresholdDays : ℤ) (a : Asset) : Asset :=
  flushUpdate now a (markStale now thresholdDays a)

theorem flagged_id (now : Time) (thresholdDays : ℤ) (a : Asset) :
    (flagged now thresholdDays a).id = a.id :=
  flushUpdate_id (by unfold markStale; split <;> rfl)

/-- `detect_stale_assets`, up to the commit of its caller. -/
def detectStaleAssets (isoformat : Time → String) (now : Time) (thresholdDays : ℤ)
    (db : Database) : Except Failure Database :=
  match staleAlerts isoformat now thresholdDays db.alerts
      (db.assets.rows.filter (selectStale now thresholdDays)) with
  | .error e => .error (.database e)
  | .ok alerts => .ok
    { db with
      alerts := alerts
      assets := db.assets.mapRows (flagged now thresholdDays) (flagged_id now thresholdDays) }

/-! ## What the operations leave -/

theorem find_rescoreAssets (now : Time) (db : Database) (i : ℕ) :
    (rescoreAssets now db).assets.find i = (db.assets.find i).map (rescored now db) :=
  Table.find_mapRows db.assets (rescored now db) (fun _ => flushUpdate_id rfl) i

@[simp] theorem storedRisk_flushUpdate (now : Time) (a b : Asset) :
    storedRisk (flushUpdate now a b) = storedRisk b := by
  rw [flushUpdate_eq]
  rfl

/-- An empty update stores the risk of the stored columns with every link. -/
theorem updateAsset_empty {now : Time} {db : Database} {i : ℕ} {a : Asset}
    (ha : db.assets.find i = some a) :
    updateAsset now db i {} = .ok { db with
      assets := db.assets.put
        (flushUpdate now a (storeRisk a (riskOf a.toAssetColumns (linkedEvidence db i)))) } := by
  have happly : applyUpdate {} a = .ok a := rfl
  simp only [updateAsset, ha, happly]

theorem storeCve_assets (now : Time) (i : ℕ) (db : Database) (c : EnrichedCve) :
    (storeCve now i db c).assets = db.assets := rfl

theorem upsertedCve_id {now : Time} {old : Option CVE} {c : EnrichedCve}
    (h : ∀ cve ∈ old, cve.id = c.id) : (upsertedCve now old c).id = c.id := by
  cases old with
  | none => rfl
  | some cve => exact h cve rfl

theorem find_storeCve (now : Time) (i : ℕ) (db : Database) (c : EnrichedCve) (x : String) :
    (storeCve now i db c).cves.find x =
      if c.id = x then some (upsertedCve now (db.cves.find c.id) c) else db.cves.find x := by
  have hid : (upsertedCve now (db.cves.find c.id) c).id = c.id :=
    upsertedCve_id fun cve h => Table.find_some_key h
  simp only [storeCve, Table.find_upsert, hid]

theorem find_link_storeCve (now : Time) (i : ℕ) (db : Database) (c : EnrichedCve)
    (k : ℕ × String) :
    (storeCve now i db c).assetCves.find k = (db.assetCves.find k).or
      (if (i, c.id) = k then some (newLink i c) else none) := by
  unfold storeCve
  dsimp only
  cases h : db.assetCves.find (i, c.id) with
  | some l =>
    by_cases hk : (i, c.id) = k
    · subst hk
      simp [h]
    · simp [hk]
  | none =>
    simp only [Table.find_upsert, AssetCVE.key, newLink]
    by_cases hk : (i, c.id) = k
    · subst hk
      simp [h]
    · simp [hk]

/-- The loop over an answer writes each of its CVEs once and no other. -/
theorem find_storeCves (now : Time) (i : ℕ) (db : Database) {cs : List EnrichedCve}
    (hnodup : (cs.map (·.id)).Nodup) (x : String) :
    (cs.foldl (storeCve now i) db).cves.find x =
      match cs.find? (fun c => c.id = x) with
      | some c => some (upsertedCve now (db.cves.find x) c)
      | none => db.cves.find x := by
  induction cs generalizing db with
  | nil => rfl
  | cons c cs ih =>
    obtain ⟨hc, hnodup⟩ := List.nodup_cons.mp hnodup
    rw [List.foldl_cons, ih _ hnodup]
    by_cases hx : c.id = x
    · subst hx
      have hrest : cs.find? (fun d => d.id = c.id) = none := by
        rw [List.find?_eq_none]
        intro d hd he
        exact hc (List.mem_map.mpr ⟨d, hd, by simpa using he⟩)
      simp [hrest, find_storeCve]
    · simp [hx, find_storeCve]

/-- The loop over an answer keeps every link and adds a plain one for each CVE without. -/
theorem find_link_storeCves (now : Time) (i : ℕ) (db : Database) (cs : List EnrichedCve)
    (k : ℕ × String) :
    (cs.foldl (storeCve now i) db).assetCves.find k = (db.assetCves.find k).or
      ((cs.find? fun c => (i, c.id) = k).map (newLink i)) := by
  induction cs generalizing db with
  | nil => simp
  | cons c cs ih =>
    rw [List.foldl_cons, ih, find_link_storeCve, Option.or_assoc]
    by_cases hk : (i, c.id) = k
    · simp [hk]
    · simp [hk]

theorem assets_storeCves (now : Time) (i : ℕ) (db : Database) (cs : List EnrichedCve) :
    (cs.foldl (storeCve now i) db).assets = db.assets := by
  induction cs generalizing db with
  | nil => rfl
  | cons c cs ih => rw [List.foldl_cons, ih, storeCve_assets]

/-- The CVEs after an answer is stored. -/
theorem find_cve_storeAnswer (now : Time) (db : Database) (a : Asset) (answer : Answer)
    (x : String) :
    (storeAnswer now db a answer).cves.find x =
      match answer.find x with
      | some c => some (upsertedCve now (db.cves.find x) c)
      | none => db.cves.find x := find_storeCves now a.id db answer.nodup x

/-- The links of the asset after an answer is stored. -/
theorem find_link_storeAnswer (now : Time) (db : Database) (a : Asset) (answer : Answer)
    (x : String) :
    (storeAnswer now db a answer).assetCves.find (a.id, x) =
      (db.assetCves.find (a.id, x)).or ((answer.find x).map (newLink a.id)) := by
  refine (find_link_storeCves now a.id db answer.rows (a.id, x)).trans ?_
  simp [Table.find]

theorem assets_storeAnswer (now : Time) (db : Database) (a : Asset) (answer : Answer) :
    (storeAnswer now db a answer).assets = db.assets.put (flushUpdate now a
      (storeRisk a (riskOf a.toAssetColumns (answer.rows.map answerEvidence)))) := by
  simp only [storeAnswer, assets_storeCves]

end Kepryx.RiskWriters
