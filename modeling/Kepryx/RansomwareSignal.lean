import Kepryx.FeedOutage
import Kepryx.RiskMonotonicity
import Kepryx.RiskPaths

/-!
# The ransomware flag between the KEV feed and the stored score

The enricher marks a CVE that the KEV catalog lists with known ransomware use, and the risk
engine reads that mark. What enrichment hands over in between has no entry for it, and the
`cves` table has no column for it.
-/
namespace Kepryx.RansomwareSignal
open Kepryx.Models Kepryx.Tables Kepryx.RiskEngine Kepryx.CveFeeds Kepryx.RiskWriters
open Kepryx.RiskPaths Kepryx.Grading

/-! ## The records of the enricher -/

/-- An entry of the KEV catalog; a missing `knownRansomwareCampaignUse` counts as `Unknown`. -/
structure KevEntry where
  cveID : String
  knownRansomwareCampaignUse : Option String
  deriving DecidableEq, Repr

/-- The `ransomware` entry of the cached catalog. -/
def KevEntry.ransomware (v : KevEntry) : Bool := v.knownRansomwareCampaignUse = some "Known"

/-- `self.kev_cache.get(cve_id)`: of two entries for a CVE the dictionary keeps the later. -/
def kevData (catalog : List KevEntry) (cveId : String) : Option KevEntry :=
  catalog.reverse.find? fun v => v.cveID = cveId

/-- A CVE as `enrich_asset` returns it, with its `kev_ransomware` entry. -/
structure EnrichedRecord extends EnrichedCve where
  kevRansomware : Bool
  deriving DecidableEq, Repr

/-- What `enrich_asset` returns. -/
abbrev RecordAnswer := Table fun c : EnrichedRecord => c.id

/-- The `kev_ransomware` entry that `enrich_asset` adds to a CVE. -/
def addRansomware (catalog : List KevEntry) (c : EnrichedCve) : EnrichedRecord where
  toEnrichedCve := c
  kevRansomware := (kevData catalog c.id).any (·.ransomware)

/-- `enrich_asset` of a fresh enricher whose KEV request is answered with a catalog. -/
def enrichRecords (now : Time) (F : Feeds) (catalog : List KevEntry) (cpes : List String) :
    Except FeedError RecordAnswer :=
  (enrichAsset now { F with kev := .catalog (catalog.map (·.cveID)) } .fresh cpes).map
    fun result =>
      { rows := result.2.rows.map (addRansomware catalog)
        nodup := by
          rw [List.map_map]
          exact result.2.nodup }

/-- The entries of the records that enrichment reads. -/
def enriched (records : RecordAnswer) : Answer where
  rows := records.rows.map (·.toEnrichedCve)
  nodup := by
    rw [List.map_map]
    exact records.nodup

/-- A record as the risk engine reads it when it is handed over unchanged. -/
def ownEvidence (c : EnrichedRecord) : CveEvidence :=
  { cvssV3 := c.cvssV3, epssScore := some c.epssScore, kev := c.kev
    kevRansomware := c.kevRansomware }

/-- The list that the risk engine gets when the records are handed over unchanged. -/
def ownEvidences (records : RecordAnswer) : List CveEvidence := records.rows.map ownEvidence

/-- Enriching an asset stores the risk of the records, and rescoring keeps it. -/
def SignalReaches (now now' : Time) (db : Database) (a : Asset) (records : RecordAnswer) :
    Prop :=
  ∃ db', enrichOneAsset now (fun _ => .ok (enriched records)) db a.id = .ok db' ∧
    (db'.assets.find a.id).map storedRisk =
      some (storedRisk (storeRisk a (riskOf a.toAssetColumns (ownEvidences records)))) ∧
    ((rescoreAssets now' db').assets.find a.id).map storedRisk =
      (db'.assets.find a.id).map storedRisk

/-! ## What handing over loses -/

theorem worstCveScore_map {α : Type} (rows : List α) (f g : α → CveEvidence)
    (hcvss : ∀ c, (f c).cvssValue = (g c).cvssValue)
    (hepss : ∀ c, (f c).epssValue = (g c).epssValue) :
    worstCveScore (rows.map f) = worstCveScore (rows.map g) := by
  have h1 : (rows.map f).map CveEvidence.cvssValue = (rows.map g).map CveEvidence.cvssValue := by
    simp [hcvss]
  have h2 : (rows.map f).map CveEvidence.epssValue = (rows.map g).map CveEvidence.epssValue := by
    simp [hepss]
  simp only [worstCveScore, h1, h2, List.map_eq_nil_iff]

theorem firstNonzero_none (x : Option ℚ) : firstNonzero x none = x.getD 0 := by
  cases x with
  | none => rfl
  | some q => by_cases hq : q = 0 <;> simp [firstNonzero, Option.filter, hq]

theorem one_le_severity (c : CveEvidence) : 1 ≤ c.severity :=
  (one_le_clamp (by norm_num) _).trans (le_max_left _ _)

/-- The CVE score reaches exactly what some CVE reaches. -/
theorem le_worstCveScore_iff {cves : List CveEvidence} (hne : cves ≠ []) {k : ℤ} :
    k ≤ worstCveScore cves ↔ ∃ c ∈ cves, k ≤ c.severity := by
  constructor
  · intro h
    by_contra hnone
    push Not at hnone
    obtain ⟨c, hc⟩ := List.exists_mem_of_ne_nil cves hne
    have hk : 1 ≤ k - 1 := by
      have := hnone c hc
      have := one_le_severity c
      omega
    have hle : worstCveScore cves ≤ k - 1 :=
      (worstCveScore_le hk).mpr fun c hc => by have := hnone c hc; omega
    omega
  · rintro ⟨c, hc, hk⟩
    exact hk.trans (severity_le_worstCveScore hc)

/-- Rounding half to even reaches an odd grade only above the half below it. -/
theorem five_le_roundHalfEven {q : ℚ} : 5 ≤ roundHalfEven q ↔ 9 / 2 < q := by
  constructor
  · intro h
    by_contra hq
    have hfour : roundHalfEven (9 / 2) = 4 := by decide +kernel
    have := roundHalfEven_mono (not_lt.mp hq)
    omega
  · intro hq
    have hfloor : 4 ≤ ⌊q⌋ := Int.le_floor.mpr (by push_cast; linarith)
    rcases hfloor.lt_or_eq with h | h
    · exact (Int.add_one_le_of_lt h).trans (floor_le_roundHalfEven q)
    · have hfrac : q - ⌊q⌋ > 1 / 2 := by rw [← h]; push_cast; linarith
      unfold roundHalfEven
      split_ifs <;> first | omega | linarith

/-- A CVE has the highest grade exactly with a CVSS above 9 or an EPSS above 0.9. -/
theorem five_le_severity (c : CveEvidence) :
    5 ≤ c.severity ↔ 9 < c.cvssValue ∨ 9 / 10 < c.epssValue := by
  have hclamp : ∀ k : ℤ, 5 ≤ clamp 5 k ↔ 5 ≤ k := fun k => by unfold clamp; omega
  rw [CveEvidence.severity, le_max_iff, normCvss, normEpss, hclamp, hclamp,
    five_le_roundHalfEven, five_le_roundHalfEven]
  constructor <;> rintro (h | h)
  · exact .inl (by linarith)
  · exact .inr (by linarith)
  · exact .inl (by linarith)
  · exact .inr (by linarith)

/-- The list that enrichment hands over. -/
def handedOver (records : RecordAnswer) : List CveEvidence :=
  (enriched records).rows.map answerEvidence

theorem handedOver_eq (records : RecordAnswer) :
    handedOver records = records.rows.map fun c => answerEvidence c.toEnrichedCve := by
  simp [handedOver, enriched]

theorem epssValue_own (c : EnrichedRecord) :
    (answerEvidence c.toEnrichedCve).epssValue = (ownEvidence c).epssValue := by
  simp [answerEvidence, ownEvidence, CveEvidence.epssValue, firstNonzero]

theorem worstCveScore_handedOver (records : RecordAnswer) :
    worstCveScore (handedOver records) = worstCveScore (ownEvidences records) := by
  rw [handedOver_eq]
  exact worstCveScore_map records.rows _ _ (fun _ => rfl) epssValue_own

theorem hasKev_handedOver (records : RecordAnswer) :
    hasKev (handedOver records) = hasKev (ownEvidences records) := by
  rw [handedOver_eq]
  simp only [hasKev, ownEvidences, List.any_map]
  rfl

theorem cveScore_handedOver (records : RecordAnswer) :
    cveScore (handedOver records) = worstCveScore (ownEvidences records) := by
  have hplain : hasRansomwareKev (handedOver records) = false := by
    simp [hasRansomwareKev, handedOver_eq, answerEvidence]
  rw [cveScore, hplain, ← worstCveScore_handedOver]
  rfl

/-- The boost is lost unless there is none or the score is at its bound. -/
theorem cveScore_own_iff (cves : List CveEvidence) :
    worstCveScore cves = cveScore cves ↔ (hasRansomwareKev cves → worstCveScore cves = 5) := by
  have hle : worstCveScore cves ≤ 5 := worstCveScore_le_five cves
  unfold cveScore
  split
  · rename_i h
    simp only [h, forall_const]
    omega
  · rename_i h
    simp [h]

/-- Two lists with the same exploited CVEs give one risk exactly when their CVE scores agree. -/
theorem riskOf_eq_iff_cveScore (c : AssetColumns) {cs ds : List CveEvidence}
    (hkev : hasKev cs = hasKev ds) :
    riskOf c cs = riskOf c ds ↔ cveScore cs = cveScore ds := by
  constructor
  · intro h
    have hb : breakdown { riskInput c with cves := cs } =
        breakdown { riskInput c with cves := ds } := congrArg Risk.breakdown h
    exact congrArg Breakdown.cve hb
  · intro h
    have hb : breakdown { riskInput c with cves := cs } =
        breakdown { riskInput c with cves := ds } := by
      simp only [breakdown, h, hkev]
    simp only [riskOf, computeRisk, hb]

/-- A record of a CVE that ransomware campaigns exploit comes with one whose CVSS is above 9
or whose EPSS is above 0.9. -/
def BoostIdle (records : RecordAnswer) : Prop :=
  (∃ c ∈ records.rows, c.kev ∧ c.kevRansomware) →
    ∃ c ∈ records.rows, 9 < c.cvssV3.getD 0 ∨ 9 / 10 < c.epssScore

theorem boostIdle_iff (records : RecordAnswer) :
    BoostIdle records ↔
      (hasRansomwareKev (ownEvidences records) → worstCveScore (ownEvidences records) = 5) := by
  have hransom : hasRansomwareKev (ownEvidences records) ↔
      ∃ c ∈ records.rows, c.kev ∧ c.kevRansomware := by
    simp [hasRansomwareKev, ownEvidences, ownEvidence]
  have hcvss : ∀ c : EnrichedRecord, (ownEvidence c).cvssValue = c.cvssV3.getD 0 :=
    fun c => firstNonzero_none _
  have hepss : ∀ c : EnrichedRecord, (ownEvidence c).epssValue = c.epssScore :=
    fun c => (firstNonzero_none _).trans rfl
  rw [BoostIdle, hransom]
  refine forall_congr' fun hransomware => ?_
  obtain ⟨c, hc, -⟩ := hransomware
  have hne : ownEvidences records ≠ [] := List.ne_nil_of_mem (List.mem_map.mpr ⟨c, hc, rfl⟩)
  have hle : worstCveScore (ownEvidences records) ≤ 5 := worstCveScore_le_five _
  have hfive : worstCveScore (ownEvidences records) = 5 ↔
      5 ≤ worstCveScore (ownEvidences records) := by omega
  rw [hfive, le_worstCveScore_iff hne]
  simp [ownEvidences, five_le_severity, hcvss, hepss]

/-- The handed over list gives the risk of the records exactly when no boost is lost. -/
theorem riskOf_handedOver_iff (c : AssetColumns) (records : RecordAnswer) :
    riskOf c (handedOver records) = riskOf c (ownEvidences records) ↔ BoostIdle records := by
  rw [riskOf_eq_iff_cveScore c (hasKev_handedOver records), cveScore_handedOver,
    cveScore_own_iff, boostIdle_iff]

/-! ## What rescoring finds -/

/-- A CVE of the records whose CVSS is missing or zero was stored before with a CVSS that
weighs no more than some record does. -/
def NoHeavierStored (db : Database) (records : RecordAnswer) : Prop :=
  ∀ c ∈ records.rows, c.cvssV3.getD 0 = 0 → ∀ cve, db.cves.find c.id = some cve →
    ∃ d ∈ records.rows, normCvss (cve.cvssV3.getD 0) ≤ (ownEvidence d).severity

theorem noHeavierStored_iff (db : Database) (records : RecordAnswer) :
    NoHeavierStored db records ↔
      ∀ c ∈ records.rows, c.cvssV3.getD 0 = 0 → ∀ cve, db.cves.find c.id = some cve →
        normCvss (cve.cvssV3.getD 0) ≤ worstCveScore (ownEvidences records) := by
  refine forall₂_congr fun c hc => forall_congr' fun _ => forall₂_congr fun cve _ => ?_
  have hne : ownEvidences records ≠ [] := List.ne_nil_of_mem (List.mem_map.mpr ⟨c, hc, rfl⟩)
  rw [le_worstCveScore_iff hne]
  simp [ownEvidences]

theorem evidenceAfter_unlinked {db : Database} {i : ℕ} (hlinks : linksOf db i = [])
    (answer : Answer) : evidenceAfter db i answer = answer.rows.map (storedEvidence db) := by
  have hnone : ∀ x, db.assetCves.find (i, x) = none := by
    intro x
    refine Table.find_eq_none.mpr fun l hl hkey => ?_
    have hmem : l ∈ linksOf db i :=
      List.mem_filter.mpr ⟨hl, by simpa [AssetCVE.key] using congrArg Prod.fst hkey⟩
    rw [hlinks] at hmem
    exact List.not_mem_nil hmem
  simp [evidenceAfter, hlinks, cvesOf, hnone]

theorem normCvss_zero : normCvss 0 = 1 := by decide +kernel

theorem normCvss_zero_le (q : ℚ) : normCvss 0 ≤ normCvss q := by
  rw [normCvss_zero]
  exact one_le_clamp (by norm_num) _

/-- The CVSS of a stored CVE is that of the record, unless this is missing or zero. -/
theorem cvssValue_stored (db : Database) (c : EnrichedCve) :
    (storedEvidence db c).cvssValue =
      if c.cvssV3.getD 0 = 0 then ((db.cves.find c.id).bind (·.cvssV3)).getD 0
      else c.cvssV3.getD 0 := by
  have hvalue : (storedEvidence db c).cvssValue = (storedEvidence db c).cvssV3.getD 0 :=
    firstNonzero_none _
  rw [hvalue, storedEvidence]
  cases db.cves.find c.id with
  | none => cases h : c.cvssV3 <;> simp +contextual
  | some cve =>
    cases h : c.cvssV3 with
    | none => simp
    | some q => by_cases hq : q = 0 <;> simp [Option.filter, hq]

/-- A stored CVE weighs at least as much as its record. -/
theorem severity_le_stored (db : Database) (c : EnrichedCve) :
    (answerEvidence c).severity ≤ (storedEvidence db c).severity := by
  have hepss : (answerEvidence c).epssValue = (storedEvidence db c).epssValue := rfl
  have hanswer : (answerEvidence c).cvssValue = c.cvssV3.getD 0 := firstNonzero_none _
  unfold CveEvidence.severity
  rw [hepss, cvssValue_stored, hanswer]
  apply max_le_max_right
  split
  · rename_i hzero
    rw [hzero]
    exact normCvss_zero_le _
  · exact le_rfl

/-- With no links yet, the stored CVEs cover the records, and the records cover the stored
CVEs exactly when none of these is heavier. -/
theorem covers_stored_iff {db : Database} {i : ℕ} (hlinks : linksOf db i = [])
    (records : RecordAnswer) :
    Covers (handedOver records) (evidenceAfter db i (enriched records)) ∧
        Covers (evidenceAfter db i (enriched records)) (handedOver records) ↔
      NoHeavierStored db records := by
  have hafter : evidenceAfter db i (enriched records) =
      records.rows.map fun c => storedEvidence db c.toEnrichedCve := by
    rw [evidenceAfter_unlinked hlinks]
    simp [enriched]
  rw [hafter, handedOver_eq, noHeavierStored_iff]
  have hworst : worstCveScore (records.rows.map fun c => answerEvidence c.toEnrichedCve) =
      worstCveScore (ownEvidences records) := by
    rw [← handedOver_eq, worstCveScore_handedOver]
  have hback : Covers (records.rows.map fun c => storedEvidence db c.toEnrichedCve)
      (records.rows.map fun c => answerEvidence c.toEnrichedCve) := by
    constructor
    · intro d hd
      obtain ⟨c, hc, rfl⟩ := List.mem_map.mp hd
      exact (severity_le_stored db c.toEnrichedCve).trans
        (severity_le_worstCveScore (List.mem_map.mpr ⟨c, hc, rfl⟩))
    · rintro ⟨d, hd, hk⟩
      obtain ⟨c, hc, rfl⟩ := List.mem_map.mp hd
      exact ⟨_, List.mem_map.mpr ⟨c, hc, rfl⟩, hk⟩
  constructor
  · rintro ⟨hcov, -⟩ c hc hzero cve hcve
    have hsev := hcov.severity _ (List.mem_map.mpr ⟨c, hc, rfl⟩)
    rw [hworst] at hsev
    have hvalue := cvssValue_stored db c.toEnrichedCve
    simp only [hzero, if_pos, hcve, Option.bind_some] at hvalue
    rw [← hvalue]
    exact (le_max_left _ _).trans hsev
  · intro h
    refine ⟨?_, hback⟩
    constructor
    · intro d hd
      obtain ⟨c, hc, rfl⟩ := List.mem_map.mp hd
      have hsev : (answerEvidence c.toEnrichedCve).severity ≤ worstCveScore
          (records.rows.map fun c => answerEvidence c.toEnrichedCve) :=
        severity_le_worstCveScore (List.mem_map.mpr ⟨c, hc, rfl⟩)
      refine max_le ?_ ((le_max_right _ _).trans hsev)
      rw [cvssValue_stored]
      split
      · rename_i hzero
        rw [hworst]
        cases hcve : db.cves.find c.id with
        | none =>
          simp only [Option.bind_none, Option.getD_none, normCvss_zero]
          exact one_le_worstCveScore _
        | some cve => exact h c hc hzero cve hcve
      · have hanswer : (answerEvidence c.toEnrichedCve).cvssValue = c.cvssV3.getD 0 :=
          firstNonzero_none _
        rw [← hanswer]
        exact (le_max_left _ _).trans hsev
    · rintro ⟨d, hd, hk⟩
      obtain ⟨c, hc, rfl⟩ := List.mem_map.mp hd
      exact ⟨_, List.mem_map.mpr ⟨c, hc, rfl⟩, hk⟩

/-- An asset without links gets the risk of its records, and keeps it, exactly when no boost
is lost and no stored CVE weighs more than the records. -/
theorem signalReaches_iff (now now' : Time) {db : Database} {a : Asset}
    (ha : db.assets.find a.id = some a) (hcpe : a.cpe.getD [] ≠ [])
    (hlinks : linksOf db a.id = []) (records : RecordAnswer) :
    SignalReaches now now' db a records ↔
      BoostIdle records ∧ NoHeavierStored db records := by
  have henrich : enrichOneAsset now (fun _ => .ok (enriched records)) db a.id =
      .ok (storeAnswer now db a (enriched records)) := by
    simp only [enrichOneAsset, ha, hcpe, if_false]
  have hfind : (storeAnswer now db a (enriched records)).assets.find a.id = some
      (flushUpdate now a (storeRisk a (riskOf a.toAssetColumns (handedOver records)))) := by
    rw [assets_storeAnswer]
    exact find_put_flushed ha now _
  have hstored : ((storeAnswer now db a (enriched records)).assets.find a.id).map storedRisk =
      some (storedRisk (storeRisk a (riskOf a.toAssetColumns (handedOver records)))) := by
    rw [hfind, Option.map_some, storedRisk_flushUpdate]
  rw [SignalReaches, henrich]
  simp only [Except.ok.injEq, exists_eq_left']
  rw [hstored, Option.some.injEq, storedRisk_storeRisk_inj, riskOf_handedOver_iff,
    storedRisk_rescoreAssets hfind, Option.some.injEq, storedRisk_storeRisk_inj,
    riskOf_flushUpdate]
  exact and_congr_right fun _ => (riskOf_answer_iff now db a (enriched records)).trans
    (covers_stored_iff hlinks records)

/-- An answer with one CVE of moderate severity that ransomware campaigns use. -/
def ransomwareFeeds : Feeds :=
  { FeedOutage.nvdOnly with
    nvd _ _ := some
      [{ id := some "CVE-2023-34362", cvssMetricV31 := [{ baseScore := some 7 }] }] }

/-- The catalog that lists it. -/
def ransomwareCatalog : List KevEntry := [⟨"CVE-2023-34362", some "Known"⟩]

/-- A database with one asset that has a CPE and no links. -/
def unlinked : Database := { suppressedKev with cves := .empty, assetCves := .empty }

/-- The same CVE with a critical score, beside one that has none yet. -/
def criticalFeeds : Feeds :=
  { FeedOutage.nvdOnly with
    nvd _ _ := some
      [{ id := some "CVE-2023-34362", cvssMetricV31 := [{ baseScore := some (49 / 5) }] },
        { id := some "CVE-2024-0001" }] }

/-- The second CVE is stored with a score. -/
def storedScore : Database := { suppressedKev with assetCves := .empty }

def criticalRecords : RecordAnswer :=
  (enrichRecords 0 criticalFeeds ransomwareCatalog ["cpe:2.3:a:x:y"]).toOption.getD .empty

/-- The boost cannot raise what the critical score weighs. -/
theorem signalReaches_unlinked :
    (∃ c ∈ criticalRecords.rows, c.kev ∧ c.kevRansomware) ∧
      (∃ c ∈ criticalRecords.rows, c.cvssV3 = none ∧ (storedScore.cves.find c.id).isSome) ∧
      SignalReaches 0 0 storedScore (storedScore.assets.rows.get ⟨0, by decide⟩)
        criticalRecords := by
  have hrecords : (∃ c ∈ criticalRecords.rows, c.kev ∧ c.kevRansomware) ∧
      (∃ c ∈ criticalRecords.rows, c.cvssV3 = none ∧ (storedScore.cves.find c.id).isSome) ∧
      ∃ d ∈ criticalRecords.rows, 9 < d.cvssV3.getD 0 ∧ 5 ≤ (ownEvidence d).severity := by
    decide +kernel
  obtain ⟨hransomware, hstored, d, hd, hcvss, hsevere⟩ := hrecords
  refine ⟨hransomware, hstored, ?_⟩
  refine (signalReaches_iff 0 0 (by decide) (by decide) (by decide) criticalRecords).mpr ⟨?_, ?_⟩
  · exact fun _ => ⟨d, hd, .inl hcvss⟩
  · exact fun _ _ _ cve _ => ⟨d, hd, (clamp_le 5 _).trans hsevere⟩

/-- The boost for the ransomware CVE never reaches the asset. -/
theorem ransomware_signal_lost :
    linksOf unlinked 1 = [] ∧
    ∃ records, enrichRecords 0 ransomwareFeeds ransomwareCatalog ["cpe:2.3:a:x:y"] = .ok records ∧
      ¬ SignalReaches 0 0 unlinked (unlinked.assets.rows.get ⟨0, by decide⟩) records := by
  refine ⟨rfl, _, rfl, fun h => ?_⟩
  obtain ⟨db', hdb', hrisk, -⟩ := h
  cases hdb'
  exact absurd hrisk (by decide +kernel)

end Kepryx.RansomwareSignal
