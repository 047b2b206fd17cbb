import Kepryx.RiskWriters

/-!
# When the risk-writing paths agree

Rescoring counts the links that are neither suppressed nor remediated, the update endpoint
counts every link, and enrichment counts what the feeds just answered. They store one risk
exactly when the CVE lists cover each other.
-/
namespace Kepryx.RiskPaths
open Kepryx.Models Kepryx.Tables Kepryx.RiskEngine Kepryx.CveFeeds Kepryx.RiskWriters

/-! ## The lists -/

/-- The stored CVEs of the links that rescoring leaves out. -/
def inactiveEvidence (db : Database) (assetId : ℕ) : List CveEvidence :=
  (cvesOf db ((linksOf db assetId).filter fun l => !active l)).map rescoreEvidence

/-- What rescoring reads of an enriched CVE once it is stored: a CVSS value that is missing
or zero keeps the stored one. -/
def storedEvidence (db : Database) (c : EnrichedCve) : CveEvidence where
  cvssV3 := match db.cves.find c.id with
    | none => c.cvssV3
    | some cve => (c.cvssV3.filter (· ≠ 0)).or cve.cvssV3
  epss := some c.epssScore
  kev := c.kev

/-- The CVE list that rescoring will build after an answer is stored: the active links that
the answer does not mention, and the CVEs of the answer whose link is new or active. -/
def evidenceAfter (db : Database) (assetId : ℕ) (answer : Answer) : List CveEvidence :=
  (cvesOf db ((linksOf db assetId).filter fun l =>
    active l && (answer.find l.cveId).isNone)).map rescoreEvidence ++
  (answer.rows.filter fun c => (db.assetCves.find (assetId, c.id)).all active).map
    (storedEvidence db)

theorem mem_cvesOf_links {db : Database} {i : ℕ} {p : AssetCVE → Bool} {cve : CVE} :
    cve ∈ cvesOf db ((linksOf db i).filter p) ↔
      ∃ x l, db.assetCves.find (i, x) = some l ∧ p l ∧ db.cves.find x = some cve := by
  simp only [cvesOf, linksOf, List.mem_filterMap, List.mem_filter, decide_eq_true_eq]
  constructor
  · rintro ⟨l, ⟨⟨hl, rfl⟩, hp⟩, hcve⟩
    exact ⟨l.cveId, l, Table.find_key hl, hp, hcve⟩
  · rintro ⟨x, l, hl, hp, hcve⟩
    obtain ⟨hmem, hkey⟩ := Table.find_eq_some.mp hl
    obtain ⟨rfl, rfl⟩ : l.assetId = i ∧ l.cveId = x := by simpa [AssetCVE.key] using hkey
    exact ⟨l, ⟨⟨hmem, rfl⟩, hp⟩, hcve⟩

theorem mem_activeEvidence {db : Database} {i : ℕ} {e : CveEvidence} :
    e ∈ activeEvidence db i ↔ ∃ x l cve, db.assetCves.find (i, x) = some l ∧ active l ∧
      db.cves.find x = some cve ∧ rescoreEvidence cve = e := by
  simp only [activeEvidence, List.mem_map, mem_cvesOf_links]
  constructor
  · rintro ⟨cve, ⟨x, l, hl, ha, hcve⟩, rfl⟩
    exact ⟨x, l, cve, hl, ha, hcve, rfl⟩
  · rintro ⟨x, l, cve, hl, ha, hcve, rfl⟩
    exact ⟨cve, ⟨x, l, hl, ha, hcve⟩, rfl⟩

theorem rescoreEvidence_upsertedCve (now : Time) (db : Database) (c : EnrichedCve) :
    rescoreEvidence (upsertedCve now (db.cves.find c.id) c) = storedEvidence db c := by
  unfold storedEvidence
  cases db.cves.find c.id <;> rfl

/-- After an answer is stored, rescoring builds the list computed beforehand. -/
theorem mem_activeEvidence_storeAnswer (now : Time) (db : Database) (a : Asset)
    (answer : Answer) (e : CveEvidence) :
    e ∈ activeEvidence (storeAnswer now db a answer) a.id ↔ e ∈ evidenceAfter db a.id answer := by
  rw [mem_activeEvidence, evidenceAfter, List.mem_append, List.mem_map, List.mem_map]
  simp only [mem_cvesOf_links, find_link_storeAnswer, find_cve_storeAnswer]
  constructor
  · rintro ⟨x, l, cve, hl, hact, hcve, rfl⟩
    cases hx : answer.find x with
    | none =>
      left
      simp only [hx, Option.map_none, Option.or_none] at hl hcve
      have hlx : l.cveId = x := congrArg Prod.snd (Table.find_some_key hl)
      exact ⟨cve, ⟨x, l, hl, by simp [hact, hlx, hx], hcve⟩, rfl⟩
    | some c =>
      right
      simp only [hx, Option.map_some, Option.some.injEq] at hl hcve
      obtain ⟨hc, rfl⟩ := Table.find_eq_some.mp hx
      refine ⟨c, List.mem_filter.mpr ⟨hc, ?_⟩, ?_⟩
      · cases hold : db.assetCves.find (a.id, c.id) with
        | none => rfl
        | some l' =>
          rw [hold] at hl
          simp only [Option.some_or, Option.some.injEq] at hl
          simpa [hl] using hact
      · rw [← hcve, rescoreEvidence_upsertedCve]
  · rintro (⟨cve, ⟨x, l, hl, hp, hcve⟩, rfl⟩ | ⟨c, hc, rfl⟩)
    · have hlx : l.cveId = x := congrArg Prod.snd (Table.find_some_key hl)
      obtain ⟨hact, hx⟩ : active l ∧ answer.find x = none := by simpa [hlx] using hp
      exact ⟨x, l, cve, by simp [hl], hact, by simp [hx, hcve], rfl⟩
    · obtain ⟨hc, hall⟩ := List.mem_filter.mp hc
      have hx : answer.find c.id = some c := Table.find_key hc
      refine ⟨c.id, ((db.assetCves.find (a.id, c.id)).getD (newLink a.id c)),
        upsertedCve now (db.cves.find c.id) c, ?_, ?_, by simp [hx],
        rescoreEvidence_upsertedCve now db c⟩
      · cases db.assetCves.find (a.id, c.id) <;> simp [hx]
      · cases hold : db.assetCves.find (a.id, c.id) with
        | none => rfl
        | some l => simpa [hold] using hall

/-! ## One risk from two lists -/

theorem riskOf_eq_iff (c : AssetColumns) {cs ds : List CveEvidence}
    (hcs : ∀ e ∈ cs, e.kevRansomware = false) (hds : ∀ e ∈ ds, e.kevRansomware = false) :
    riskOf c cs = riskOf c ds ↔ Covers cs ds ∧ Covers ds cs :=
  computeRisk_eq_iff (riskInput c) hcs hds

/-- The risk of an asset does not depend on its risk columns or its `last_seen`. -/
theorem riskOf_flushUpdate (now : Time) (a : Asset) (r : Risk) (cs : List CveEvidence) :
    riskOf (flushUpdate now a (storeRisk a r)).toAssetColumns cs = riskOf a.toAssetColumns cs := by
  rw [flushUpdate_eq]
  rfl

theorem updateEvidence_severity (cve : CVE) :
    (updateEvidence cve).severity = (rescoreEvidence cve).severity := by
  have hepss : (updateEvidence cve).epssValue = (rescoreEvidence cve).epssValue := by
    cases h : cve.epssScore with
    | none => simp [updateEvidence, rescoreEvidence, CveEvidence.epssValue, firstNonzero, h,
        Option.filter]
    | some e => simp [updateEvidence, rescoreEvidence, CveEvidence.epssValue, firstNonzero, h]
  unfold CveEvidence.severity
  rw [hepss]
  rfl

/-- The links are the active ones and the others. -/
theorem mem_linked {db : Database} {i : ℕ} {cve : CVE} :
    cve ∈ cvesOf db (linksOf db i) ↔ cve ∈ cvesOf db ((linksOf db i).filter active) ∨
      cve ∈ cvesOf db ((linksOf db i).filter fun l => !active l) := by
  simp only [cvesOf, List.mem_filterMap, List.mem_filter]
  constructor
  · rintro ⟨l, hl, hcve⟩
    cases hact : active l with
    | true => exact .inl ⟨l, ⟨hl, hact⟩, hcve⟩
    | false => exact .inr ⟨l, ⟨hl, by simp [hact]⟩, hcve⟩
  · rintro (⟨l, ⟨hl, -⟩, hcve⟩ | ⟨l, ⟨hl, -⟩, hcve⟩) <;> exact ⟨l, hl, hcve⟩

/-- Counting every link gives the risk of the active ones exactly when these cover the
others. -/
theorem riskOf_linked_iff (c : AssetColumns) (db : Database) (i : ℕ) :
    riskOf c (linkedEvidence db i) = riskOf c (activeEvidence db i) ↔
      Covers (activeEvidence db i) (inactiveEvidence db i) := by
  rw [riskOf_eq_iff c (by simp [linkedEvidence, updateEvidence])
    (by simp [activeEvidence, rescoreEvidence])]
  have hmem : ∀ {cve}, cve ∈ cvesOf db (linksOf db i) → updateEvidence cve ∈ linkedEvidence db i :=
    fun h => List.mem_map.mpr ⟨_, h, rfl⟩
  constructor
  · rintro ⟨-, hcov⟩
    refine ⟨fun d hd => ?_, fun ⟨d, hd, hk⟩ => ?_⟩ <;>
      obtain ⟨cve, hcve, rfl⟩ := List.mem_map.mp hd
    · rw [← updateEvidence_severity]
      exact hcov.severity _ (hmem (mem_linked.mpr (.inr hcve)))
    · exact hcov.kev ⟨_, hmem (mem_linked.mpr (.inr hcve)), hk⟩
  · intro hcov
    refine ⟨⟨fun d hd => ?_, fun ⟨d, hd, hk⟩ => ?_⟩, fun d hd => ?_, fun ⟨d, hd, hk⟩ => ?_⟩ <;>
      obtain ⟨cve, hcve, rfl⟩ := List.mem_map.mp hd
    · rw [← updateEvidence_severity]
      exact severity_le_worstCveScore (hmem (mem_linked.mpr (.inl hcve)))
    · exact ⟨_, hmem (mem_linked.mpr (.inl hcve)), hk⟩
    · rw [updateEvidence_severity]
      rcases mem_linked.mp hcve with hcve | hcve
      · exact severity_le_worstCveScore (List.mem_map.mpr ⟨cve, hcve, rfl⟩)
      · exact hcov.severity _ (List.mem_map.mpr ⟨cve, hcve, rfl⟩)
    · rcases mem_linked.mp hcve with hcve | hcve
      · exact ⟨rescoreEvidence cve, List.mem_map.mpr ⟨cve, hcve, rfl⟩, hk⟩
      · exact hcov.kev ⟨rescoreEvidence cve, List.mem_map.mpr ⟨cve, hcve, rfl⟩, hk⟩

/-! ## The two agreements -/

/-- An empty update stores the risk that rescoring stores. -/
def UpdateAgrees (now now' : Time) (db : Database) (i : ℕ) : Prop :=
  ∀ db', updateAsset now db i {} = .ok db' →
    (db'.assets.find i).map storedRisk = ((rescoreAssets now' db).assets.find i).map storedRisk

/-- Rescoring right after an enrichment leaves the risk as it is. -/
def EnrichmentAgrees (now now' : Time) (db : Database) (i : ℕ) (answer : Answer) : Prop :=
  ∀ db', enrichOneAsset now (fun _ => .ok answer) db i = .ok db' →
    ((rescoreAssets now' db').assets.find i).map storedRisk =
      (db'.assets.find i).map storedRisk

/-- The active links of the asset cover its suppressed and remediated ones. -/
def InactiveCovered (db : Database) (i : ℕ) : Prop :=
  (db.assets.find i).isSome → Covers (activeEvidence db i) (inactiveEvidence db i)

/-- An asset without CPEs has the risk of its active links stored; for any other the answer
and the active links after it cover each other. -/
def AnswerCovered (db : Database) (i : ℕ) (answer : Answer) : Prop :=
  ∀ a, db.assets.find i = some a →
    if a.cpe.getD [] = [] then
      storeRisk a (riskOf a.toAssetColumns (activeEvidence db i)) = a
    else
      Covers (answer.rows.map answerEvidence) (evidenceAfter db i answer) ∧
        Covers (evidenceAfter db i answer) (answer.rows.map answerEvidence)

theorem storedRisk_rescoreAssets {now : Time} {db : Database} {i : ℕ} {a : Asset}
    (ha : db.assets.find i = some a) :
    ((rescoreAssets now db).assets.find i).map storedRisk =
      some (storedRisk (storeRisk a (riskOf a.toAssetColumns (activeEvidence db i)))) := by
  obtain ⟨-, rfl⟩ := Table.find_eq_some.mp ha
  simp [find_rescoreAssets, ha, rescored]

/-- The row that replaces a stored asset is found in its place. -/
theorem find_put_flushed {db : Database} {i : ℕ} {a : Asset} (ha : db.assets.find i = some a)
    (now : Time) (r : Risk) :
    (db.assets.put (flushUpdate now a (storeRisk a r))).find i =
      some (flushUpdate now a (storeRisk a r)) := by
  have hai : a.id = i := (Table.find_eq_some.mp ha).2
  have hid : (flushUpdate now a (storeRisk a r)).id = i :=
    (flushUpdate_id (storeRisk_id a r)).trans hai
  have hput := Table.find_put_self (t := db.assets) (r := flushUpdate now a (storeRisk a r))
    (by rw [hid, ha]; rfl)
  rwa [hid] at hput

theorem updateAgrees_iff (now now' : Time) (db : Database) (i : ℕ) :
    UpdateAgrees now now' db i ↔ InactiveCovered db i := by
  cases ha : db.assets.find i with
  | none => simp [UpdateAgrees, InactiveCovered, updateAsset, ha]
  | some a =>
    simp only [UpdateAgrees, InactiveCovered, updateAsset_empty ha, Except.ok.injEq, forall_eq',
      ha, Option.isSome_some, forall_const]
    rw [find_put_flushed ha, storedRisk_rescoreAssets ha, Option.map_some,
      storedRisk_flushUpdate, Option.some.injEq, storedRisk_storeRisk_inj, riskOf_linked_iff]

/-- An answer gives the risk that rescoring computes after it exactly when its CVEs and the
active links after it cover each other. -/
theorem riskOf_answer_iff (now : Time) (db : Database) (a : Asset) (answer : Answer) :
    riskOf a.toAssetColumns (activeEvidence (storeAnswer now db a answer) a.id) =
        riskOf a.toAssetColumns (answer.rows.map answerEvidence) ↔
      Covers (answer.rows.map answerEvidence) (evidenceAfter db a.id answer) ∧
        Covers (evidenceAfter db a.id answer) (answer.rows.map answerEvidence) := by
  rw [riskOf_eq_iff a.toAssetColumns (by simp [activeEvidence, rescoreEvidence])
    (by simp [answerEvidence])]
  have hmem := mem_activeEvidence_storeAnswer now db a answer
  have hto : Covers (activeEvidence (storeAnswer now db a answer) a.id)
      (evidenceAfter db a.id answer) := .of_subset fun e he => (hmem e).mpr he
  have hfrom : Covers (evidenceAfter db a.id answer)
      (activeEvidence (storeAnswer now db a answer) a.id) := .of_subset fun e he => (hmem e).mp he
  constructor
  · rintro ⟨h, h'⟩
    exact ⟨h'.trans hto, hfrom.trans h⟩
  · rintro ⟨h, h'⟩
    exact ⟨hto.trans h', h.trans hfrom⟩

theorem enrichmentAgrees_iff (now now' : Time) (db : Database) (i : ℕ) (answer : Answer) :
    EnrichmentAgrees now now' db i answer ↔ AnswerCovered db i answer := by
  cases ha : db.assets.find i with
  | none => simp [EnrichmentAgrees, AnswerCovered, enrichOneAsset, ha]
  | some a =>
    obtain ⟨-, rfl⟩ := Table.find_eq_some.mp ha
    simp only [EnrichmentAgrees, AnswerCovered, enrichOneAsset, ha, Option.some.injEq, forall_eq']
    split
    · simp only [Except.ok.injEq, forall_eq']
      rw [storedRisk_rescoreAssets ha, ha, Option.map_some, Option.some.injEq, storeRisk_eq_self,
        storedRisk_storeRisk, eq_comm]
    · simp only [Except.ok.injEq, forall_eq']
      have hfind : (storeAnswer now db a answer).assets.find a.id = some (flushUpdate now a
          (storeRisk a (riskOf a.toAssetColumns (answer.rows.map answerEvidence)))) := by
        rw [assets_storeAnswer]
        exact find_put_flushed ha now _
      rw [storedRisk_rescoreAssets hfind, hfind, Option.map_some, storedRisk_flushUpdate,
        Option.some.injEq, storedRisk_storeRisk_inj, riskOf_flushUpdate, riskOf_answer_iff]

/-- The paths store one risk exactly when the links that rescoring leaves out are covered by
those it counts, and the answer of the feeds and the active links cover each other. -/
theorem risk_paths_agree_iff (now now' : Time) (db : Database) (i : ℕ) (answer : Answer) :
    (UpdateAgrees now now' db i ↔ InactiveCovered db i) ∧
      (EnrichmentAgrees now now' db i answer ↔ AnswerCovered db i answer) :=
  ⟨updateAgrees_iff now now' db i, enrichmentAgrees_iff now now' db i answer⟩

/-- An asset with a suppressed CVE that is exploited and an active one that is not. -/
def suppressedKev : Database where
  assets := ⟨[{ Reconciler.newColumns 0 1 "manual" { cpe := .value ["cpe:2.3:a:x:y"] } "db"
      "Database" with sources := some ["manual"] }], by decide⟩
  cves := ⟨[
    { id := "CVE-2024-0001", cvssV3 := some 7, cvssVector := none, epssScore := some 0,
      epssPercentile := some 0, kev := true, description := none, affectedCpes := [],
      lastSynced := 0 },
    { id := "CVE-2024-0002", cvssV3 := some 10, cvssVector := none, epssScore := some 0,
      epssPercentile := some 0, kev := false, description := none, affectedCpes := [],
      lastSynced := 0 }], by decide⟩
  assetCves := ⟨[
    { assetId := 1, cveId := "CVE-2024-0001", matchedCpe := none, suppressed := true },
    { assetId := 1, cveId := "CVE-2024-0002", matchedCpe := none }], by decide⟩
  alerts := []

/-- An empty update of that asset counts the suppressed CVE, and an empty answer of the feeds
forgets the active one. -/
theorem risk_paths_disagree :
    ¬ UpdateAgrees 0 0 suppressedKev 1 ∧ ¬ EnrichmentAgrees 0 0 suppressedKev 1 .empty := by
  constructor
  · intro h
    exact absurd (h _ rfl) (by decide +kernel)
  · intro h
    exact absurd (h _ rfl) (by decide +kernel)

end Kepryx.RiskPaths
