import Kepryx.RiskWriters

/-!
# What an outage of a feed costs

A failed request is answered by an empty catalog or by zeros, and the upsert stores these
like any other answer. So an outage leaves the stored facts alone exactly when there was
nothing to lose.
-/
namespace Kepryx.FeedOutage
open Kepryx.Models Kepryx.Results Kepryx.Tables Kepryx.CveFeeds Kepryx.RiskWriters

/-- The enrichment of one asset by a fresh enricher. -/
def enrichmentRun (now : Time) (F : Feeds) (db : Database) (i : ℕ) : Except Failure Database :=
  enrichOneAsset now (fun cpes => (enrichAsset now F .fresh cpes).map Prod.snd) db i

/-- The catalog request did not give a catalog. -/
def KevFailed (F : Feeds) : Prop := ∀ cveIDs, F.kev ≠ .catalog cveIDs

/-- A batch that covers the CVE failed. -/
def EpssFailed (F : Feeds) (cpes : List String) (x : String) : Prop :=
  ∃ k, CoveredBy F cpes k x ∧ F.epss k (batch (cveIds F cpes) k) = none

/-- Without the catalog no CVE loses its KEV flag, and without its batch no CVE changes its
EPSS values. -/
structure Harmless (F : Feeds) (cpes : List String) (db db' : Database) : Prop where
  kev : KevFailed F → ∀ x cve, db.cves.find x = some cve → cve.kev →
    ∃ cve', db'.cves.find x = some cve' ∧ cve'.kev
  epss : ∀ x, EpssFailed F cpes x → ∀ cve, db.cves.find x = some cve →
    ∃ cve', db'.cves.find x = some cve' ∧ cve'.epssScore = cve.epssScore ∧
      cve'.epssPercentile = cve.epssPercentile

/-- The run gets as far as storing what it was answered, and then no CVE that NVD returned is
stored as exploited while the catalog request fails, and the CVEs of a failed batch are
stored with zeros. -/
structure NothingToLose (F : Feeds) (cpes : List String) (db : Database) : Prop where
  kev : F.kev = .httpError → ∀ x ∈ cveIds F cpes, ∀ cve, db.cves.find x = some cve →
    cve.kev = false
  epss : F.kev ≠ .malformed → ∀ x, EpssFailed F cpes x → ∀ cve, db.cves.find x = some cve →
    cve.epssScore = some 0 ∧ cve.epssPercentile = some 0

theorem EpssFailed.mem {F : Feeds} {cpes : List String} {x : String} (h : EpssFailed F cpes x) :
    x ∈ cveIds F cpes := by
  obtain ⟨k, ⟨-, hx⟩, -⟩ := h
  exact List.mem_of_mem_drop (List.mem_of_mem_take hx)

theorem EpssFailed.lookup {F : Feeds} {cpes : List String} {x : String}
    (h : EpssFailed F cpes x) : (getEpssScores F (cveIds F cpes)).lookup x = none := by
  obtain ⟨k, ⟨-, hx⟩, hfail⟩ := h
  exact lookup_getEpssScores (cveIds_nodup F cpes) hfail hx

/-- A fresh enricher has no catalog to fall back on. -/
theorem loadKevCatalog_fresh (now : Time) (response : KevResponse) :
    loadKevCatalog now .fresh false response = match response with
      | .catalog cveIDs => .ok ⟨cveIDs, some now⟩
      | .httpError => .ok .fresh
      | .malformed => .error .malformedCatalog := by
  cases response <;> rfl

/-- An answer that is stored spares the facts exactly when there is nothing to lose. -/
theorem harmless_iff {now : Time} {F : Feeds} {cpes : List String} {e : Enricher}
    {answer : Answer} (hanswer : enrichAsset now F .fresh cpes = .ok (e, answer))
    (db : Database) (a : Asset) :
    Harmless F cpes db (storeAnswer now db a answer) ↔ NothingToLose F cpes db := by
  obtain ⟨hload, hmissing, hfound⟩ := enrichAsset_ok hanswer
  rw [loadKevCatalog_fresh] at hload
  have hcve : ∀ x cve, db.cves.find x = some cve → x ∈ cveIds F cpes →
      ∃ c, Scored F cpes e.kevCache x c ∧
        (storeAnswer now db a answer).cves.find x = some (upsertedCve now (some cve) c) := by
    intro x cve hx hmem
    obtain ⟨c, hc, hscored⟩ := hfound x hmem
    exact ⟨c, hscored, by rw [find_cve_storeAnswer, hc, hx]⟩
  have hkept : ∀ x, x ∉ cveIds F cpes →
      (storeAnswer now db a answer).cves.find x = db.cves.find x := by
    intro x hx
    rw [find_cve_storeAnswer, hmissing x hx]
  constructor
  · intro h
    refine ⟨fun herr x hx cve hfind => ?_, fun _ x hfail cve hfind => ?_⟩
    · by_contra hkev
      obtain ⟨c, hscored, hstored⟩ := hcve x cve hfind hx
      have hfailed : KevFailed F := by simp [KevFailed, herr]
      obtain ⟨cve', hcve', hkev'⟩ := h.kev hfailed x cve hfind (by simpa using hkev)
      rw [hstored] at hcve'
      cases hcve'
      rw [herr] at hload
      cases hload
      have hfalse : c.kev = false := hscored.kev
      exact absurd hkev' (by simp [upsertedCve, hfalse])
    · obtain ⟨c, hscored, hstored⟩ := hcve x cve hfind hfail.mem
      obtain ⟨cve', hcve', hs, hp⟩ := h.epss x hfail cve hfind
      rw [hstored] at hcve'
      cases hcve'
      have hzero := hscored.epssScore
      have hzero' := hscored.epssPercentile
      rw [hfail.lookup] at hzero hzero'
      exact ⟨by rw [← hs]; exact congrArg some hzero, by rw [← hp]; exact congrArg some hzero'⟩
  · intro h
    refine ⟨fun hfailed x cve hfind hkev => ?_, fun x hfail cve hfind => ?_⟩
    · by_cases hx : x ∈ cveIds F cpes
      · cases hresp : F.kev with
        | catalog cveIDs => exact absurd hresp (hfailed cveIDs)
        | httpError => simp [h.kev hresp x hx cve hfind] at hkev
        | malformed => simp [hresp] at hload
      · exact ⟨cve, (hkept x hx).trans hfind, hkev⟩
    · have hnot : F.kev ≠ .malformed := by
        intro hresp
        simp [hresp] at hload
      obtain ⟨c, hscored, hstored⟩ := hcve x cve hfind hfail.mem
      obtain ⟨hs, hp⟩ := h.epss hnot x hfail cve hfind
      have hzero := hscored.epssScore
      have hzero' := hscored.epssPercentile
      rw [hfail.lookup] at hzero hzero'
      refine ⟨_, hstored, ?_, ?_⟩
      · rw [hs]
        exact congrArg some hzero
      · rw [hp]
        exact congrArg some hzero'

/-- Without CPEs there is no request, and nothing is at stake. -/
theorem nothingToLose_nil (F : Feeds) (db : Database) : NothingToLose F [] db :=
  ⟨fun _ _ hx => (List.not_mem_nil hx).elim,
    fun _ _ hfail => (List.not_mem_nil hfail.mem).elim⟩

/-- The enrichment of an asset leaves the stored facts of a failed feed alone exactly when
there was nothing to lose: no CVE returned by NVD stored as exploited, and only zeros stored
for the CVEs of the failed batches. -/
theorem outage_harmless_iff (now : Time) (F : Feeds) (db : Database) (i : ℕ) :
    (∀ a, db.assets.find i = some a → ∀ db', enrichmentRun now F db i = .ok db' →
        Harmless F (a.cpe.getD []) db db') ↔
      ∀ a, db.assets.find i = some a → NothingToLose F (a.cpe.getD []) db := by
  refine forall₂_congr fun a ha => ?_
  unfold enrichmentRun enrichOneAsset
  simp only [ha]
  split
  · rename_i hnil
    rw [hnil]
    simp only [nothingToLose_nil, iff_true]
    rintro db' h
    cases h
    exact ⟨fun _ x cve hfind hkev => ⟨cve, hfind, hkev⟩,
      fun x _ cve hfind => ⟨cve, hfind, rfl, rfl⟩⟩
  · cases hrun : enrichAsset now F .fresh (a.cpe.getD []) with
    | ok p =>
      obtain ⟨e, answer⟩ := p
      simpa [Except.map] using harmless_iff hrun db a
    | error err =>
      have hresp : F.kev = .malformed := by
        unfold enrichAsset at hrun
        rw [loadKevCatalog_fresh] at hrun
        cases hresp : F.kev <;> simp [hresp] at hrun
        rfl
      simp only [Except.map, reduceCtorEq, false_imp_iff, implies_true, true_iff]
      exact ⟨fun h => absurd (hresp.symm.trans h) (by simp), fun h => absurd hresp h⟩

/-- An asset with a CVE that is stored as exploited and likely to be. -/
def exploited : Database where
  assets := ⟨[{ Reconciler.newColumns 0 1 "manual" { cpe := .value ["cpe:2.3:a:x:y"] } "srv"
      "Server" with sources := some ["manual"] }], by decide⟩
  cves := ⟨[
    { id := "CVE-2024-0001", cvssV3 := some 9, cvssVector := none, epssScore := some (9 / 10),
      epssPercentile := some (99 / 100), kev := true, description := none, affectedCpes := [],
      lastSynced := 0 }], by decide⟩
  assetCves := .empty
  alerts := []

/-- NVD answers, the catalog and EPSS do not. -/
def nvdOnly : Feeds where
  kev := .httpError
  nvd := fun _ _ => some [{ id := some "CVE-2024-0001" }]
  epss := fun _ _ => none
  epss_requested := by simp

/-- The enrichment of that asset then erases the KEV flag and the EPSS values. -/
theorem outage_erases :
    ¬ ∀ a, exploited.assets.find 1 = some a → ∀ db', enrichmentRun 0 nvdOnly exploited 1 = .ok db' →
      Harmless nvdOnly (a.cpe.getD []) exploited db' := by
  intro h
  have hfailed : KevFailed nvdOnly := by simp [KevFailed, nvdOnly]
  obtain ⟨cve, hcve, hkev⟩ := (h _ rfl _ rfl).kev hfailed "CVE-2024-0001" _ rfl rfl
  have hlost : (some cve).map CVE.kev = some false := by
    rw [← hcve]
    decide +kernel
  simp [hkev] at hlost

end Kepryx.FeedOutage
