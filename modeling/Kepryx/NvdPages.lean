import Kepryx.EnrichmentMerge
import Kepryx.RiskPaths

/-!
# The pages of NVD

`get_cves_for_cpe` asks for one page of a hundred records and reads no `totalResults`. So the
records of a CPE count as far as that page shows them, those of another CPE of the asset show
them, or an earlier run has linked them.
-/
namespace Kepryx.NvdPages
open Kepryx.Models Kepryx.Results Kepryx.Tables Kepryx.CveFeeds Kepryx.RiskEngine
open Kepryx.RiskWriters Kepryx.EnrichmentMerge Kepryx.RiskPaths

/-! ## The services -/

/-- The answer of NVD to a query. -/
structure Page where
  totalResults : ℕ
  vulnerabilities : List NvdCve
  deriving DecidableEq, Repr

/-- What NVD holds and how it serves it: from `startIndex` on, and at most `resultsPerPage`
records. A CVE has one record. -/
structure Nvd where
  records : String → List NvdCve
  serve : (cpe : String) → (startIndex resultsPerPage : ℕ) → List NvdCve
  serve_prefix : ∀ cpe startIndex resultsPerPage,
    serve cpe startIndex resultsPerPage <+: (records cpe).drop startIndex
  serve_length : ∀ cpe startIndex resultsPerPage,
    (serve cpe startIndex resultsPerPage).length ≤ resultsPerPage
  readable : ∀ cpe, ∀ c ∈ records cpe, ∃ id, c.id = some id ∧ id ≠ ""
  one_record : ∀ cpe cpe', ∀ c ∈ records cpe, ∀ c' ∈ records cpe', c.id = c'.id → c = c'

def Nvd.query (S : Nvd) (cpe : String) (startIndex resultsPerPage : ℕ) : Page where
  totalResults := (S.records cpe).length
  vulnerabilities := S.serve cpe startIndex resultsPerPage

/-- The one request of `get_cves_for_cpe`; without a `startIndex` it is for the first page. -/
def firstPage (S : Nvd) (cpe : String) : List NvdCve := (S.query cpe 0 100).vulnerabilities

/-- The three services, each of which answers every request. -/
structure Services where
  nvd : Nvd
  epss : String → Option (ℚ × ℚ)
  kev : List String

/-- What EPSS says about a CVE of a request. -/
def epssItem (S : Services) (x : String) : Option EpssItem :=
  (S.epss x).map fun p => .scored x p.1 p.2

theorem scored_mem_epssItems {S : Services} {ids : List String} {c : String} {s p : ℚ}
    (h : EpssItem.scored c s p ∈ ids.filterMap (epssItem S)) : c ∈ ids := by
  obtain ⟨x, hx, hitem⟩ := List.mem_filterMap.mp h
  obtain ⟨q, -, heq⟩ := Option.map_eq_some_iff.mp hitem
  cases heq
  exact hx

/-- The answers that the enricher gets. -/
def Services.feeds (S : Services) : Feeds where
  kev := .catalog S.kev
  nvd _ cpe := some (firstPage S.nvd cpe)
  epss _ ids := some (ids.filterMap (epssItem S))
  epss_requested k ids items h c s p hmem := by
    cases h
    exact scored_mem_epssItems hmem

/-- `_enrich_one_asset` with these services. -/
def enrich (now : Time) (S : Services) (e : Enricher) (db : Database) (i : ℕ) :
    Except Failure Database :=
  enrichOneAsset now (fun cpes => (enrichAsset now S.feeds e cpes).map Prod.snd) db i

/-! ## What is complete and when -/

/-- The catalog that the enricher reads: the cached one while it is fresh. -/
def catalogOf (now : Time) (S : Services) (e : Enricher) : List String :=
  if e.kevCachedAt.any (fun t => now - t < hours 6) then e.kevCache else S.kev

/-- What the services say about a record. -/
def evidenceOf (now : Time) (S : Services) (e : Enricher) (c : NvdCve) : Option CveEvidence :=
  (readCve c).map fun c =>
    { cvssV3 := c.cvssV3
      epss := some (((S.epss c.id).getD (0, 0)).1)
      kev := decide (c.id ∈ catalogOf now S e) }

/-- Every record of the CPEs. -/
def recordsOf (S : Nvd) (cpes : List String) : List NvdCve := cpes.flatMap S.records

/-- The records that the first pages show. -/
def shownOf (S : Nvd) (cpes : List String) : List NvdCve := cpes.flatMap (firstPage S)

/-- Nothing is dropped: every record is linked, and the stored risk is that of all of them. -/
structure Complete (now : Time) (S : Services) (e : Enricher) (a : Asset) (db' : Database) :
    Prop where
  linked : ∀ c ∈ recordsOf S.nvd (a.cpe.getD []), ∀ x, c.id = some x →
    (db'.assetCves.find (a.id, x)).isSome
  risk : (db'.assets.find a.id).map storedRisk = some (storedRisk (storeRisk a
    (riskOf a.toAssetColumns ((recordsOf S.nvd (a.cpe.getD [])).filterMap (evidenceOf now S e)))))

/-- Every record that no first page shows is linked already, none is worse than the worst one
shown, and if one is known to be exploited then so is one that is shown. -/
structure PagesSuffice (now : Time) (S : Services) (e : Enricher) (db : Database) (a : Asset) :
    Prop where
  linked : ∀ c ∈ recordsOf S.nvd (a.cpe.getD []), c ∉ shownOf S.nvd (a.cpe.getD []) →
    ∀ x, c.id = some x → (db.assetCves.find (a.id, x)).isSome
  covered : Covers ((shownOf S.nvd (a.cpe.getD [])).filterMap (evidenceOf now S e))
    ((recordsOf S.nvd (a.cpe.getD [])).filterMap (evidenceOf now S e))

/-! ## What the enricher answers -/

theorem firstPage_subset (S : Nvd) (cpe : String) : firstPage S cpe ⊆ S.records cpe :=
  (S.serve_prefix cpe 0 100).subset

theorem shownOf_subset (S : Nvd) (cpes : List String) : shownOf S cpes ⊆ recordsOf S cpes := by
  intro c hc
  obtain ⟨cpe, hcpe, hc⟩ := List.mem_flatMap.mp hc
  exact List.mem_flatMap.mpr ⟨cpe, hcpe, firstPage_subset S cpe hc⟩

theorem feeds_wellFormed (S : Services) : WellFormed S.feeds := by
  refine ⟨nofun, fun k cpe cves h c hc => ?_, fun k ids items h hmem => ?_⟩
  · cases h
    exact S.nvd.readable cpe c (firstPage_subset S.nvd cpe hc)
  · cases h
    obtain ⟨x, -, hitem⟩ := List.mem_filterMap.mp hmem
    obtain ⟨p, -, heq⟩ := Option.map_eq_some_iff.mp hitem
    cases heq

/-- A record is in an answer if and only if a first page shows it. -/
theorem contains_iff {S : Services} {cpes : List String} {c : NvdCve} {x : String}
    (hc : c ∈ recordsOf S.nvd cpes) (hx : c.id = some x) :
    (∃ k cpe, Contains S.feeds cpes k cpe x) ↔ c ∈ shownOf S.nvd cpes := by
  obtain ⟨cpe₀, -, hc⟩ := List.mem_flatMap.mp hc
  constructor
  · rintro ⟨k, cpe, hcpe, cves, h, c', hc', hx'⟩
    cases h
    have hrecord := firstPage_subset S.nvd cpe hc'
    obtain rfl := S.nvd.one_record cpe₀ cpe c hc c' hrecord (hx.trans hx'.symm)
    exact List.mem_flatMap.mpr ⟨cpe, List.mem_of_getElem? hcpe, hc'⟩
  · intro hshown
    obtain ⟨cpe, hcpe, hc⟩ := List.mem_flatMap.mp hshown
    obtain ⟨k, hk⟩ := List.mem_iff_getElem?.mp hcpe
    exact ⟨k, cpe, hk, _, rfl, c, hc, hx⟩

theorem findSome_epssItems (S : Services) (x : String) (ids : List String) :
    (ids.filterMap (epssItem S)).findSome? (entryFor x) = if x ∈ ids then S.epss x else none := by
  induction ids with
  | nil => rfl
  | cons y ids ih =>
    by_cases hy : y = x
    · subst hy
      cases hs : S.epss y with
      | none => simp [epssItem, ih, hs]
      | some p => simp [epssItem, entryFor, hs]
    · have hyx : ¬ x = y := Ne.symm hy
      cases hs : S.epss y with
      | none => simp [epssItem, ih, hs, hyx]
      | some p =>
        have hother : entryFor x (.scored y p.1 p.2) = none := if_neg hy
        simp [epssItem, ih, hs, hyx, hother]

/-- The answer about a CVE of a request is what EPSS says about it. -/
theorem mention_epssItems {S : Services} {ids : List String} {x : String} (hx : x ∈ ids) :
    mention (ids.filterMap (epssItem S)) x = S.epss x := by
  rw [mention, ← List.filterMap_reverse, findSome_epssItems, if_pos (List.mem_reverse.mpr hx)]

theorem loadKevCatalog_feeds {now : Time} {S : Services} {e e' : Enricher}
    (h : loadKevCatalog now e false S.feeds.kev = .ok e') : e'.kevCache = catalogOf now S e := by
  unfold loadKevCatalog at h
  rw [Bool.not_false, Bool.true_and] at h
  unfold catalogOf
  split at h
  · rename_i hfresh
    cases h
    rw [if_pos hfresh]
  · rename_i hstale
    cases h
    rw [if_neg hstale]

section Answer
variable {now : Time} {S : Services} {e e' : Enricher} {cpes : List String} {answer : Answer}

/-- What is stored about a row of an answer is what the services say about its record. -/
theorem evidenceOf_row (h : enrichAsset now S.feeds e cpes = .ok (e', answer)) {c : EnrichedCve}
    (hc : c ∈ answer.rows) :
    ∃ d ∈ shownOf S.nvd cpes, d.id = some c.id ∧
      evidenceOf now S e d = some (answerEvidence c) := by
  have hmerges := enrichAsset_merges (feeds_wellFormed S) h
  obtain ⟨⟨k, ⟨⟨hcpe, -⟩, -⟩, hfind⟩, ⟨j, ⟨hcovered, -⟩, -, hscores⟩, hkev⟩ := hmerges.joined c hc
  obtain ⟨d, hd, hread⟩ := List.mem_filterMap.mp (List.mem_of_find?_eq_some hfind)
  have hid : d.id = some c.id := by
    obtain ⟨id, hid, heq⟩ := Option.map_eq_some_iff.mp hread
    rw [(Option.filter_eq_some_iff.mp hid).1, ← heq]
  refine ⟨d, List.mem_flatMap.mpr ⟨_, List.mem_of_getElem? hcpe, hd⟩, hid, ?_⟩
  have hresponse : scoresIn (epssResponse S.feeds cpes j) c.id = (S.epss c.id).getD (0, 0) :=
    congrArg (fun m => m.getD (0, 0)) (mention_epssItems hcovered.2)
  rw [hresponse] at hscores
  rw [evidenceOf, hread, Option.map_some]
  simp only [answerEvidence, hkev, loadKevCatalog_feeds (enrichAsset_ok h).1, ← hscores]

/-- The answer says what the services say about the records of the first pages. -/
theorem mem_answerEvidence (h : enrichAsset now S.feeds e cpes = .ok (e', answer))
    (v : CveEvidence) : v ∈ answer.rows.map answerEvidence ↔
      v ∈ (shownOf S.nvd cpes).filterMap (evidenceOf now S e) := by
  constructor
  · intro hv
    obtain ⟨c, hc, rfl⟩ := List.mem_map.mp hv
    obtain ⟨d, hd, -, hev⟩ := evidenceOf_row h hc
    exact List.mem_filterMap.mpr ⟨d, hd, hev⟩
  · intro hv
    obtain ⟨d, hd, hev⟩ := List.mem_filterMap.mp hv
    have hrecord := shownOf_subset S.nvd cpes hd
    obtain ⟨cpe, -, hcpe⟩ := List.mem_flatMap.mp hrecord
    obtain ⟨x, hx, -⟩ := S.nvd.readable cpe d hcpe
    have hmem := (enrichAsset_merges (feeds_wellFormed S) h).ids x |>.mpr
      ((contains_iff hrecord hx).mpr hd)
    obtain ⟨c, hc, rfl⟩ := List.mem_map.mp hmem
    obtain ⟨d', hd', hx', hev'⟩ := evidenceOf_row h hc
    obtain ⟨cpe', -, hcpe'⟩ := List.mem_flatMap.mp (shownOf_subset S.nvd cpes hd')
    obtain rfl := S.nvd.one_record cpe cpe' d hcpe d' hcpe' (hx.trans hx'.symm)
    rw [hev', Option.some.injEq] at hev
    exact List.mem_map.mpr ⟨c, hc, hev⟩

/-- After the answer is stored, a record is linked if a first page shows it or if it was linked
before. -/
theorem linked_iff (h : enrichAsset now S.feeds e cpes = .ok (e', answer)) (db : Database)
    (a : Asset) {c : NvdCve} {x : String} (hc : c ∈ recordsOf S.nvd cpes) (hx : c.id = some x) :
    ((storeAnswer now db a answer).assetCves.find (a.id, x)).isSome ↔
      (db.assetCves.find (a.id, x)).isSome ∨ c ∈ shownOf S.nvd cpes := by
  have hfind : (answer.find x).isSome ↔ x ∈ answer.rows.map (·.id) := by
    rw [Table.find, List.find?_isSome, List.mem_map]
    simp only [decide_eq_true_eq]
  rw [find_link_storeAnswer, Option.isSome_or, Bool.or_eq_true, Option.isSome_map, hfind,
    (enrichAsset_merges (feeds_wellFormed S) h).ids x, contains_iff hc hx]

end Answer

theorem evidenceOf_plain {now : Time} {S : Services} {e : Enricher} {cs : List NvdCve} :
    ∀ v ∈ cs.filterMap (evidenceOf now S e), v.kevRansomware = false := by
  intro v hv
  obtain ⟨c, -, hev⟩ := List.mem_filterMap.mp hv
  obtain ⟨d, -, rfl⟩ := Option.map_eq_some_iff.mp hev
  rfl

/-- An answer is complete exactly when the first pages suffice. -/
theorem complete_storeAnswer_iff {now : Time} {S : Services} {e e' : Enricher} {db : Database}
    {a : Asset} {answer : Answer} (ha : db.assets.find a.id = some a)
    (h : enrichAsset now S.feeds e (a.cpe.getD []) = .ok (e', answer)) :
    Complete now S e a (storeAnswer now db a answer) ↔ PagesSuffice now S e db a := by
  have hrow : ((storeAnswer now db a answer).assets.find a.id).map storedRisk =
      some (storedRisk (storeRisk a
        (riskOf a.toAssetColumns (answer.rows.map answerEvidence)))) := by
    rw [assets_storeAnswer, find_put_flushed ha, Option.map_some, storedRisk_flushUpdate]
  have hshown : Covers (answer.rows.map answerEvidence)
      ((shownOf S.nvd (a.cpe.getD [])).filterMap (evidenceOf now S e)) :=
    .of_subset fun v hv => (mem_answerEvidence h v).mpr hv
  have hshown' : Covers ((shownOf S.nvd (a.cpe.getD [])).filterMap (evidenceOf now S e))
      (answer.rows.map answerEvidence) := .of_subset fun v hv => (mem_answerEvidence h v).mp hv
  have hall : Covers ((recordsOf S.nvd (a.cpe.getD [])).filterMap (evidenceOf now S e))
      ((shownOf S.nvd (a.cpe.getD [])).filterMap (evidenceOf now S e)) :=
    .of_subset (List.filterMap_subset _ (shownOf_subset S.nvd _))
  have hrisk : riskOf a.toAssetColumns (answer.rows.map answerEvidence) =
      riskOf a.toAssetColumns
        ((recordsOf S.nvd (a.cpe.getD [])).filterMap (evidenceOf now S e)) ↔
      Covers ((shownOf S.nvd (a.cpe.getD [])).filterMap (evidenceOf now S e))
        ((recordsOf S.nvd (a.cpe.getD [])).filterMap (evidenceOf now S e)) := by
    rw [riskOf_eq_iff a.toAssetColumns (by simp [answerEvidence]) evidenceOf_plain]
    exact ⟨fun hcov => hshown'.trans hcov.1, fun hcov => ⟨hshown.trans hcov, hall.trans hshown'⟩⟩
  constructor
  · intro hcomplete
    refine ⟨fun c hc hnot x hx => ?_, ?_⟩
    · exact ((linked_iff h db a hc hx).mp (hcomplete.linked c hc x hx)).resolve_right hnot
    · have hstored := hcomplete.risk
      rw [hrow, Option.some.injEq, storedRisk_storeRisk_inj] at hstored
      exact hrisk.mp hstored
  · intro hpages
    refine ⟨fun c hc x hx => (linked_iff h db a hc hx).mpr ?_, ?_⟩
    · by_cases hmem : c ∈ shownOf S.nvd (a.cpe.getD [])
      · exact .inr hmem
      · exact .inl (hpages.linked c hc hmem x hx)
    · rw [hrow, Option.some.injEq, storedRisk_storeRisk_inj]
      exact hrisk.mpr hpages.covered

/-- The enrichment of an asset with CPEs gets as far as storing an answer. -/
theorem enrich_eq_storeAnswer (now : Time) (S : Services) (e : Enricher) {db : Database}
    {a : Asset} (ha : db.assets.find a.id = some a) (hcpe : a.cpe.getD [] ≠ []) :
    ∃ e' answer, enrichAsset now S.feeds e (a.cpe.getD []) = .ok (e', answer) ∧
      enrich now S e db a.id = .ok (storeAnswer now db a answer) := by
  obtain ⟨e', answer, hrun⟩ := exists_enrichAsset now (feeds_wellFormed S) e (a.cpe.getD [])
  refine ⟨e', answer, hrun, ?_⟩
  unfold enrich enrichOneAsset
  simp only [ha, if_neg hcpe, hrun]
  rfl

/-- An asset without links gets a complete answer only if its CPEs have no more records than fit
on their first pages. -/
theorem length_recordsOf_le {now : Time} {S : Services} {e : Enricher} {db : Database} {a : Asset}
    (h : PagesSuffice now S e db a) (hnew : ∀ x, db.assetCves.find (a.id, x) = none)
    (hnodup : (recordsOf S.nvd (a.cpe.getD [])).Nodup) :
    (recordsOf S.nvd (a.cpe.getD [])).length ≤ 100 * (a.cpe.getD []).length := by
  have hsubset : recordsOf S.nvd (a.cpe.getD []) ⊆ shownOf S.nvd (a.cpe.getD []) := by
    intro c hc
    by_contra hnot
    obtain ⟨cpe, -, hcpe⟩ := List.mem_flatMap.mp hc
    obtain ⟨x, hx, -⟩ := S.nvd.readable cpe c hcpe
    have hlinked := h.linked c hc hnot x hx
    rw [hnew] at hlinked
    cases hlinked
  have hpages : ∀ cpes, (shownOf S.nvd cpes).length ≤ 100 * cpes.length := by
    intro cpes
    induction cpes with
    | nil => simp [shownOf]
    | cons cpe cpes ih =>
      have hpage : (firstPage S.nvd cpe).length ≤ 100 := S.nvd.serve_length cpe 0 100
      rw [shownOf, List.flatMap_cons, List.length_append, List.length_cons]
      rw [shownOf] at ih
      omega
  exact (List.subperm_of_subset hnodup hsubset).length_le.trans (hpages _)

/-- Enrichment links every CVE of the CPEs and scores all of them exactly when the records beyond
the first pages are linked already and none of them would change the score. -/
theorem enrich_complete_iff (now : Time) (S : Services) (e : Enricher) {db : Database} {a : Asset}
    (ha : db.assets.find a.id = some a) (hcpe : a.cpe.getD [] ≠ []) :
    (∃ db', enrich now S e db a.id = .ok db' ∧ Complete now S e a db') ↔
      PagesSuffice now S e db a := by
  obtain ⟨e', answer, hrun, hstore⟩ := enrich_eq_storeAnswer now S e ha hcpe
  rw [hstore, ← complete_storeAnswer_iff ha hrun]
  constructor
  · rintro ⟨db', h, hcomplete⟩
    cases h
    exact hcomplete
  · exact fun hcomplete => ⟨_, rfl, hcomplete⟩

/-- An asset without links. -/
def crowdedAsset : Asset :=
  { Reconciler.newColumns 0 1 "manual" { cpe := .value ["cpe:2.3:a:x:y"] } "srv" "Server" with
    sources := some ["manual"] }

def crowded : Database where
  assets := ⟨[crowdedAsset], List.nodup_singleton _⟩
  cves := .empty
  assetCves := .empty
  alerts := []

/-- Every CPE has a hundred and one records. -/
def hundredAndOne : List NvdCve := (List.range 101).map fun k => { id := some (cveName k) }

def crowdedNvd : Nvd where
  records _ := hundredAndOne
  serve _ startIndex resultsPerPage := (hundredAndOne.drop startIndex).take resultsPerPage
  serve_prefix _ _ _ := List.take_prefix _ _
  serve_length _ _ _ := List.length_take_le _ _
  readable := by
    intro cpe c hc
    obtain ⟨k, -, rfl⟩ := List.mem_map.mp hc
    exact ⟨cveName k, rfl, cveName_ne_empty k⟩
  one_record := by
    intro cpe cpe' c hc c' hc' h
    obtain ⟨k, -, rfl⟩ := List.mem_map.mp hc
    obtain ⟨k', -, rfl⟩ := List.mem_map.mp hc'
    dsimp only at h
    rw [h]

def crowdedServices : Services := ⟨crowdedNvd, fun _ => none, []⟩

theorem hundredAndOne_nodup : hundredAndOne.Nodup := by
  refine List.nodup_range.map fun j k h => cveName_injective ?_
  exact Option.some.inj (congrArg NvdCve.id h)

theorem recordsOf_crowded : recordsOf crowdedNvd ["cpe:2.3:a:x:y"] = hundredAndOne :=
  List.append_nil _

theorem crowdedAsset_cpe : crowdedAsset.cpe.getD [] = ["cpe:2.3:a:x:y"] := rfl

/-- Enrichment drops one of the hundred and one CVEs of that CPE. -/
theorem enrich_drops : crowded.assets.find 1 = some crowdedAsset ∧
    ¬ ∃ db', enrich 0 crowdedServices .fresh crowded 1 = .ok db' ∧
      Complete 0 crowdedServices .fresh crowdedAsset db' := by
  refine ⟨rfl, ?_⟩
  rintro ⟨db', hrun, hcomplete⟩
  have ha : crowded.assets.find crowdedAsset.id = some crowdedAsset := rfl
  obtain ⟨e', answer, hanswer, hstore⟩ :=
    enrich_eq_storeAnswer 0 crowdedServices .fresh ha (by rw [crowdedAsset_cpe]; simp)
  have hdb : storeAnswer 0 crowded crowdedAsset answer = db' :=
    Except.ok.inj (hstore.symm.trans hrun)
  subst hdb
  have hpages := (complete_storeAnswer_iff ha hanswer).mp hcomplete
  have hfit := length_recordsOf_le hpages (fun _ => rfl) (by
    rw [crowdedAsset_cpe]
    exact recordsOf_crowded ▸ hundredAndOne_nodup)
  rw [crowdedAsset_cpe] at hfit
  have hcount : (recordsOf crowdedNvd ["cpe:2.3:a:x:y"]).length = 101 := by
    rw [recordsOf_crowded, hundredAndOne, List.length_map, List.length_range]
  change (recordsOf crowdedNvd ["cpe:2.3:a:x:y"]).length ≤ 100 * 1 at hfit
  omega

theorem enrich_complete_iff_crowded :
    (∃ db', enrich 0 crowdedServices .fresh crowded crowdedAsset.id = .ok db' ∧
      Complete 0 crowdedServices .fresh crowdedAsset db') ↔
      PagesSuffice 0 crowdedServices .fresh crowded crowdedAsset :=
  enrich_complete_iff 0 crowdedServices .fresh rfl (by rw [crowdedAsset_cpe]; simp)

end Kepryx.NvdPages
