import Kepryx.Models
import Kepryx.Results

/-!
# The CVE enricher

`CVEEnricher` asks NVD for the CVEs of each CPE, EPSS for their scores in batches of one
hundred, and the KEV catalog once. A failed NVD request counts as no CVE, a failed EPSS
batch as no score, and a failed catalog request leaves the cached catalog, which is
empty in a fresh enricher. What the feeds answer is a parameter.
-/
namespace Kepryx.CveFeeds
open Kepryx.Models Kepryx.Results Kepryx.Tables

/-! ## The answers of the feeds -/

/-- The `cvssData` of a metric. -/
structure CvssData where
  baseScore : Option ℚ := none
  vectorString : Option String := none
  deriving DecidableEq, Repr

/-- A `cpeMatch` entry of a configuration node. -/
structure CpeMatch where
  vulnerable : Bool
  criteria : Option String
  deriving DecidableEq, Repr

/-- The `cve` object of an NVD item. -/
structure NvdCve where
  id : Option String
  cvssMetricV31 : List CvssData := []
  cvssMetricV30 : List CvssData := []
  descriptions : List (String × String) := []
  configurations : List (List (List CpeMatch)) := []
  published : Option String := none
  lastModified : Option String := none
  deriving DecidableEq, Repr

/-- An item of an EPSS answer: one with numbers, or one that raises when it is read. -/
inductive EpssItem where
  | scored (cve : String) (score percentile : ℚ)
  | malformed
  deriving DecidableEq, Repr

/-- The answer to the KEV catalog request: the listed identifiers, a failed request, or a
body that cannot be read. -/
inductive KevResponse where
  | catalog (cveIDs : List String)
  | httpError
  | malformed
  deriving DecidableEq, Repr

/-- What every request of a run is answered; `none` is a request that failed, an empty body
is an empty list. EPSS answers only for the CVEs of the request. -/
structure Feeds where
  kev : KevResponse
  nvd : ℕ → String → Option (List NvdCve)
  epss : ℕ → List String → Option (List EpssItem)
  epss_requested : ∀ k batch items, epss k batch = some items →
    ∀ c s p, EpssItem.scored c s p ∈ items → c ∈ batch

/-- The exceptions that leave the enricher. -/
inductive FeedError where
  | malformedCatalog
  deriving DecidableEq, Repr

/-! ## The enricher -/

/-- The state of a `CVEEnricher`: the cached catalog. -/
structure Enricher where
  kevCache : List String := []
  kevCachedAt : Option Time := none
  deriving DecidableEq, Repr

/-- `CVEEnricher()` -/
def Enricher.fresh : Enricher := {}

/-- `load_kev_catalog` -/
def loadKevCatalog (now : Time) (e : Enricher) (force : Bool) (response : KevResponse) :
    Except FeedError Enricher :=
  if !force && e.kevCachedAt.any (fun t => now - t < hours 6) then .ok e
  else match response with
    | .catalog cveIDs => .ok ⟨cveIDs, some now⟩
    | .httpError => .ok e
    | .malformed => .error .malformedCatalog

/-- A CVE as `get_cves_for_cpe` returns it. -/
structure FoundCve where
  id : String
  cvssV3 : Option ℚ
  cvssVector : Option String
  description : String
  published : Option String
  modified : Option String
  affectedCpes : List String
  deriving DecidableEq, Repr

/-- The criteria of the vulnerable matches of a configuration. -/
def affectedCpes (configurations : List (List (List CpeMatch))) : List String :=
  (configurations.flatten.flatten.filter (·.vulnerable)).filterMap
    fun m => m.criteria.filter (· ≠ "")

/-- `next((d["value"] for d in descriptions if d.get("lang") == "en"), "")` -/
def englishDescription (descriptions : List (String × String)) : String :=
  ((descriptions.find? fun d => d.1 = "en").map Prod.snd).getD ""

/-- One turn of the loop in `get_cves_for_cpe`; an item without an identifier is skipped. -/
def readCve (cve : NvdCve) : Option FoundCve :=
  (cve.id.filter (· ≠ "")).map fun id =>
    let cvss := (cve.cvssMetricV31.head?.or cve.cvssMetricV30.head?).getD {}
    { id := id
      cvssV3 := cvss.baseScore
      cvssVector := cvss.vectorString
      description := String.ofList ((englishDescription cve.descriptions).toList.take 1000)
      published := cve.published
      modified := cve.lastModified
      affectedCpes := affectedCpes cve.configurations }

/-- `get_cves_for_cpe` -/
def getCvesForCpe (response : Option (List NvdCve)) : List FoundCve :=
  (response.getD []).filterMap readCve

/-- The batch of `get_epss_scores` that starts at position `100 * k`. -/
def batch (cveIds : List String) (k : ℕ) : List String := (cveIds.drop (100 * k)).take 100

def batchCount (cveIds : List String) : ℕ := (cveIds.length + 99) / 100

/-- The scores read so far, the latest first. -/
abbrev Scores := List (String × ℚ × ℚ)

/-- The loop over the items of a batch; an item that raises ends the batch. -/
def readItems : Scores → List EpssItem → Scores
  | results, [] => results
  | results, .malformed :: _ => results
  | results, .scored cve score percentile :: items =>
    readItems ((cve, score, percentile) :: results) items

/-- `get_epss_scores` -/
def getEpssScores (F : Feeds) (cveIds : List String) : Scores :=
  (List.range (batchCount cveIds)).foldl
    (fun results k => readItems results ((F.epss k (batch cveIds k)).getD [])) []

/-- A CVE with the CPE it was found for. -/
structure MatchedCve extends FoundCve where
  matchedCpe : String
  deriving DecidableEq, Repr

/-- The first occurrence of a CVE is kept. -/
def addFound (cpe : String) (all : List MatchedCve) (c : FoundCve) : List MatchedCve :=
  if c.id ∈ all.map (·.id) then all else all ++ [⟨c, cpe⟩]

/-- The loop over the CPEs in `enrich_asset`, from the `k`-th request on. -/
def collect (F : Feeds) : ℕ → List String → List MatchedCve → List MatchedCve
  | _, [], all => all
  | k, cpe :: cpes, all =>
    collect F (k + 1) cpes ((getCvesForCpe (F.nvd k cpe)).foldl (addFound cpe) all)

/-- `all_cves`, in the order of its keys. -/
def allCves (F : Feeds) (cpes : List String) : List MatchedCve := collect F 0 cpes []

/-- A CVE as `enrich_asset` returns it; every key is set. -/
structure EnrichedCve extends MatchedCve where
  epssScore : ℚ
  epssPercentile : ℚ
  kev : Bool
  deriving DecidableEq, Repr

/-- What `enrich_asset` returns: the values of a dictionary keyed by CVE. -/
abbrev Answer := Table fun c : EnrichedCve => c.id

/-- The EPSS and KEV entries that `enrich_asset` adds to a CVE. -/
def addScores (epss : Scores) (kevCache : List String) (c : MatchedCve) : EnrichedCve where
  toMatchedCve := c
  epssScore := ((epss.lookup c.id).map Prod.fst).getD 0
  epssPercentile := ((epss.lookup c.id).map Prod.snd).getD 0
  kev := c.id ∈ kevCache

theorem addFound_nodup {cpe : String} {all : List MatchedCve} (h : (all.map (·.id)).Nodup)
    (c : FoundCve) : ((addFound cpe all c).map (·.id)).Nodup := by
  unfold addFound
  split
  · exact h
  · rename_i hnot
    rw [List.map_append, List.nodup_append]
    refine ⟨h, by simp, ?_⟩
    rintro x hx y hy rfl
    rw [List.mem_singleton.mp hy] at hx
    exact hnot hx

theorem collect_nodup (F : Feeds) (k : ℕ) (cpes : List String) {all : List MatchedCve}
    (h : (all.map (·.id)).Nodup) : ((collect F k cpes all).map (·.id)).Nodup := by
  induction cpes generalizing k all with
  | nil => exact h
  | cons cpe cpes ih =>
    refine ih (k + 1) (List.foldlRecOn _
      (motive := fun all : List MatchedCve => (all.map (·.id)).Nodup) _ h ?_)
    intro all hall c _
    exact addFound_nodup hall c

/-- The identifiers that the EPSS batches are cut from. -/
def cveIds (F : Feeds) (cpes : List String) : List String := (allCves F cpes).map (·.id)

theorem cveIds_nodup (F : Feeds) (cpes : List String) : (cveIds F cpes).Nodup :=
  collect_nodup F 0 cpes (by simp)

/-- `enrich_asset` -/
def enrichAsset (now : Time) (F : Feeds) (e : Enricher) (cpes : List String) :
    Except FeedError (Enricher × Answer) := do
  let e ← loadKevCatalog now e false F.kev
  let epss := getEpssScores F (cveIds F cpes)
  return (e, {
    rows := (allCves F cpes).map (addScores epss e.kevCache)
    nodup := by
      rw [List.map_map]
      exact cveIds_nodup F cpes })

/-! ## What a failed request leaves out -/

/-- The EPSS batch `k` covers the CVE. -/
def CoveredBy (F : Feeds) (cpes : List String) (k : ℕ) (cve : String) : Prop :=
  k < batchCount (cveIds F cpes) ∧ cve ∈ batch (cveIds F cpes) k

theorem mem_batch {ids : List String} {k : ℕ} {x : String} (h : x ∈ batch ids k) :
    ∃ i, ids[i]? = some x ∧ i / 100 = k := by
  obtain ⟨j, hj⟩ := List.mem_iff_getElem?.mp h
  have hlt : j < 100 := by
    have hlen := (List.getElem?_eq_some_iff.mp hj).1
    simp only [batch, List.length_take] at hlen
    omega
  rw [batch, List.getElem?_take_of_lt hlt, List.getElem?_drop] at hj
  exact ⟨100 * k + j, hj, by omega⟩

/-- The batches of distinct identifiers have nothing in common. -/
theorem batch_unique {ids : List String} (hids : ids.Nodup) {k k' : ℕ} {x : String}
    (h : x ∈ batch ids k) (h' : x ∈ batch ids k') : k = k' := by
  obtain ⟨i, hi, rfl⟩ := mem_batch h
  obtain ⟨j, hj, rfl⟩ := mem_batch h'
  have hlt : i < ids.length := (List.getElem?_eq_some_iff.mp hi).1
  rw [(List.getElem?_inj hlt hids).mp (hi.trans hj.symm)]

theorem mem_readItems {results : Scores} {items : List EpssItem} {x : String × ℚ × ℚ}
    (h : x ∈ readItems results items) :
    x ∈ results ∨ EpssItem.scored x.1 x.2.1 x.2.2 ∈ items := by
  induction items generalizing results with
  | nil => exact .inl h
  | cons item items ih =>
    cases item with
    | malformed => exact .inl h
    | scored cve score percentile =>
      rcases ih h with hx | hx
      · rcases List.mem_cons.mp hx with rfl | hx
        · exact .inr List.mem_cons_self
        · exact .inl hx
      · exact .inr (List.mem_cons_of_mem _ hx)

/-- Every score comes from an answered batch that covers the CVE. -/
theorem mem_getEpssScores {F : Feeds} {ids : List String} {x : String × ℚ × ℚ}
    (h : x ∈ getEpssScores F ids) :
    ∃ k, (F.epss k (batch ids k)).isSome ∧ x.1 ∈ batch ids k := by
  unfold getEpssScores at h
  refine List.foldlRecOn (List.range (batchCount ids))
    (motive := fun results : Scores =>
      ∀ x ∈ results, ∃ k, (F.epss k (batch ids k)).isSome ∧ x.1 ∈ batch ids k)
    _ (by simp) ?_ x h
  intro results hresults k _ x hx
  rcases mem_readItems hx with hx | hx
  · exact hresults x hx
  · cases hitems : F.epss k (batch ids k) with
    | none => simp [hitems] at hx
    | some items =>
      rw [hitems] at hx
      exact ⟨k, by simp [hitems], F.epss_requested k _ items hitems _ _ _ hx⟩

/-- A CVE of a failed batch has no score. -/
theorem lookup_getEpssScores {F : Feeds} {ids : List String} (hids : ids.Nodup) {k : ℕ}
    {x : String} (hfail : F.epss k (batch ids k) = none) (hx : x ∈ batch ids k) :
    (getEpssScores F ids).lookup x = none := by
  rw [List.lookup_eq_none_iff]
  intro p hp
  obtain ⟨k', hsome, hp'⟩ := mem_getEpssScores hp
  rw [bne_iff_ne]
  rintro rfl
  rw [batch_unique hids hx hp'] at hfail
  simp [hfail] at hsome

/-- What an answer says about a CVE that NVD returned: a KEV entry only from the cached
catalog, and zeros where EPSS gave no score. -/
structure Scored (F : Feeds) (cpes : List String) (kevCache : List String) (x : String)
    (c : EnrichedCve) : Prop where
  kev : c.kev = decide (x ∈ kevCache)
  epssScore : c.epssScore = (((getEpssScores F (cveIds F cpes)).lookup x).map Prod.fst).getD 0
  epssPercentile :
    c.epssPercentile = (((getEpssScores F (cveIds F cpes)).lookup x).map Prod.snd).getD 0

theorem enrichAsset_ok {now : Time} {F : Feeds} {e e' : Enricher} {cpes : List String}
    {answer : Answer} (h : enrichAsset now F e cpes = .ok (e', answer)) :
    loadKevCatalog now e false F.kev = .ok e' ∧
    (∀ x ∉ cveIds F cpes, answer.find x = none) ∧
    ∀ x ∈ cveIds F cpes, ∃ c, answer.find x = some c ∧ Scored F cpes e'.kevCache x c := by
  unfold enrichAsset at h
  obtain ⟨e₁, hload, h⟩ := bind_eq_ok.mp h
  cases h
  refine ⟨hload, fun x hx => ?_, fun x hx => ?_⟩
  · refine Table.find_eq_none.mpr fun c hc he => hx ?_
    obtain ⟨m, hm, rfl⟩ := List.mem_map.mp hc
    exact List.mem_map.mpr ⟨m, hm, he⟩
  · obtain ⟨m, hm, rfl⟩ := List.mem_map.mp hx
    refine ⟨addScores (getEpssScores F (cveIds F cpes)) e'.kevCache m, ?_, rfl, rfl, rfl⟩
    exact Table.find_eq_some.mpr ⟨List.mem_map.mpr ⟨m, hm, rfl⟩, rfl⟩

end Kepryx.CveFeeds
