import Kepryx.CveFeeds

/-!
# How the enricher joins its feeds

The first CPE whose answer contains a CVE gives its record, the one batch that contains it gives
its scores. A request that fails takes away what its own answer would have said. Without an NVD
answer the other CVEs also move to other batches, and so may get other scores.
-/
namespace Kepryx.EnrichmentMerge
open Kepryx.Models Kepryx.Results Kepryx.Tables Kepryx.CveFeeds

/-! ## What the answers say -/

/-- The answers can be read: the catalog, every NVD item, every EPSS item. -/
structure WellFormed (F : Feeds) : Prop where
  kev : F.kev ≠ .malformed
  nvd : ∀ k cpe cves, F.nvd k cpe = some cves → ∀ c ∈ cves, ∃ id, c.id = some id ∧ id ≠ ""
  epss : ∀ k ids items, F.epss k ids = some items → .malformed ∉ items

/-- The NVD request `k` is for the CPE, succeeds, and its answer contains the CVE. -/
def Contains (F : Feeds) (cpes : List String) (k : ℕ) (cpe x : String) : Prop :=
  cpes[k]? = some cpe ∧ ∃ cves, F.nvd k cpe = some cves ∧ ∃ c ∈ cves, c.id = some x

/-- The request `k` is the first one whose answer contains the CVE. -/
def FirstContains (F : Feeds) (cpes : List String) (k : ℕ) (cpe x : String) : Prop :=
  Contains F cpes k cpe x ∧ ∀ j < k, ∀ cpe', ¬ Contains F cpes j cpe' x

/-- What an item says about the CVE. -/
def entryFor (x : String) : EpssItem → Option (ℚ × ℚ)
  | .scored cve score percentile => if cve = x then some (score, percentile) else none
  | .malformed => none

/-- What an answer says about the CVE; of two items the later counts. -/
def mention (items : List EpssItem) (x : String) : Option (ℚ × ℚ) :=
  items.reverse.findSome? (entryFor x)

/-- The score and the percentile of the CVE: zeros if the request failed or does not mention it. -/
def scoresIn (response : Option (List EpssItem)) (x : String) : ℚ × ℚ :=
  (mention (response.getD []) x).getD (0, 0)

/-- The response to the EPSS request `k` of a run. -/
def epssResponse (F : Feeds) (cpes : List String) (k : ℕ) : Option (List EpssItem) :=
  F.epss k (batch (cveIds F cpes) k)

/-- A record is that of the first answer that contains its CVE, with the scores of its batch. -/
structure JoinedFrom (F : Feeds) (cpes : List String) (kevCache : List String) (c : EnrichedCve) :
    Prop where
  nvd : ∃ k, FirstContains F cpes k c.matchedCpe c.id ∧
    (getCvesForCpe (F.nvd k c.matchedCpe)).find? (fun d => d.id = c.id) = some c.toFoundCve
  epss : ∃ k, (CoveredBy F cpes k c.id ∧ ∀ k', CoveredBy F cpes k' c.id → k' = k) ∧
    (batch (cveIds F cpes) k).length ≤ 100 ∧
    (c.epssScore, c.epssPercentile) = scoresIn (epssResponse F cpes k) c.id
  kev : c.kev = decide (c.id ∈ kevCache)

/-- One record for each CVE that a successful answer contains, and no other. -/
structure Merges (F : Feeds) (cpes : List String) (kevCache : List String) (answer : Answer) :
    Prop where
  nodup : (answer.rows.map (·.id)).Nodup
  ids : ∀ x, x ∈ answer.rows.map (·.id) ↔ ∃ k cpe, Contains F cpes k cpe x
  joined : ∀ c ∈ answer.rows, JoinedFrom F cpes kevCache c

/-! ## What failing requests change -/

/-- The same services, with some NVD requests that fail. -/
def failNvd (F : Feeds) (N : ℕ → Bool) : Feeds :=
  { F with nvd := fun k cpe => if N k then none else F.nvd k cpe }

/-- The same services, with some EPSS requests that fail. -/
def failEpss (F : Feeds) (E : ℕ → Bool) : Feeds :=
  { F with
    epss := fun k ids => if E k then none else F.epss k ids
    epss_requested := by
      intro k ids items h
      split at h
      · cases h
      · exact F.epss_requested k ids items h }

/-- EPSS says the same about a CVE in every answer to a request that contains it. -/
def Consistent (F : Feeds) : Prop :=
  ∀ k ids items k' ids' items' x, F.epss k ids = some items → F.epss k' ids' = some items' →
    x ∈ ids → x ∈ ids' → mention items x = mention items' x

/-- The batch of the CVE was answered. -/
def BatchAnswered (F : Feeds) (cpes : List String) (x : String) : Prop :=
  ∀ k, CoveredBy F cpes k x → (epssResponse F cpes k).isSome

/-- The fields of a record that EPSS does not give. -/
def unscored (c : EnrichedCve) : MatchedCve × Bool := (c.toMatchedCve, c.kev)

/-- A failing request changes no record outside its own CPE or batch. Without an NVD answer the
other CVEs move to other batches; their scores stay if EPSS answers for these as well. -/
structure Isolated (now : Time) (F : Feeds) (e : Enricher) (cpes : List String) (answer : Answer) :
    Prop where
  epss : ∀ E e' answer', enrichAsset now (failEpss F E) e cpes = .ok (e', answer') →
    ∀ x, (∀ k, CoveredBy F cpes k x → E k = false) → answer'.find x = answer.find x
  nvd : ∀ N e' answer', enrichAsset now (failNvd F N) e cpes = .ok (e', answer') →
    ∀ x, (∀ k cpe, Contains F cpes k cpe x → N k = false) →
      (answer'.find x).map unscored = (answer.find x).map unscored ∧
      (Consistent F → BatchAnswered F cpes x → BatchAnswered (failNvd F N) cpes x →
        answer'.find x = answer.find x)

/-! ## The first answer that contains a CVE -/

/-- The entry of `all_cves` that the requests from the `k`-th on make for the CVE. -/
def firstMatch (F : Feeds) (x : String) : ℕ → List String → Option MatchedCve
  | _, [] => none
  | k, cpe :: cpes =>
    (((getCvesForCpe (F.nvd k cpe)).find? fun c => c.id = x).map fun c => ⟨c, cpe⟩).or
      (firstMatch F x (k + 1) cpes)

theorem find_addFound (cpe x : String) (all : List MatchedCve) (c : FoundCve) :
    (addFound cpe all c).find? (fun m => m.id = x) =
      (all.find? fun m => m.id = x).or (if c.id = x then some ⟨c, cpe⟩ else none) := by
  unfold addFound
  split
  · rename_i hmem
    by_cases hx : c.id = x
    · obtain ⟨m, hm, hid⟩ := List.mem_map.mp hmem
      have hsome : (all.find? fun m => m.id = x).isSome :=
        List.find?_isSome.mpr ⟨m, hm, by simp [hid, hx]⟩
      obtain ⟨m', hm'⟩ := Option.isSome_iff_exists.mp hsome
      rw [hm', Option.some_or]
    · rw [if_neg hx, Option.or_none]
  · rw [List.find?_append]
    by_cases hx : c.id = x
    · simp [hx]
    · simp [hx]

theorem find_foldl_addFound (cpe x : String) (cs : List FoundCve) (all : List MatchedCve) :
    (cs.foldl (addFound cpe) all).find? (fun m => m.id = x) =
      (all.find? fun m => m.id = x).or
        ((cs.find? fun c => c.id = x).map fun c => ⟨c, cpe⟩) := by
  induction cs generalizing all with
  | nil => simp
  | cons c cs ih =>
    rw [List.foldl_cons, ih, find_addFound, Option.or_assoc]
    by_cases hx : c.id = x
    · simp [hx]
    · simp [hx]

theorem find_collect (F : Feeds) (x : String) (k : ℕ) (cpes : List String)
    (all : List MatchedCve) :
    (collect F k cpes all).find? (fun m => m.id = x) =
      (all.find? fun m => m.id = x).or (firstMatch F x k cpes) := by
  induction cpes generalizing k all with
  | nil => simp [collect, firstMatch]
  | cons cpe cpes ih => rw [collect, ih, find_foldl_addFound, Option.or_assoc, firstMatch]

/-- The record of a CVE is that of the first request whose answer contains it. -/
theorem firstMatch_some {F : Feeds} {x : String} {k : ℕ} {cpes : List String} {m : MatchedCve}
    (h : firstMatch F x k cpes = some m) : ∃ j, cpes[j]? = some m.matchedCpe ∧
      (getCvesForCpe (F.nvd (k + j) m.matchedCpe)).find? (fun c => c.id = x) =
        some m.toFoundCve ∧
      ∀ i < j, ∀ cpe, cpes[i]? = some cpe →
        (getCvesForCpe (F.nvd (k + i) cpe)).find? (fun c => c.id = x) = none := by
  induction cpes generalizing k with
  | nil => cases h
  | cons cpe cpes ih =>
    rw [firstMatch] at h
    cases hfind : (getCvesForCpe (F.nvd k cpe)).find? fun c => c.id = x with
    | some c =>
      rw [hfind] at h
      cases h
      exact ⟨0, rfl, hfind, fun i hi => absurd hi (Nat.not_lt_zero i)⟩
    | none =>
      rw [hfind, Option.map_none, Option.none_or] at h
      obtain ⟨j, hj, hc, hbefore⟩ := ih h
      rw [Nat.add_right_comm, Nat.add_assoc] at hc
      refine ⟨j + 1, hj, hc, fun i hi cpe' hcpe => ?_⟩
      cases i with
      | zero =>
        cases hcpe
        exact hfind
      | succ i =>
        have := hbefore i (by omega) cpe' hcpe
        rwa [Nat.add_right_comm, Nat.add_assoc] at this

theorem firstMatch_isSome_iff {F : Feeds} {x : String} {k : ℕ} {cpes : List String} :
    (firstMatch F x k cpes).isSome ↔ ∃ j cpe, cpes[j]? = some cpe ∧
      ((getCvesForCpe (F.nvd (k + j) cpe)).find? fun c => c.id = x).isSome := by
  induction cpes generalizing k with
  | nil => simp [firstMatch]
  | cons cpe cpes ih =>
    rw [firstMatch, Option.isSome_or, Option.isSome_map, Bool.or_eq_true, ih]
    constructor
    · rintro (h | ⟨j, cpe', hj, h⟩)
      · exact ⟨0, cpe, rfl, h⟩
      · exact ⟨j + 1, cpe', hj, by rwa [Nat.add_right_comm, Nat.add_assoc] at h⟩
    · rintro ⟨j, cpe', hj, h⟩
      cases j with
      | zero =>
        cases hj
        exact .inl h
      | succ j => exact .inr ⟨j, cpe', hj, by rwa [Nat.add_right_comm, Nat.add_assoc]⟩

/-- The record of a CVE depends only on the answers to the requests that can contain it. -/
theorem firstMatch_congr {F G : Feeds} {x : String} {k : ℕ} {cpes : List String}
    (h : ∀ j cpe, cpes[j]? = some cpe →
      (getCvesForCpe (F.nvd (k + j) cpe)).find? (fun c => c.id = x) =
        (getCvesForCpe (G.nvd (k + j) cpe)).find? fun c => c.id = x) :
    firstMatch F x k cpes = firstMatch G x k cpes := by
  induction cpes generalizing k with
  | nil => rfl
  | cons cpe cpes ih =>
    have hrest : firstMatch F x (k + 1) cpes = firstMatch G x (k + 1) cpes := by
      refine ih fun j cpe' hj => ?_
      have := h (j + 1) cpe' hj
      rwa [Nat.add_comm j 1, ← Nat.add_assoc] at this
    have hhead := h 0 cpe rfl
    rw [Nat.add_zero] at hhead
    rw [firstMatch, firstMatch, hhead, hrest]

/-- A CVE is read from an answer if and only if the answer contains it. -/
theorem find_getCvesForCpe_isSome {F : Feeds} (hF : WellFormed F) {cpes : List String} {k : ℕ}
    {cpe x : String} (hcpe : cpes[k]? = some cpe) :
    ((getCvesForCpe (F.nvd k cpe)).find? fun c => c.id = x).isSome ↔ Contains F cpes k cpe x := by
  rw [List.find?_isSome]
  constructor
  · rintro ⟨c, hc, hid⟩
    obtain rfl : c.id = x := of_decide_eq_true hid
    obtain ⟨cve, hcve, hread⟩ := List.mem_filterMap.mp hc
    cases hnvd : F.nvd k cpe with
    | none => simp [hnvd] at hcve
    | some cves =>
      rw [hnvd, Option.getD_some] at hcve
      obtain ⟨id, hid', rfl⟩ := Option.map_eq_some_iff.mp hread
      exact ⟨hcpe, cves, hnvd, cve, hcve, (Option.filter_eq_some_iff.mp hid').1⟩
  · rintro ⟨-, cves, hnvd, cve, hcve, hid⟩
    obtain ⟨id, hsome, hne⟩ := hF.nvd k cpe cves hnvd cve hcve
    obtain rfl : id = x := Option.some.inj (hsome.symm.trans hid)
    have hread : ∃ c, readCve cve = some c ∧ c.id = id := by
      unfold readCve
      rw [hid, Option.filter_some, if_pos (by simpa using hne)]
      exact ⟨_, rfl, rfl⟩
    obtain ⟨c, hc, hcid⟩ := hread
    refine ⟨c, List.mem_filterMap.mpr ⟨cve, ?_, hc⟩, by simpa using hcid⟩
    rw [hnvd, Option.getD_some]
    exact hcve

/-! ## The scores of a CVE -/

theorem lookup_readItems {items : List EpssItem} (h : .malformed ∉ items) (results : Scores)
    (x : String) :
    (readItems results items).lookup x = (mention items x).or (results.lookup x) := by
  induction items generalizing results with
  | nil => rfl
  | cons item items ih =>
    cases item with
    | malformed => exact absurd List.mem_cons_self h
    | scored cve score percentile =>
      rw [readItems, ih (fun hm => h (List.mem_cons_of_mem _ hm)), mention, mention,
        List.reverse_cons, List.findSome?_append, Option.or_assoc]
      congr 1
      by_cases hx : cve = x
      · simp [entryFor, hx]
      · have hne : (x == cve) = false := by simpa using Ne.symm hx
        simp [entryFor, hx, List.lookup_cons, hne]

theorem mention_eq_none {items : List EpssItem} {x : String}
    (h : ∀ s p, EpssItem.scored x s p ∉ items) : mention items x = none := by
  refine List.findSome?_eq_none_iff.mpr fun item hitem => ?_
  cases item with
  | malformed => rfl
  | scored cve s p =>
    refine if_neg fun hx => ?_
    exact h s p (hx ▸ List.mem_reverse.mp hitem)

/-- The answers to other requests do not mention a CVE. -/
theorem mention_of_notMem {F : Feeds} {k : ℕ} {ids : List String} {x : String} (hx : x ∉ ids) :
    mention ((F.epss k ids).getD []) x = none := by
  refine mention_eq_none fun s p hitem => ?_
  cases hepss : F.epss k ids with
  | none => simp [hepss] at hitem
  | some items =>
    rw [hepss, Option.getD_some] at hitem
    exact hx (F.epss_requested k ids items hepss x s p hitem)

theorem lookup_foldl_readItems {answers : ℕ → List EpssItem} (h : ∀ k, .malformed ∉ answers k)
    (x : String) (ks : List ℕ) (results : Scores) :
    (ks.foldl (fun results k => readItems results (answers k)) results).lookup x =
      (ks.reverse.findSome? fun k => mention (answers k) x).or (results.lookup x) := by
  induction ks generalizing results with
  | nil => rfl
  | cons k ks ih =>
    rw [List.foldl_cons, ih, lookup_readItems (h k), List.reverse_cons, List.findSome?_append,
      Option.or_assoc]
    simp

/-- The scores of a CVE are those of the answer to the one batch that contains it. -/
theorem lookup_of_coveredBy {F : Feeds} (hF : WellFormed F) {cpes : List String} {k : ℕ}
    {x : String} (hk : CoveredBy F cpes k x) :
    (getEpssScores F (cveIds F cpes)).lookup x =
      mention ((epssResponse F cpes k).getD []) x := by
  have hplain : ∀ j, .malformed ∉ (F.epss j (batch (cveIds F cpes) j)).getD [] := by
    intro j
    cases hj : F.epss j (batch (cveIds F cpes) j) with
    | none => exact List.not_mem_nil
    | some items => exact hF.epss j _ items hj
  rw [getEpssScores, lookup_foldl_readItems hplain, List.lookup_nil, Option.or_none]
  have hother : ∀ j, j ≠ k → mention ((F.epss j (batch (cveIds F cpes) j)).getD []) x = none := by
    intro j hj
    exact mention_of_notMem fun hx => hj (batch_unique (cveIds_nodup F cpes) hx hk.2)
  cases hmention : mention ((epssResponse F cpes k).getD []) x with
  | none =>
    refine List.findSome?_eq_none_iff.mpr fun j _ => ?_
    by_cases hj : j = k
    · exact hj ▸ hmention
    · exact hother j hj
  | some score =>
    obtain ⟨before, after, hks⟩ := List.append_of_mem (List.mem_range.mpr hk.1)
    have hrange : k ∉ after := by
      have hnodup := List.nodup_range (n := batchCount (cveIds F cpes))
      rw [hks, List.nodup_append, List.nodup_cons] at hnodup
      exact hnodup.2.1.1
    rw [hks, List.reverse_append, List.reverse_cons, List.findSome?_append, List.findSome?_append]
    have hafter : (after.reverse.findSome? fun j =>
        mention ((F.epss j (batch (cveIds F cpes) j)).getD []) x) = none := by
      refine List.findSome?_eq_none_iff.mpr fun j hj => hother j ?_
      rintro rfl
      exact hrange (List.mem_reverse.mp hj)
    have hhere : mention ((F.epss k (batch (cveIds F cpes) k)).getD []) x = some score := hmention
    rw [hafter, Option.none_or, List.findSome?_singleton, hhere, Option.some_or]

/-- Every CVE is in exactly one batch. -/
theorem exists_coveredBy {F : Feeds} {cpes : List String} {x : String} (hx : x ∈ cveIds F cpes) :
    ∃ k, CoveredBy F cpes k x ∧ ∀ k', CoveredBy F cpes k' x → k' = k := by
  obtain ⟨i, hi⟩ := List.mem_iff_getElem?.mp hx
  have hlt : i < (cveIds F cpes).length := (List.getElem?_eq_some_iff.mp hi).1
  have hmem : x ∈ batch (cveIds F cpes) (i / 100) := by
    refine List.mem_iff_getElem?.mpr ⟨i % 100, ?_⟩
    rw [batch, List.getElem?_take_of_lt (Nat.mod_lt i (by omega)), List.getElem?_drop,
      Nat.div_add_mod]
    exact hi
  refine ⟨i / 100, ⟨?_, hmem⟩, fun k' hk' => ?_⟩
  · unfold batchCount
    omega
  · exact batch_unique (cveIds_nodup F cpes) hk'.2 hmem

/-! ## The records of a run -/

/-- The record of a CVE is made of its first match and of its scores. -/
theorem find_enrichAsset {now : Time} {F : Feeds} {e e' : Enricher} {cpes : List String}
    {answer : Answer} (h : enrichAsset now F e cpes = .ok (e', answer)) (x : String) :
    answer.find x = (firstMatch F x 0 cpes).map
      (addScores (getEpssScores F (cveIds F cpes)) e'.kevCache) := by
  obtain ⟨e₁, -, h⟩ := bind_eq_ok.mp h
  cases h
  have hall : (allCves F cpes).find? (fun m => m.id = x) = firstMatch F x 0 cpes := by
    rw [allCves, find_collect, List.find?_nil, Option.none_or]
  rw [← hall, Table.find, List.find?_map]
  rfl

theorem mem_cveIds_iff {F : Feeds} {cpes : List String} {x : String} :
    x ∈ cveIds F cpes ↔ (firstMatch F x 0 cpes).isSome := by
  have hall : (allCves F cpes).find? (fun m => m.id = x) = firstMatch F x 0 cpes := by
    rw [allCves, find_collect, List.find?_nil, Option.none_or]
  rw [← hall, List.find?_isSome, cveIds, List.mem_map]
  simp only [decide_eq_true_eq]

theorem mem_cveIds_iff_contains {F : Feeds} (hF : WellFormed F) {cpes : List String} {x : String} :
    x ∈ cveIds F cpes ↔ ∃ k cpe, Contains F cpes k cpe x := by
  rw [mem_cveIds_iff, firstMatch_isSome_iff]
  constructor
  · rintro ⟨j, cpe, hj, h⟩
    rw [Nat.zero_add] at h
    exact ⟨j, cpe, (find_getCvesForCpe_isSome hF hj).mp h⟩
  · rintro ⟨k, cpe, hcontains⟩
    refine ⟨k, cpe, hcontains.1, ?_⟩
    rw [Nat.zero_add]
    exact (find_getCvesForCpe_isSome hF hcontains.1).mpr hcontains

theorem joinedFrom_of_firstMatch {F : Feeds} (hF : WellFormed F) {cpes : List String}
    {m : MatchedCve} (hm : firstMatch F m.id 0 cpes = some m) (kevCache : List String) :
    JoinedFrom F cpes kevCache
      (addScores (getEpssScores F (cveIds F cpes)) kevCache m) := by
  refine ⟨?_, ?_, rfl⟩
  · obtain ⟨j, hj, hfind, hbefore⟩ := firstMatch_some hm
    rw [Nat.zero_add] at hfind
    have hcontains : Contains F cpes j m.matchedCpe m.id :=
      (find_getCvesForCpe_isSome hF hj).mp (by rw [hfind]; rfl)
    refine ⟨j, ⟨hcontains, fun i hi cpe hearlier => ?_⟩, hfind⟩
    change Contains F cpes i cpe m.id at hearlier
    have hnone := hbefore i hi cpe hearlier.1
    rw [Nat.zero_add] at hnone
    have hsome := (find_getCvesForCpe_isSome hF hearlier.1).mpr hearlier
    rw [hnone] at hsome
    cases hsome
  · have hmem : m.id ∈ cveIds F cpes := mem_cveIds_iff.mpr (by rw [hm]; rfl)
    obtain ⟨k, hk, hunique⟩ := exists_coveredBy hmem
    refine ⟨k, ⟨hk, hunique⟩, List.length_take_le _ _, ?_⟩
    simp only [addScores, lookup_of_coveredBy hF hk, scoresIn]
    cases mention ((epssResponse F cpes k).getD []) m.id <;> rfl

theorem enrichAsset_merges {now : Time} {F : Feeds} (hF : WellFormed F) {e e' : Enricher}
    {cpes : List String} {answer : Answer} (h : enrichAsset now F e cpes = .ok (e', answer)) :
    Merges F cpes e'.kevCache answer := by
  have hfind := find_enrichAsset h
  refine ⟨answer.nodup, fun x => ?_, fun c hc => ?_⟩
  · rw [← mem_cveIds_iff_contains hF, mem_cveIds_iff, ← Option.isSome_map, ← hfind, Table.find,
      List.find?_isSome, List.mem_map]
    simp only [decide_eq_true_eq]
  · have hc := Table.find_key hc
    rw [hfind] at hc
    obtain ⟨m, hm, rfl⟩ := Option.map_eq_some_iff.mp hc
    exact joinedFrom_of_firstMatch hF hm e'.kevCache

/-! ## Isolation -/

/-- The NVD answers alone decide which CVEs there are, and in which order. -/
theorem collect_congr {F G : Feeds} (h : F.nvd = G.nvd) (k : ℕ) (cpes : List String)
    (all : List MatchedCve) : collect F k cpes all = collect G k cpes all := by
  induction cpes generalizing k all with
  | nil => rfl
  | cons cpe cpes ih => rw [collect, collect, h, ih]

theorem cveIds_failEpss (F : Feeds) (E : ℕ → Bool) (cpes : List String) :
    cveIds (failEpss F E) cpes = cveIds F cpes := by
  rw [cveIds, cveIds, allCves, allCves, collect_congr (F := failEpss F E) (G := F) rfl]

/-- Both runs read the same catalog. -/
theorem kevCache_eq {now : Time} {F G : Feeds} (hkev : G.kev = F.kev) {e e' e'' : Enricher}
    {cpes : List String} {answer answer' : Answer}
    (h : enrichAsset now F e cpes = .ok (e', answer))
    (h' : enrichAsset now G e cpes = .ok (e'', answer')) : e'' = e' := by
  obtain ⟨e₁, hload, h⟩ := bind_eq_ok.mp h
  obtain ⟨e₂, hload', h'⟩ := bind_eq_ok.mp h'
  cases h
  cases h'
  rw [hkev, hload] at hload'
  cases hload'
  rfl

theorem addScores_congr {epss epss' : Scores} {kevCache : List String} {m : MatchedCve}
    (h : epss.lookup m.id = epss'.lookup m.id) :
    addScores epss kevCache m = addScores epss' kevCache m := by
  simp only [addScores, h]

theorem WellFormed.failEpss {F : Feeds} (hF : WellFormed F) (E : ℕ → Bool) :
    WellFormed (failEpss F E) := by
  refine ⟨hF.kev, hF.nvd, fun k ids items h => ?_⟩
  change (if E k then none else F.epss k ids) = some items at h
  split at h
  · cases h
  · exact hF.epss k ids items h

theorem WellFormed.failNvd {F : Feeds} (hF : WellFormed F) (N : ℕ → Bool) :
    WellFormed (failNvd F N) := by
  refine ⟨hF.kev, fun k cpe cves h => ?_, hF.epss⟩
  change (if N k then none else F.nvd k cpe) = some cves at h
  split at h
  · cases h
  · exact hF.nvd k cpe cves h

section Isolated
variable {now : Time} {F : Feeds} {e e' e'' : Enricher} {cpes : List String}
  {answer answer' : Answer} {x : String}

theorem id_of_firstMatch {m : MatchedCve} (h : firstMatch F x 0 cpes = some m) : m.id = x := by
  obtain ⟨j, -, hfind, -⟩ := firstMatch_some h
  simpa using List.find?_some hfind

/-- A failing EPSS request changes only the records of its batch. -/
theorem find_failEpss (hF : WellFormed F) {E : ℕ → Bool}
    (h : enrichAsset now F e cpes = .ok (e', answer))
    (h' : enrichAsset now (failEpss F E) e cpes = .ok (e'', answer'))
    (hx : ∀ k, CoveredBy F cpes k x → E k = false) : answer'.find x = answer.find x := by
  obtain rfl : e'' = e' := kevCache_eq (F := F) (G := failEpss F E) rfl h h'
  have hfirst : firstMatch (failEpss F E) x 0 cpes = firstMatch F x 0 cpes :=
    firstMatch_congr fun _ _ _ => rfl
  rw [find_enrichAsset h, find_enrichAsset h', hfirst]
  cases hm : firstMatch F x 0 cpes with
  | none => rfl
  | some m =>
    obtain rfl : m.id = x := id_of_firstMatch hm
    obtain ⟨k, hk, -⟩ := exists_coveredBy (mem_cveIds_iff.mpr (by rw [hm]; rfl))
    have hk' : CoveredBy (failEpss F E) cpes k m.id := by
      rw [CoveredBy, cveIds_failEpss]
      exact hk
    have hresponse : epssResponse (failEpss F E) cpes k = epssResponse F cpes k := by
      rw [epssResponse, epssResponse, cveIds_failEpss]
      simp [failEpss, hx k hk]
    rw [Option.map_some, Option.map_some]
    refine congrArg some (addScores_congr ?_)
    rw [lookup_of_coveredBy hF hk, lookup_of_coveredBy (hF.failEpss E) hk', hresponse]

/-- A failing NVD request leaves the match of every CVE that its answer would not contain. -/
theorem firstMatch_failNvd (hF : WellFormed F) {N : ℕ → Bool}
    (hx : ∀ k cpe, Contains F cpes k cpe x → N k = false) :
    firstMatch (failNvd F N) x 0 cpes = firstMatch F x 0 cpes := by
  refine firstMatch_congr fun j cpe hj => ?_
  rw [Nat.zero_add]
  cases hN : N j with
  | false => simp [failNvd, hN]
  | true =>
    have hnone : (getCvesForCpe (F.nvd j cpe)).find? (fun c => c.id = x) = none := by
      cases hfind : (getCvesForCpe (F.nvd j cpe)).find? fun c => c.id = x with
      | none => rfl
      | some c =>
        have hcontains := (find_getCvesForCpe_isSome hF hj).mp (by rw [hfind]; rfl)
        cases hN.symm.trans (hx j cpe hcontains)
    rw [hnone]
    simp [failNvd, hN, getCvesForCpe]

/-- Answers about the same CVE say the same. -/
theorem mention_eq {G : Feeds} (hcons : Consistent F) (hepss : G.epss = F.epss) {k k' : ℕ}
    (hk : CoveredBy F cpes k x) (hk' : CoveredBy G cpes k' x)
    (hsome : (epssResponse F cpes k).isSome) (hsome' : (epssResponse G cpes k').isSome) :
    mention ((epssResponse G cpes k').getD []) x = mention ((epssResponse F cpes k).getD []) x := by
  obtain ⟨items, hitems⟩ := Option.isSome_iff_exists.mp hsome
  obtain ⟨items', hitems'⟩ := Option.isSome_iff_exists.mp hsome'
  rw [hitems, hitems', Option.getD_some, Option.getD_some]
  rw [epssResponse, hepss] at hitems'
  exact hcons _ _ _ _ _ _ x hitems' hitems hk'.2 hk.2

theorem isolated (hF : WellFormed F) (h : enrichAsset now F e cpes = .ok (e', answer)) :
    Isolated now F e cpes answer := by
  refine ⟨fun E e'' answer' h' x hx => find_failEpss hF h h' hx, fun N e'' answer' h' x hx => ?_⟩
  obtain rfl : e'' = e' := kevCache_eq (F := F) (G := failNvd F N) rfl h h'
  rw [find_enrichAsset h, find_enrichAsset h', firstMatch_failNvd hF hx]
  cases hm : firstMatch F x 0 cpes with
  | none => exact ⟨rfl, fun _ _ _ => rfl⟩
  | some m =>
    refine ⟨rfl, fun hcons hanswered hanswered' => ?_⟩
    obtain rfl : m.id = x := id_of_firstMatch hm
    have hm' : firstMatch (failNvd F N) m.id 0 cpes = some m :=
      (firstMatch_failNvd hF hx).trans hm
    obtain ⟨k, hk, -⟩ := exists_coveredBy (mem_cveIds_iff.mpr (by rw [hm]; rfl))
    obtain ⟨k', hk', -⟩ := exists_coveredBy (mem_cveIds_iff.mpr (by rw [hm']; rfl))
    rw [Option.map_some, Option.map_some]
    refine congrArg some (addScores_congr ?_)
    rw [lookup_of_coveredBy hF hk, lookup_of_coveredBy (hF.failNvd N) hk']
    exact mention_eq (G := failNvd F N) hcons rfl hk hk' (hanswered k hk) (hanswered' k' hk')

end Isolated

/-- Well-formed answers are all that a run needs. -/
theorem exists_enrichAsset (now : Time) {F : Feeds} (hF : WellFormed F) (e : Enricher)
    (cpes : List String) : ∃ e' answer, enrichAsset now F e cpes = .ok (e', answer) := by
  have hload : ∃ e', loadKevCatalog now e false F.kev = .ok e' := by
    unfold loadKevCatalog
    split
    · exact ⟨_, rfl⟩
    · cases hkev : F.kev with
      | catalog ids => exact ⟨_, rfl⟩
      | httpError => exact ⟨_, rfl⟩
      | malformed => exact absurd hkev hF.kev
  obtain ⟨e', hload⟩ := hload
  refine ⟨e', ?_⟩
  simp only [enrichAsset, hload, ok_bind, pure_eq_ok]
  exact ⟨_, rfl⟩

/-- Whatever fails, `enrich_asset` returns one record for each CVE that NVD answered with, taken
from the first CPE and the one batch that contain it. What fails costs no other record more than
its scores, and these only if its batch is another one then. -/
theorem enrichAsset_joins (now : Time) {F : Feeds} (hF : WellFormed F) (e : Enricher)
    (cpes : List String) : ∃ e' answer, enrichAsset now F e cpes = .ok (e', answer) ∧
      Merges F cpes e'.kevCache answer ∧ Isolated now F e cpes answer := by
  obtain ⟨e', answer, hrun⟩ := exists_enrichAsset now hF e cpes
  exact ⟨e', answer, hrun, enrichAsset_merges hF hrun, isolated hF hrun⟩

/-- Two CPEs with a CVE in common, and an EPSS answer that mentions it. -/
def sharedFeeds : Feeds where
  kev := .catalog ["CVE-2024-0001"]
  nvd _ _ := some [{ id := some "CVE-2024-0001" }]
  epss _ ids := some (ids.map fun x => .scored x (1 / 2) (9 / 10))
  epss_requested k ids items h c s p hmem := by
    cases h
    obtain ⟨x, hx, heq⟩ := List.mem_map.mp hmem
    cases heq
    exact hx

theorem sharedFeeds_wellFormed : WellFormed sharedFeeds := by
  refine ⟨by decide, fun k cpe cves h c hc => ?_, fun k ids items h hmem => ?_⟩
  · cases h
    rw [List.mem_singleton.mp hc]
    exact ⟨_, rfl, by decide⟩
  · cases h
    obtain ⟨x, -, heq⟩ := List.mem_map.mp hmem
    cases heq

theorem enrichAsset_joins_shared : ∃ e' answer,
    enrichAsset 0 sharedFeeds .fresh ["cpe:2.3:a:x:y", "cpe:2.3:a:x:z"] = .ok (e', answer) ∧
      Merges sharedFeeds ["cpe:2.3:a:x:y", "cpe:2.3:a:x:z"] e'.kevCache answer ∧
      Isolated 0 sharedFeeds .fresh ["cpe:2.3:a:x:y", "cpe:2.3:a:x:z"] answer :=
  enrichAsset_joins 0 sharedFeeds_wellFormed .fresh ["cpe:2.3:a:x:y", "cpe:2.3:a:x:z"]

/-! ## A batch that another answer shifts -/

/-- CVEs that are not in the list yet are all added. -/
theorem foldl_addFound {cpe : String} {cs : List FoundCve} {all : List MatchedCve}
    (h : (all.map (·.id) ++ cs.map (·.id)).Nodup) :
    cs.foldl (addFound cpe) all = all ++ cs.map fun c => ⟨c, cpe⟩ := by
  induction cs generalizing all with
  | nil => simp
  | cons c cs ih =>
    have hnew : c.id ∉ all.map (·.id) := fun hmem =>
      (List.nodup_append.mp h).2.2 _ hmem _ List.mem_cons_self rfl
    have hadd : addFound cpe all c = all ++ [⟨c, cpe⟩] := if_neg hnew
    rw [List.foldl_cons, hadd, ih (by simpa using h), List.append_assoc, List.map_cons]
    rfl

def cveName (k : ℕ) : String := "CVE-2024-" ++ toString (1000 + k)

theorem cveName_injective : Function.Injective cveName := by
  intro j k h
  have hlist := congrArg String.toList h
  simp only [cveName, String.toList_append, Nat.toString_eq_repr, Nat.toList_repr] at hlist
  have hdigits := congrArg (fun ds => Nat.ofDigitChars 10 ds 0) (List.append_cancel_left hlist)
  simp only [Nat.ofDigitChars_ten_toDigits] at hdigits
  omega

theorem cveName_ne_empty (k : ℕ) : cveName k ≠ "" := by
  intro h
  have := congrArg String.length h
  rw [cveName, String.length_append] at this
  exact absurd this (by simp)

/-- The first CPE has a hundred CVEs, the second another one. EPSS answers the first request. -/
def crowdedFeeds : Feeds where
  kev := .catalog []
  nvd k _ := some (if k = 0 then (List.range 100).map fun i => { id := some (cveName i) }
    else [{ id := some (cveName 100) }])
  epss k ids := if k = 0 then some (ids.map fun x => .scored x (1 / 2) (9 / 10)) else none
  epss_requested k ids items h c s p hmem := by
    split at h
    · cases h
      obtain ⟨x, hx, heq⟩ := List.mem_map.mp hmem
      cases heq
      exact hx
    · cases h

theorem crowdedFeeds_wellFormed : WellFormed crowdedFeeds := by
  refine ⟨by decide, fun k cpe cves h c hc => ?_, fun k ids items h hmem => ?_⟩
  · obtain rfl := Option.some.inj h
    split at hc
    · obtain ⟨i, -, rfl⟩ := List.mem_map.mp hc
      exact ⟨_, rfl, cveName_ne_empty i⟩
    · rw [List.mem_singleton.mp hc]
      exact ⟨_, rfl, cveName_ne_empty 100⟩
  · change (if k = 0 then _ else none) = some items at h
    split at h
    · cases h
      obtain ⟨x, -, heq⟩ := List.mem_map.mp hmem
      cases heq
    · cases h

def crowdedCpes : List String := ["cpe:2.3:a:x:y", "cpe:2.3:a:x:z"]

/-- What `get_cves_for_cpe` makes of a record that has only its identifier. -/
theorem readCve_cveName (k : ℕ) : ∃ c, readCve { id := some (cveName k) } = some c ∧
    c.id = cveName k := by
  unfold readCve
  rw [Option.filter_some, if_pos (by simpa using cveName_ne_empty k)]
  exact ⟨_, rfl, rfl⟩

theorem map_id_getCvesForCpe (ks : List ℕ) :
    (getCvesForCpe (some (ks.map fun k => { id := some (cveName k) }))).map (·.id) =
      ks.map cveName := by
  rw [getCvesForCpe, Option.getD_some]
  induction ks with
  | nil => rfl
  | cons k ks ih =>
    obtain ⟨c, hc, hid⟩ := readCve_cveName k
    rw [List.map_cons, List.filterMap_cons_some hc, List.map_cons, List.map_cons, ih, hid]

/-- The hundred and first CVE is the first one of the second batch. -/
theorem cveIds_crowded :
    cveIds crowdedFeeds crowdedCpes = (List.range 100).map cveName ++ [cveName 100] := by
  have hfirst := map_id_getCvesForCpe (List.range 100)
  have hsecond := map_id_getCvesForCpe [100]
  have hnodup : ((List.range 101).map cveName).Nodup := List.nodup_range.map cveName_injective
  rw [List.range_succ, List.map_append] at hnodup
  have hmap : ∀ (cpe : String) (cs : List FoundCve),
      (cs.map fun c => (⟨c, cpe⟩ : MatchedCve)).map (·.id) = cs.map (·.id) :=
    fun _ _ => List.map_map
  change ((collect crowdedFeeds 0 crowdedCpes []).map (·.id)) = _
  simp only [crowdedCpes, collect, crowdedFeeds, if_pos, Nat.zero_add, Nat.one_ne_zero, if_false]
  rw [@foldl_addFound _ _ [], foldl_addFound, List.map_append, List.nil_append, hmap, hmap,
    hfirst]
  · exact congrArg _ hsecond
  · rw [List.nil_append, hmap, hfirst]
    exact hsecond.symm ▸ hnodup
  · rw [List.map_nil, List.nil_append, hfirst]
    exact (List.nodup_append.mp hnodup).1

/-- The requests for the first CPE fail. -/
def firstCpe (k : ℕ) : Bool := k = 0

/-- Without the first answer it is the first one of the first batch. -/
theorem cveIds_crowded_failNvd :
    cveIds (failNvd crowdedFeeds firstCpe) crowdedCpes = [cveName 100] := by
  have hsecond := map_id_getCvesForCpe [100]
  obtain ⟨c, hc⟩ : ∃ c, getCvesForCpe (some [{ id := some (cveName 100) }]) = [c] := by
    obtain ⟨c, hc, -⟩ := readCve_cveName 100
    exact ⟨c, List.filterMap_cons_some hc⟩
  have hfirst : getCvesForCpe none = [] := rfl
  change ((collect (failNvd crowdedFeeds firstCpe) 0 crowdedCpes []).map (·.id)) = _
  simp only [crowdedCpes, collect, failNvd, crowdedFeeds, firstCpe, decide_true, if_true,
    Nat.zero_add, Nat.one_ne_zero, decide_false, Bool.false_eq_true, if_false, hfirst,
    List.foldl_nil, hc, List.foldl_cons]
  rw [List.map_singleton, hc] at hsecond
  exact hsecond

theorem coveredBy_crowded : CoveredBy crowdedFeeds crowdedCpes 1 (cveName 100) := by
  have hbatch : batch (cveIds crowdedFeeds crowdedCpes) 1 = [cveName 100] := by
    rw [batch, cveIds_crowded, List.drop_left' (by simp)]
    rfl
  refine ⟨?_, hbatch ▸ List.mem_singleton_self _⟩
  rw [batchCount, cveIds_crowded, List.length_append, List.length_map, List.length_range]
  decide

theorem coveredBy_crowded_failNvd :
    CoveredBy (failNvd crowdedFeeds firstCpe) crowdedCpes 0 (cveName 100) := by
  rw [CoveredBy, cveIds_crowded_failNvd]
  exact ⟨by decide, List.mem_singleton_self _⟩

/-- The second batch gives no score, the first one does. -/
theorem lookup_crowded :
    (getEpssScores crowdedFeeds (cveIds crowdedFeeds crowdedCpes)).lookup (cveName 100) = none ∧
    (getEpssScores (failNvd crowdedFeeds firstCpe)
      (cveIds (failNvd crowdedFeeds firstCpe) crowdedCpes)).lookup (cveName 100) =
        some (1 / 2, 9 / 10) := by
  rw [lookup_of_coveredBy crowdedFeeds_wellFormed coveredBy_crowded,
    lookup_of_coveredBy (crowdedFeeds_wellFormed.failNvd firstCpe) coveredBy_crowded_failNvd]
  refine ⟨rfl, ?_⟩
  rw [epssResponse, cveIds_crowded_failNvd]
  simp [failNvd, crowdedFeeds, batch, mention, entryFor]

/-- If the request for the first CPE fails, the CVE of the second is in the batch that EPSS answers,
and so gets another score. -/
theorem shifted_batch_scored : ¬ ∀ (now : Time) (F : Feeds), WellFormed F →
    ∀ (e e' : Enricher) (cpes : List String) (answer : Answer),
      enrichAsset now F e cpes = .ok (e', answer) →
    ∀ (N : ℕ → Bool) (e'' : Enricher) (answer' : Answer),
      enrichAsset now (failNvd F N) e cpes = .ok (e'', answer') →
    ∀ x, (∀ k cpe, Contains F cpes k cpe x → N k = false) → answer'.find x = answer.find x := by
  intro hclaim
  obtain ⟨e', answer, hrun⟩ :=
    exists_enrichAsset 0 crowdedFeeds_wellFormed .fresh crowdedCpes
  obtain ⟨e'', answer', hrun'⟩ :=
    exists_enrichAsset 0 (crowdedFeeds_wellFormed.failNvd firstCpe) .fresh crowdedCpes
  -- the first answer does not contain the CVE
  have hother : ∀ k cpe, Contains crowdedFeeds crowdedCpes k cpe (cveName 100) →
      firstCpe k = false := by
    rintro k cpe ⟨-, cves, hcves, c, hc, hid⟩
    refine decide_eq_false fun hk => ?_
    obtain rfl := Option.some.inj hcves
    rw [if_pos hk] at hc
    obtain ⟨i, hi, rfl⟩ := List.mem_map.mp hc
    have hname : i = 100 := cveName_injective (Option.some.inj hid)
    rw [List.mem_range, hname] at hi
    exact lt_irrefl _ hi
  have hfind := hclaim 0 crowdedFeeds crowdedFeeds_wellFormed .fresh e' crowdedCpes answer hrun
    firstCpe e'' answer' hrun' (cveName 100) hother
  rw [find_enrichAsset hrun, find_enrichAsset hrun',
    firstMatch_failNvd crowdedFeeds_wellFormed hother] at hfind
  have hmem : cveName 100 ∈ cveIds crowdedFeeds crowdedCpes := by
    rw [cveIds_crowded]
    exact List.mem_append_right _ (List.mem_singleton_self _)
  obtain ⟨m, hm⟩ := Option.isSome_iff_exists.mp (mem_cveIds_iff.mp hmem)
  rw [hm, Option.map_some, Option.map_some] at hfind
  have hscore := congrArg EnrichedCve.epssScore (Option.some.inj hfind)
  obtain ⟨hnone, hsome⟩ := lookup_crowded
  simp only [addScores, id_of_firstMatch hm, hnone, hsome, Option.map_some, Option.map_none,
    Option.getD_some, Option.getD_none] at hscore
  exact absurd hscore (by decide +kernel)

end Kepryx.EnrichmentMerge
