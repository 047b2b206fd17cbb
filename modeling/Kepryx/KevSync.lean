import Kepryx.CveFeeds
import Kepryx.RiskWriters

/-!
# The synchronisation of the KEV catalog

`_sync_cve_feeds` goes through the catalog. A CVE that is stored gets the flag and the date, a
CVE that is not gets a row with the flag alone, and a CVE that left the catalog is not looked at.
-/
namespace Kepryx.KevSync
open Kepryx.Models Kepryx.Results Kepryx.Tables Kepryx.CveFeeds Kepryx.RiskWriters

/-! ## The catalog -/

/-- What the synchronisation reads of an item of the feed. -/
structure KevItem where
  cveID : String
  dateAdded : Option String
  vulnerabilityName : Option String
  deriving DecidableEq, Repr

/-- `kev_cache`: a dictionary keyed by CVE, in which the last item about a CVE counts. -/
abbrev Catalog := Table KevItem.cveID

def readCatalog (vulnerabilities : List KevItem) : Catalog :=
  vulnerabilities.foldl Table.upsert .empty

/-- The answer to the catalog request. -/
inductive CatalogResponse where
  | vulnerabilities (items : List KevItem)
  | httpError
  | malformed
  deriving DecidableEq, Repr

/-- `load_kev_catalog(force=True)` of a new enricher. -/
def loadCatalog : CatalogResponse → Except FeedError Catalog
  | .vulnerabilities items => .ok (readCatalog items)
  | .httpError => .ok .empty
  | .malformed => .error .malformedCatalog

/-! ## `_sync_cve_feeds` -/

section Sync
variable (fromisoformat : String → Option Time)

/-- `datetime.fromisoformat(kev_data["date_added"])`, if there is a date and it can be read. -/
def dateOf (k : KevItem) : Option Time := (k.dateAdded.filter (· ≠ "")).bind fromisoformat

/-- The assignments to a stored CVE; a date that cannot be read is passed over. -/
def markExploited (k : KevItem) (cve : CVE) : CVE :=
  { cve with
    kev := true
    kevDateAdded := (dateOf fromisoformat k).or cve.kevDateAdded }

/-- The row for a CVE that is not stored. -/
def exploitedCve (now : Time) (k : KevItem) : CVE where
  id := k.cveID
  cvssV3 := none
  cvssVector := none
  epssScore := none
  epssPercentile := none
  kev := true
  description := k.vulnerabilityName
  affectedCpes := []
  lastSynced := now

/-- One turn of the loop; an identifier has at most 32 characters. -/
def syncEntry (now : Time) (cves : Table CVE.id) (k : KevItem) :
    Except DbError (Table CVE.id) :=
  match cves.find k.cveID with
  | some cve => .ok (cves.put (markExploited fromisoformat k cve))
  | none =>
    if 32 < k.cveID.length then .error .dataError
    else .ok (cves.upsert (exploitedCve now k))

/-- `_sync_cve_feeds` -/
def syncCveFeeds (now : Time) (response : CatalogResponse) (db : Database) :
    Except Failure Database :=
  match loadCatalog response with
  | .error e => .error (.feed e)
  | .ok kev =>
    match kev.rows.foldlM (syncEntry fromisoformat now) db.cves with
    | .error e => .error (.database e)
    | .ok cves => .ok { db with cves := cves }

/-! ## In step with the catalog -/

/-- The flags and dates are those of the catalog, and nothing else of a stored row changed. -/
structure Synced (kev : Catalog) (before after : Table CVE.id) : Prop where
  exploited : ∀ x, (∃ cve, after.find x = some cve ∧ cve.kev) ↔ (kev.find x).isSome
  dated : ∀ x k cve, kev.find x = some k → after.find x = some cve →
    cve.kevDateAdded = dateOf fromisoformat k
  unchanged : ∀ x cve, before.find x = some cve → ∃ cve', after.find x = some cve' ∧
    { cve' with kev := cve.kev, kevDateAdded := cve.kevDateAdded } = cve

/-- A run goes through and leaves the table in step with the catalog, and another one then
changes nothing. -/
def ExactAndIdempotent (now now' : Time) (vulnerabilities : List KevItem) (db : Database) : Prop :=
  ∃ db', syncCveFeeds fromisoformat now (.vulnerabilities vulnerabilities) db = .ok db' ∧
    Synced fromisoformat (readCatalog vulnerabilities) db.cves db'.cves ∧
    syncCveFeeds fromisoformat now' (.vulnerabilities vulnerabilities) db' = .ok db'

/-- Every item has a date that can be read. -/
def ValidDates (vulnerabilities : List KevItem) : Prop :=
  ∀ k ∈ vulnerabilities, (dateOf fromisoformat k).isSome

/-- Every CVE of the catalog is stored, and every stored CVE with the flag is in the catalog. -/
structure InStep (vulnerabilities : List KevItem) (db : Database) : Prop where
  stored : ∀ k ∈ vulnerabilities, (db.cves.find k.cveID).isSome
  listed : ∀ cve ∈ db.cves.rows, cve.kev → ∃ k ∈ vulnerabilities, k.cveID = cve.id

end Sync

/-! ## What the catalog holds -/

theorem mem_readCatalog {items : List KevItem} {k : KevItem} (h : k ∈ (readCatalog items).rows) :
    k ∈ items := by
  have hfold : ∀ (items : List KevItem) (t : Catalog), k ∈ (items.foldl Table.upsert t).rows →
      k ∈ items ∨ k ∈ t.rows := by
    intro items
    induction items with
    | nil => exact fun t hk => .inr hk
    | cons item items ih =>
      intro t hk
      rcases ih _ hk with hk | hk
      · exact .inl (List.mem_cons_of_mem _ hk)
      · rcases Table.mem_upsert.mp hk with rfl | ⟨hk, -⟩
        · exact .inl List.mem_cons_self
        · exact .inr hk
  exact (hfold items .empty h).resolve_right List.not_mem_nil

/-- The keys of the dictionary are the identifiers of the items. -/
theorem find_readCatalog_isSome {items : List KevItem} {x : String} :
    ((readCatalog items).find x).isSome ↔ ∃ k ∈ items, k.cveID = x := by
  have hfold : ∀ (items : List KevItem) (t : Catalog),
      ((items.foldl Table.upsert t).find x).isSome ↔
        (∃ k ∈ items, k.cveID = x) ∨ (t.find x).isSome := by
    intro items
    induction items with
    | nil => simp
    | cons item items ih =>
      intro t
      rw [List.foldl_cons, ih, Table.find_upsert]
      by_cases hx : item.cveID = x
      · simp [hx]
      · simp [hx]
  have h := hfold items .empty
  rw [show (Table.empty : Catalog).find x = none from rfl] at h
  simpa [readCatalog] using h

/-- The forced load of the enricher keeps the same identifiers. -/
theorem loadCatalog_keys (now : Time) (response : CatalogResponse) :
    (loadCatalog response).map (fun kev => kev.rows.map KevItem.cveID) =
      (loadKevCatalog now .fresh true (match response with
        | .vulnerabilities items => .catalog ((readCatalog items).rows.map KevItem.cveID)
        | .httpError => .httpError
        | .malformed => .malformed)).map Enricher.kevCache := by
  cases response <;> rfl

/-! ## What the loop writes -/

section Loop
variable {fromisoformat : String → Option Time} {now : Time}

/-- The row that an entry leaves. -/
def written (fromisoformat : String → Option Time) (now : Time) (k : KevItem) :
    Option CVE → CVE
  | some cve => markExploited fromisoformat k cve
  | none => exploitedCve now k

theorem find_syncEntry {cves cves' : Table CVE.id} {k : KevItem}
    (h : syncEntry fromisoformat now cves k = .ok cves') (x : String) :
    cves'.find x =
      if k.cveID = x then some (written fromisoformat now k (cves.find x)) else cves.find x := by
  unfold syncEntry at h
  cases hfind : cves.find k.cveID with
  | some cve =>
    rw [hfind] at h
    cases h
    have hkey : cve.id = k.cveID := Table.find_some_key hfind
    have hid : (markExploited fromisoformat k cve).id = k.cveID := hkey
    by_cases hx : k.cveID = x
    · have hself := Table.find_put_self (t := cves) (r := markExploited fromisoformat k cve)
        (by rw [hid, hfind]; rfl)
      rw [if_pos hx, ← hx, hfind, ← hid]
      exact hself
    · rw [if_neg hx, Table.find_put_of_ne (by rw [hid]; exact Ne.symm hx)]
  | none =>
    rw [hfind] at h
    obtain ⟨-, h⟩ := guard_eq_ok.mp h
    cases h
    rw [Table.find_upsert]
    by_cases hx : k.cveID = x
    · have hid : (exploitedCve now k).id = x := hx
      rw [if_pos hid, if_pos hx, ← hx, hfind]
      rfl
    · have hid : ¬ (exploitedCve now k).id = x := hx
      rw [if_neg hid, if_neg hx]

/-- The loop writes the row of every entry once, and no other. -/
theorem find_syncEntries {ks : List KevItem} (hnodup : (ks.map KevItem.cveID).Nodup)
    {cves cves' : Table CVE.id} (h : ks.foldlM (syncEntry fromisoformat now) cves = .ok cves')
    (x : String) : cves'.find x = match ks.find? fun k => k.cveID = x with
      | some k => some (written fromisoformat now k (cves.find x))
      | none => cves.find x := by
  induction ks generalizing cves with
  | nil =>
    cases h
    rfl
  | cons k ks ih =>
    obtain ⟨hk, hnodup⟩ := List.nodup_cons.mp hnodup
    rw [List.foldlM_cons] at h
    obtain ⟨cves₁, h₁, h⟩ := bind_eq_ok.mp h
    rw [ih hnodup h, find_syncEntry h₁]
    by_cases hx : k.cveID = x
    · have hrest : ks.find? (fun d => d.cveID = x) = none := by
        refine List.find?_eq_none.mpr fun d hd he => hk ?_
        exact List.mem_map.mpr ⟨d, hd, (of_decide_eq_true he).trans hx.symm⟩
      simp [hrest, hx]
    · simp [hx]

/-- If every entry is stored, the loop goes through. -/
theorem syncEntries_ok {ks : List KevItem} {cves : Table CVE.id}
    (h : ∀ k ∈ ks, (cves.find k.cveID).isSome) :
    ∃ cves', ks.foldlM (syncEntry fromisoformat now) cves = .ok cves' := by
  induction ks generalizing cves with
  | nil => exact ⟨cves, rfl⟩
  | cons k ks ih =>
    obtain ⟨cve, hcve⟩ := Option.isSome_iff_exists.mp (h k List.mem_cons_self)
    have hstep : syncEntry fromisoformat now cves k =
        .ok (cves.put (markExploited fromisoformat k cve)) := by rw [syncEntry, hcve]
    have hnext : ∀ d ∈ ks,
        ((cves.put (markExploited fromisoformat k cve)).find d.cveID).isSome := by
      intro d hd
      rw [find_syncEntry hstep]
      split
      · rfl
      · exact h d (List.mem_cons_of_mem k hd)
    obtain ⟨cves', hrest⟩ := ih hnext
    exact ⟨cves', by rw [List.foldlM_cons, hstep, ok_bind, hrest]⟩

/-- Where every entry has its row already, the loop changes nothing. -/
theorem syncEntries_eq_self {ks : List KevItem} {cves : Table CVE.id}
    (h : ∀ k ∈ ks, ∃ cve, cves.find k.cveID = some cve ∧
      markExploited fromisoformat k cve = cve) :
    ks.foldlM (syncEntry fromisoformat now) cves = .ok cves := by
  induction ks with
  | nil => rfl
  | cons k ks ih =>
    obtain ⟨cve, hcve, hsame⟩ := h k List.mem_cons_self
    have hstep : syncEntry fromisoformat now cves k = .ok cves := by
      simp only [syncEntry, hcve, hsame, Table.put_self (Table.find_eq_some.mp hcve).1]
    rw [List.foldlM_cons, hstep, ok_bind]
    exact ih fun d hd => h d (List.mem_cons_of_mem k hd)

/-- An entry marks a row once and for all. -/
theorem markExploited_twice (k : KevItem) (cve : CVE) :
    markExploited fromisoformat k (markExploited fromisoformat k cve) =
      markExploited fromisoformat k cve := by
  have hdate : (dateOf fromisoformat k).or ((dateOf fromisoformat k).or cve.kevDateAdded) =
      (dateOf fromisoformat k).or cve.kevDateAdded := by
    rw [← Option.or_assoc, Option.or_self]
  simp only [markExploited, hdate]

theorem syncCveFeeds_ok {items : List KevItem} {db db' : Database} :
    syncCveFeeds fromisoformat now (.vulnerabilities items) db = .ok db' ↔
      ∃ cves, (readCatalog items).rows.foldlM (syncEntry fromisoformat now) db.cves = .ok cves ∧
        { db with cves := cves } = db' := by
  simp only [syncCveFeeds, loadCatalog]
  generalize (readCatalog items).rows.foldlM (syncEntry fromisoformat now) db.cves = run
  cases run with
  | error e => simp
  | ok cves => simp

/-- A run writes the row of every CVE of the catalog, and no other. -/
theorem find_syncCveFeeds {items : List KevItem} {db db' : Database}
    (h : syncCveFeeds fromisoformat now (.vulnerabilities items) db = .ok db') (x : String) :
    db'.cves.find x = match (readCatalog items).find x with
      | some k => some (written fromisoformat now k (db.cves.find x))
      | none => db.cves.find x := by
  obtain ⟨cves, hloop, rfl⟩ := syncCveFeeds_ok.mp h
  exact find_syncEntries (readCatalog items).nodup hloop x

/-! ## When the table is in step with the catalog -/

variable {vulnerabilities : List KevItem}

theorem dateOf_isSome (hdates : ValidDates fromisoformat vulnerabilities) {x : String} {k : KevItem}
    (h : (readCatalog vulnerabilities).find x = some k) : (dateOf fromisoformat k).isSome :=
  hdates _ (mem_readCatalog (Table.find_eq_some.mp h).1)

theorem find_readCatalog_eq_none {x : String} :
    (readCatalog vulnerabilities).find x = none ↔ ¬ ∃ k ∈ vulnerabilities, k.cveID = x := by
  rw [← find_readCatalog_isSome, Option.not_isSome_iff_eq_none]

/-- A run that leaves the table in step with the catalog found it so, but for dates. -/
theorem inStep_of_synced (hdates : ValidDates fromisoformat vulnerabilities) {db db' : Database}
    (hrun : syncCveFeeds fromisoformat now (.vulnerabilities vulnerabilities) db = .ok db')
    (hsynced : Synced fromisoformat (readCatalog vulnerabilities) db.cves db'.cves) :
    InStep vulnerabilities db := by
  refine ⟨fun k hk => ?_, fun cve hcve hkev => ?_⟩
  · obtain ⟨k', hk'⟩ := Option.isSome_iff_exists.mp (find_readCatalog_isSome.mpr ⟨k, hk, rfl⟩)
    by_contra hnone
    rw [Option.not_isSome_iff_eq_none] at hnone
    -- a new row has no date
    have hrow := find_syncCveFeeds hrun k.cveID
    rw [hk', hnone] at hrow
    have hsome := dateOf_isSome hdates hk'
    rw [← hsynced.dated _ _ _ hk' hrow] at hsome
    cases hsome
  · by_contra hnot
    -- a row that is not listed keeps its flag
    have hmissing := find_readCatalog_eq_none.mpr hnot
    have hrow := find_syncCveFeeds hrun cve.id
    rw [hmissing, Table.find_key hcve] at hrow
    have hsome := (hsynced.exploited cve.id).mp ⟨cve, hrow, hkev⟩
    rw [hmissing] at hsome
    cases hsome

/-- Every CVE of the catalog has a row, and is marked in it. -/
theorem find_syncCveFeeds_listed {db db' : Database} (hstep : InStep vulnerabilities db)
    (hrun : syncCveFeeds fromisoformat now (.vulnerabilities vulnerabilities) db = .ok db')
    {x : String} {k : KevItem} (hk : (readCatalog vulnerabilities).find x = some k) :
    ∃ cve, db.cves.find x = some cve ∧
      db'.cves.find x = some (markExploited fromisoformat k cve) := by
  obtain ⟨hmem, rfl⟩ := Table.find_eq_some.mp hk
  obtain ⟨cve, hcve⟩ := Option.isSome_iff_exists.mp (hstep.stored k (mem_readCatalog hmem))
  have hrow := find_syncCveFeeds hrun k.cveID
  rw [hk, hcve] at hrow
  exact ⟨cve, hcve, hrow⟩

theorem find_syncCveFeeds_unlisted {db db' : Database}
    (hrun : syncCveFeeds fromisoformat now (.vulnerabilities vulnerabilities) db = .ok db')
    {x : String} (hk : (readCatalog vulnerabilities).find x = none) :
    db'.cves.find x = db.cves.find x := by
  have hrow := find_syncCveFeeds hrun x
  rwa [hk] at hrow

/-- A run from a table in step with the catalog, but for dates, leaves it so. -/
theorem synced_of_inStep (hdates : ValidDates fromisoformat vulnerabilities) {db db' : Database}
    (hstep : InStep vulnerabilities db)
    (hrun : syncCveFeeds fromisoformat now (.vulnerabilities vulnerabilities) db = .ok db') :
    Synced fromisoformat (readCatalog vulnerabilities) db.cves db'.cves := by
  refine ⟨fun x => ?_, fun x k cve' hk hcve' => ?_, fun x cve hcve => ?_⟩
  · cases hk : (readCatalog vulnerabilities).find x with
    | some k =>
      obtain ⟨cve, -, hrow⟩ := find_syncCveFeeds_listed hstep hrun hk
      exact iff_of_true ⟨_, hrow, rfl⟩ rfl
    | none =>
      refine iff_of_false ?_ Bool.false_ne_true
      rintro ⟨cve, hcve, hkev⟩
      rw [find_syncCveFeeds_unlisted hrun hk] at hcve
      obtain ⟨hmem, rfl⟩ := Table.find_eq_some.mp hcve
      exact find_readCatalog_eq_none.mp hk (hstep.listed cve hmem hkev)
  · obtain ⟨cve, -, hrow⟩ := find_syncCveFeeds_listed hstep hrun hk
    obtain ⟨t, ht⟩ := Option.isSome_iff_exists.mp (dateOf_isSome hdates hk)
    rw [hcve'] at hrow
    cases hrow
    simp [markExploited, ht]
  · cases hk : (readCatalog vulnerabilities).find x with
    | some k =>
      obtain ⟨cve', hcve', hrow⟩ := find_syncCveFeeds_listed hstep hrun hk
      obtain rfl := Option.some.inj (hcve.symm.trans hcve')
      exact ⟨_, hrow, rfl⟩
    | none => exact ⟨cve, (find_syncCveFeeds_unlisted hrun hk).trans hcve, rfl⟩

/-- A second run changes nothing. -/
theorem syncCveFeeds_again {db db' : Database} (hstep : InStep vulnerabilities db)
    (hrun : syncCveFeeds fromisoformat now (.vulnerabilities vulnerabilities) db = .ok db')
    (now' : Time) :
    syncCveFeeds fromisoformat now' (.vulnerabilities vulnerabilities) db' = .ok db' := by
  refine syncCveFeeds_ok.mpr ⟨db'.cves, syncEntries_eq_self fun k hk => ?_, rfl⟩
  obtain ⟨cve, -, hrow⟩ := find_syncCveFeeds_listed hstep hrun (Table.find_key hk)
  exact ⟨_, hrow, markExploited_twice k cve⟩

end Loop

/-- The synchronisation is exact and idempotent when the catalog lists only stored CVEs and every
flag that is stored. -/
theorem exactAndIdempotent_iff (fromisoformat : String → Option Time) (now now' : Time)
    {vulnerabilities : List KevItem} (hdates : ValidDates fromisoformat vulnerabilities)
    (db : Database) :
    ExactAndIdempotent fromisoformat now now' vulnerabilities db ↔ InStep vulnerabilities db := by
  constructor
  · rintro ⟨db', hrun, hsynced, -⟩
    exact inStep_of_synced hdates hrun hsynced
  · intro hstep
    obtain ⟨cves, hloop⟩ : ∃ cves, (readCatalog vulnerabilities).rows.foldlM
        (syncEntry fromisoformat now) db.cves = .ok cves :=
      syncEntries_ok fun k hk => hstep.stored k (mem_readCatalog hk)
    have hrun := syncCveFeeds_ok.mpr ⟨cves, hloop, rfl⟩
    exact ⟨_, hrun, synced_of_inStep hdates hstep hrun, syncCveFeeds_again hstep hrun now'⟩

/-- A reading of the dates that the examples use. -/
def readDate (s : String) : Option Time := if s = "2021-11-03" then some 1635897600 else none

/-- A stored CVE that left the catalog. -/
def leftCatalog : Database where
  assets := .empty
  cves := ⟨[
    { id := "CVE-2020-0001", cvssV3 := none, cvssVector := none, epssScore := none,
      epssPercentile := none, kev := true, description := none, affectedCpes := [],
      lastSynced := 0 }], List.nodup_singleton _⟩
  assetCves := .empty
  alerts := []

def newItem : KevItem :=
  { cveID := "CVE-2021-0002", dateAdded := some "2021-11-03", vulnerabilityName := some "Overflow" }

/-- The run keeps the flag of the CVE that left the catalog, and writes the new one without its
date, which a second run adds. -/
theorem sync_not_exact : ¬ ExactAndIdempotent readDate 0 0 [newItem] leftCatalog := by
  rintro ⟨db', hrun, hsynced, -⟩
  have hdated := hsynced.dated "CVE-2021-0002" newItem (exploitedCve 0 newItem) rfl
    (by rw [find_syncCveFeeds hrun]; rfl)
  exact absurd hdated (by decide)

theorem exactAndIdempotent_iff_new :
    ExactAndIdempotent readDate 0 60 [newItem] leftCatalog ↔ InStep [newItem] leftCatalog :=
  exactAndIdempotent_iff readDate 0 60
    (by intro k hk; rw [List.mem_singleton.mp hk]; rfl) leftCatalog

end Kepryx.KevSync
