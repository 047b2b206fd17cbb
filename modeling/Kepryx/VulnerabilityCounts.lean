import Kepryx.GraphEvidence
import Kepryx.GroupedFold
import Kepryx.RiskPaths

/-!
# Counting the vulnerabilities of an asset

`GET /assets` counts the links of the assets of a page in one aggregate, the inventory export
sums over the loaded links of each row, and rescoring builds the list that the risk engine gets.
The export and rescoring leave out what is suppressed or remediated; the aggregate does not.
-/
namespace Kepryx.VulnerabilityCounts

open Kepryx.Models Kepryx.Tables Kepryx.RiskEngine Kepryx.RiskWriters Kepryx.GroupedFold
open Kepryx.InventoryGraph (OrderBy)

/-- A state of the database: every link names a stored CVE. -/
structure Linked extends Database where
  linked : ∀ l ∈ assetCves.rows, (cves.find l.cveId).isSome

/-- The number of CVEs and of those known to be exploited. -/
structure Counts where
  cve : ℕ
  kev : ℕ
  deriving DecidableEq, Repr

/-! ## `list_assets` -/

/-- The query parameters of `GET /assets`. -/
structure ListQuery where
  riskTier : Option String := none
  segment : Option String := none
  isShadow : Option Bool := none
  search : Option String := none
  page : ℕ := 1
  pageSize : ℕ := 50
  page_pos : 1 ≤ page := by decide
  pageSize_bounds : 1 ≤ pageSize ∧ pageSize ≤ 500 := by decide

/-- What the database decides: which texts match a pattern of `ILIKE`, how assets of equal risk
are ordered, and the order of a query that names none. -/
structure Backend where
  ilike : String → String → Bool
  byRisk : OrderBy fun a : Asset => a.riskScore
  unordered : List Asset → List Asset
  unordered_perm : ∀ rows, (unordered rows).Perm rows

/-- The stored text of a tier. -/
def tierText : Tier → String
  | .critical => "Critical"
  | .high => "High"
  | .medium => "Medium"
  | .low => "Low"
  | .informational => "Informational"

/-- The `where` clauses; an empty text asks for nothing. -/
def selected (B : Backend) (q : ListQuery) (a : Asset) : Bool :=
  (q.riskTier.filter (· ≠ "")).all (· = tierText a.riskTier) &&
  (q.segment.filter (· ≠ "")).all (a.segment = some ·) &&
  q.isShadow.all (a.isShadow = ·) &&
  (q.search.filter (· ≠ "")).all fun search =>
    let like := "%" ++ search ++ "%"
    B.ilike like a.name || a.os.any (B.ilike like)

/-- `result.scalars().all()` -/
def pageAssets (B : Backend) (db : Database) (q : ListQuery) : List Asset :=
  ((B.byRisk.arrange (db.assets.rows.filter (selected B q))).drop
    ((q.page - 1) * q.pageSize)).take q.pageSize

/-- Links joined with their CVEs. -/
def joined (db : Database) (links : List AssetCVE) : List (AssetCVE × CVE) :=
  links.filterMap fun l => (db.cves.find l.cveId).map fun c => (l, c)

/-- `func.count(AssetCVE.cve_id)` and the same count with `filter(CVE.kev.is_(True))`, after one
more row of the group. -/
def Counts.add (n : Counts) (row : AssetCVE × CVE) : Counts :=
  ⟨n.cve + 1, if row.2.kev then n.kev + 1 else n.kev⟩

/-- `cve_counts`: the aggregate over the links of the assets `ids`, by asset. -/
def cveCounts (db : Database) (ids : List ℕ) : Dict ℕ Counts :=
  group (fun row : AssetCVE × CVE => row.1.assetId) ⟨0, 0⟩ Counts.add
    (joined db (db.assetCves.rows.filter fun l => l.assetId ∈ ids))

/-- A row with its two counts; what else an item shows are columns of the row. -/
structure Item where
  asset : Asset
  counts : Counts
  deriving DecidableEq, Repr

structure Listing where
  items : List Item
  total : ℕ
  page : ℕ
  pageSize : ℕ
  deriving DecidableEq, Repr

/-- `list_assets` -/
def listAssets (B : Backend) (db : Database) (q : ListQuery) : Listing where
  items :=
    let assets := pageAssets B db q
    let counts := cveCounts db (assets.map fun a => a.id)
    assets.map fun a => ⟨a, (counts a.id).getD ⟨0, 0⟩⟩
  total := (db.assets.rows.filter (selected B q)).length
  page := q.page
  pageSize := q.pageSize

/-! ## `export_inventory` -/

/-- `link.cve.kev` -/
def linkKev (db : Database) (l : AssetCVE) : Bool := (db.cves.find l.cveId).any (·.kev)

/-- The two sums over `a.cves`. -/
def exportCounts (db : Database) (assetId : ℕ) : Counts where
  cve := (((linksOf db assetId).filter active).map fun _ => 1).sum
  kev := (((linksOf db assetId).filter fun l => active l && linkKev db l).map fun _ => 1).sum

/-- `export_inventory`, each row with the columns `CVE Count` and `KEV Count`. -/
def exportInventory (B : Backend) (db : Database) (limit : ℕ) : List Item :=
  ((B.unordered db.assets.rows).take limit).map fun a => ⟨a, exportCounts db a.id⟩

/-! ## `_rescore_assets` -/

/-- The entries of `cve_data`, which `compute_risk` gets, and those known to be exploited. -/
def fedCounts (db : Database) (assetId : ℕ) : Counts where
  cve := (activeEvidence db assetId).length
  kev := ((activeEvidence db assetId).filter (·.kev)).length

/-- Every asset of the page has in the listing, in each of its rows of the export and in
rescoring the same two counts. -/
def CountsAgree (B : Backend) (db : Database) (q : ListQuery) (limit : ℕ) : Prop :=
  ∀ item ∈ (listAssets B db q).items,
    item.counts = fedCounts db item.asset.id ∧
    ∀ row ∈ exportInventory B db limit, row.asset.id = item.asset.id →
      row.counts = item.counts

/-! ## One count with two filters -/

/-- The links of an asset that meet `p`, and those of them whose CVE is exploited. -/
def countsOf (db : Database) (assetId : ℕ) (p : AssetCVE → Bool) : Counts where
  cve := ((linksOf db assetId).filter p).length
  kev := ((linksOf db assetId).filter fun l => p l && linkKev db l).length

/-- The whole of the links counts as much as a part exactly when the part is the whole. -/
theorem countsOf_eq_iff (db : Database) (i : ℕ) (p : AssetCVE → Bool) :
    countsOf db i (fun _ => true) = countsOf db i p ↔ ∀ l ∈ linksOf db i, p l := by
  simp only [countsOf, Counts.mk.injEq, List.filter_true, Bool.true_and]
  constructor
  · rintro ⟨hcve, -⟩
    exact List.length_filter_eq_length_iff.mp hcve.symm
  · intro hall
    have hkev : ∀ l ∈ linksOf db i, linkKev db l = (p l && linkKev db l) := by
      intro l hl
      rw [hall l hl, Bool.true_and]
    constructor
    · rw [List.filter_eq_self.mpr hall]
    · rw [List.filter_congr hkev]

@[simp] theorem exportCounts_eq (db : Database) (i : ℕ) :
    exportCounts db i = countsOf db i active := by
  simp [exportCounts, countsOf]

theorem mem_rows_of_mem_linksOf {db : Database} {i : ℕ} {l : AssetCVE}
    (hl : l ∈ linksOf db i) : l ∈ db.assetCves.rows := (List.mem_filter.mp hl).1

theorem cvesOf_cons (db : Database) (l : AssetCVE) (links : List AssetCVE) :
    cvesOf db (l :: links) = (db.cves.find l.cveId).toList ++ cvesOf db links := by
  cases hcve : db.cves.find l.cveId with
  | none => simp [cvesOf, hcve]
  | some cve => simp [cvesOf, hcve]

/-- Every link that names a stored CVE gives one entry. -/
theorem length_cvesOf {db : Database} {links : List AssetCVE}
    (hlinked : ∀ l ∈ links, (db.cves.find l.cveId).isSome) :
    (cvesOf db links).length = links.length := by
  induction links with
  | nil => rfl
  | cons l links ih =>
    obtain ⟨cve, hcve⟩ := Option.isSome_iff_exists.mp (hlinked l (List.mem_cons_self ..))
    have hrest := ih fun l' hl' => hlinked l' (List.mem_cons_of_mem _ hl')
    rw [cvesOf_cons, hcve, List.length_append, hrest, List.length_cons, Nat.add_comm]
    rfl

/-- A link without a stored CVE is none of an exploited one. -/
theorem length_filter_cvesOf (db : Database) (links : List AssetCVE) :
    ((cvesOf db links).filter (·.kev)).length = (links.filter (linkKev db)).length := by
  induction links with
  | nil => rfl
  | cons l links ih =>
    rw [cvesOf_cons, List.filter_append, List.length_append, ih]
    cases hcve : db.cves.find l.cveId with
    | none => simp [linkKev, hcve]
    | some cve =>
      have hkev : linkKev db l = cve.kev := by simp [linkKev, hcve]
      cases hk : cve.kev with
      | true => simp [hkev, hk, Nat.add_comm]
      | false => simp [hkev, hk]

/-- Rescoring reads the links that the export counts. -/
theorem fedCounts_eq (db : Linked) (i : ℕ) :
    fedCounts db.toDatabase i = countsOf db.toDatabase i active := by
  have hlinked : ∀ l ∈ (linksOf db.toDatabase i).filter active,
      (db.cves.find l.cveId).isSome := fun l hl =>
    db.linked l (mem_rows_of_mem_linksOf (List.mem_filter.mp hl).1)
  have hkev : ((activeEvidence db.toDatabase i).filter (·.kev)).length =
      (((linksOf db.toDatabase i).filter active).filter (linkKev db.toDatabase)).length := by
    rw [activeEvidence, List.filter_map, List.length_map, ← length_filter_cvesOf]
    rfl
  rw [fedCounts, countsOf, hkev, List.filter_filter, activeEvidence, List.length_map,
    length_cvesOf hlinked]
  simp only [Bool.and_comm]

/-! ## The aggregate -/

theorem foldl_counts (n : Counts) (rows : List (AssetCVE × CVE)) :
    rows.foldl Counts.add n =
      ⟨n.cve + rows.length, n.kev + (rows.filter fun row => row.2.kev).length⟩ := by
  induction rows generalizing n with
  | nil => rfl
  | cons row rows ih =>
    rw [List.foldl_cons, ih, Counts.add, List.length_cons, List.filter_cons, Counts.mk.injEq]
    constructor
    · show n.cve + 1 + rows.length = n.cve + (rows.length + 1)
      omega
    · by_cases hkev : row.2.kev
      · simp only [hkev, if_true, List.length_cons]
        omega
      · simp only [hkev, Bool.false_eq_true, if_false]

/-- The CVEs of joined links are the CVEs of the links. -/
theorem map_snd_joined (db : Database) (links : List AssetCVE) :
    (joined db links).map Prod.snd = cvesOf db links := by
  rw [joined, cvesOf, List.map_filterMap]
  congr 1
  ext l
  simp

/-- A condition on the links of joined rows may be asked before the join. -/
theorem filter_joined_eq (db : Database) (p : AssetCVE → Bool) (links : List AssetCVE) :
    (joined db links).filter (fun row => p row.1) = joined db (links.filter p) := by
  induction links with
  | nil => rfl
  | cons l links ih =>
    rw [joined] at ih ⊢
    cases hp : p l with
    | true => cases hcve : db.cves.find l.cveId <;> simp [hp, hcve, ih, joined]
    | false => cases hcve : db.cves.find l.cveId <;> simp [hp, hcve, ih]

/-- The group of an asset among the joined links of several is the joined links of its own. -/
theorem filter_joined {db : Database} {ids : List ℕ} {i : ℕ} (hi : i ∈ ids) :
    (joined db (db.assetCves.rows.filter fun l => l.assetId ∈ ids)).filter
        (fun row => row.1.assetId = i) = joined db (linksOf db i) := by
  have hown : (linksOf db i).filter (fun l => l.assetId ∈ ids) = linksOf db i := by
    refine List.filter_eq_self.mpr fun l hl => ?_
    have hl' : l.assetId = i := by simpa using (List.mem_filter.mp hl).2
    simp [hl', hi]
  rw [filter_joined_eq db (fun l => l.assetId = i), List.filter_filter, ← hown, linksOf,
    List.filter_filter]
  simp only [Bool.and_comm]

/-- What the listing shows counts every link. -/
theorem cveCounts_eq (db : Linked) {ids : List ℕ} {i : ℕ} (hi : i ∈ ids) :
    (cveCounts db.toDatabase ids i).getD ⟨0, 0⟩ =
      countsOf db.toDatabase i fun _ => true := by
  have hlinked : ∀ l ∈ linksOf db.toDatabase i, (db.cves.find l.cveId).isSome := fun l hl =>
    db.linked l (mem_rows_of_mem_linksOf hl)
  have hcve : (joined db.toDatabase (linksOf db.toDatabase i)).length =
      (linksOf db.toDatabase i).length := by
    rw [← length_cvesOf hlinked, ← map_snd_joined, List.length_map]
  have hkev : ((joined db.toDatabase (linksOf db.toDatabase i)).filter
      fun row => row.2.kev).length =
        ((linksOf db.toDatabase i).filter (linkKev db.toDatabase)).length := by
    rw [← length_filter_cvesOf, ← map_snd_joined, List.filter_map, List.length_map]
    rfl
  rw [cveCounts, group_getD, filter_joined hi, foldl_counts, hcve, hkev, countsOf]
  simp

/-! ## Where the counts agree -/

/-- The listing of an asset agrees with rescoring exactly when all its links are active. -/
theorem item_agrees_iff {B : Backend} {db : Linked} {q : ListQuery} {item : Item}
    (hitem : item ∈ (listAssets B db.toDatabase q).items) :
    item.counts = fedCounts db.toDatabase item.asset.id ↔
      ∀ l ∈ linksOf db.toDatabase item.asset.id, active l := by
  obtain ⟨a, ha, rfl⟩ := List.mem_map.mp hitem
  rw [cveCounts_eq db (List.mem_map.mpr ⟨a, ha, rfl⟩), fedCounts_eq, countsOf_eq_iff]

/-- The export always agrees with rescoring. -/
theorem exported_counts {B : Backend} {db : Linked} {limit : ℕ} {row : Item}
    (hrow : row ∈ exportInventory B db.toDatabase limit) :
    row.counts = fedCounts db.toDatabase row.asset.id := by
  obtain ⟨a, -, rfl⟩ := List.mem_map.mp hrow
  rw [exportCounts_eq, fedCounts_eq]

theorem counts_agree_iff (B : Backend) (db : Linked) (q : ListQuery) (limit : ℕ) :
    CountsAgree B db.toDatabase q limit ↔ ∀ a ∈ pageAssets B db.toDatabase q,
      ∀ l ∈ linksOf db.toDatabase a.id, l.suppressed = false ∧ l.remediated = false := by
  have hactive : ∀ l, active l ↔ l.suppressed = false ∧ l.remediated = false := by
    simp [active]
  simp only [← hactive]
  constructor
  · intro hagree a ha
    have hitem := List.mem_map_of_mem (f := fun a : Asset => (⟨a, (cveCounts db.toDatabase
      ((pageAssets B db.toDatabase q).map fun a => a.id) a.id).getD ⟨0, 0⟩⟩ : Item)) ha
    exact (item_agrees_iff hitem).mp (hagree _ hitem).1
  · intro hall item hitem
    obtain ⟨a, ha, hasset⟩ : ∃ a ∈ pageAssets B db.toDatabase q, item.asset = a := by
      obtain ⟨a, ha, rfl⟩ := List.mem_map.mp hitem
      exact ⟨a, ha, rfl⟩
    have hitem' := (item_agrees_iff hitem).mpr (hasset ▸ hall a ha)
    refine ⟨hitem', fun row hrow hid => ?_⟩
    rw [exported_counts hrow, hid, hitem']

/-- A database that knows no pattern and keeps the order of the table. -/
def plainBackend : Backend where
  ilike _ _ := false
  byRisk := GraphEvidence.inTableOrder _
  unordered rows := rows
  unordered_perm _ := .rfl

/-- An asset with a suppressed link to an exploited CVE and an active link to another. -/
def suppressedKev : Linked := { RiskPaths.suppressedKev with linked := by decide }

/-- The listing shows two CVEs of the asset, one of them exploited; the export shows one that
is not. -/
theorem suppressed_link_listed :
    (listAssets plainBackend suppressedKev.toDatabase {}).items.map Item.counts = [⟨2, 1⟩] ∧
    (exportInventory plainBackend suppressedKev.toDatabase 10000).map Item.counts = [⟨1, 0⟩] ∧
    ¬ CountsAgree plainBackend suppressedKev.toDatabase {} 10000 := by
  refine ⟨by decide +kernel, by decide +kernel, ?_⟩
  unfold CountsAgree
  decide +kernel

end Kepryx.VulnerabilityCounts
