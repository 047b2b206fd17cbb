import Kepryx.InventoryGraph

/-!
# The evidence of each asset in the inventory graph

The caps of two alerts and four CVEs for each asset are applied to the rows of a query that has a
limit of its own, over all assets. A graph that was refused no node has the capped evidence of
every asset exactly where that limit cut off none of it.
-/
namespace Kepryx.GraphEvidence

open Kepryx.Tables Kepryx.BoundedGraph Kepryx.InventoryGraph
open Kepryx.Models (CVE Time)

variable {T : Texts} {Q : Orders} {db : Database} {limit : ℕ}

/-- The edges of one relation that leave an asset. -/
def edgesFrom (relation : Relation) (id : String) (edges : List GraphEdge) : ℕ :=
  edges.countP fun e => e.relation = relation && e.source = assetId id

theorem edgesFrom_append (relation : Relation) (id : String) (es fs : List GraphEdge) :
    edgesFrom relation id (es ++ fs) = edgesFrom relation id es + edgesFrom relation id fs :=
  List.countP_append

theorem edgesFrom_eq_zero {relation : Relation} {id : String} {es : List GraphEdge}
    (h : ∀ e ∈ es, e.relation ≠ relation) : edgesFrom relation id es = 0 := by
  refine List.countP_eq_zero.mpr fun e he => ?_
  simp [h e he]

theorem edgesFrom_map_eq_zero {α : Type} {relation : Relation} {id : String} {rows : List α}
    {edge : α → GraphEdge} (h : ∀ r, (edge r).relation ≠ relation) :
    edgesFrom relation id (rows.map edge) = 0 := by
  refine edgesFrom_eq_zero fun e he => ?_
  obtain ⟨r, -, rfl⟩ := List.mem_map.mp he
  exact h r

/-! ## The rows of the two queries -/

theorem nodup_take_perm {α β : Type} {f : α → β} {rows arranged : List α} (n : ℕ)
    (hperm : arranged.Perm rows) (h : (rows.map f).Nodup) : ((arranged.take n).map f).Nodup :=
  (((List.take_sublist n arranged).map f).nodup) ((hperm.map f).nodup_iff.mpr h)

/-- The owner of an alert of the query. -/
def alertOwner (a : AlertRow) : String := a.assetId.getD ""

theorem alertRows_keys (ids : List String) :
    ((alertRows Q db limit ids).map fun r => (alertEdge T (alertOwner r) r).key).Nodup := by
  have hids : ((alertRows Q db limit ids).map AlertRow.id).Nodup :=
    nodup_take_perm _ (Q.alerts.perm _)
      ((List.filter_sublist.map AlertRow.id).nodup db.alerts.nodup)
  refine List.Nodup.of_map (fun k => k.2.1) ?_
  rw [List.map_map]
  have hinj : Function.Injective fun id : String => "alert:" ++ id := by
    intro a b h
    simpa using h
  have hnodup := hids.map hinj
  rw [List.map_map] at hnodup
  exact hnodup

theorem linkedCves_keys (ids : List String) :
    ((linkedCves db ids).map fun r => (r.1.assetId, r.2.id)).Nodup := by
  have hlinks : ((db.assetCves.rows.filter fun l => l.assetId ∈ ids).map AssetCVE.key).Nodup :=
    (List.filter_sublist.map AssetCVE.key).nodup db.assetCves.nodup
  unfold linkedCves
  generalize (db.assetCves.rows.filter fun l => l.assetId ∈ ids) = links at hlinks
  have hsub : ((links.filterMap fun l => (db.cves.find l.cveId).map fun c => (l, c)).map
      fun r => (r.1.assetId, r.2.id)).Sublist (links.map AssetCVE.key) := by
    clear hlinks
    induction links with
    | nil => simp
    | cons l links ih =>
      cases hc : db.cves.find l.cveId with
      | none =>
        rw [List.filterMap_cons_none (by simp [hc])]
        exact ih.trans (List.sublist_cons_self _ _)
      | some c =>
        have hid : c.id = l.cveId := Table.find_some_key hc
        rw [List.filterMap_cons_some (b := (l, c)) (by simp [hc])]
        simp only [List.map_cons, AssetCVE.key, hid]
        exact ih.cons_cons _
  exact hsub.nodup hlinks

theorem cveRows_keys (ids : List String) :
    ((cveRows Q db limit ids).map fun r => (cveEdge T r.1.assetId r).key).Nodup := by
  have hkeys : ((cveRows Q db limit ids).map fun r => (r.1.assetId, r.2.id)).Nodup :=
    nodup_take_perm _ (Q.cves.perm _) (linkedCves_keys ids)
  have hinj : Function.Injective fun k : String × String =>
      (assetId k.1, "cve:" ++ k.2, Relation.affectedBy) := by
    rintro ⟨a, c⟩ ⟨b, d⟩ h
    simpa [assetId] using h
  have hnodup := hkeys.map hinj
  rw [List.map_map] at hnodup
  exact hnodup

/-! ## The edges of a graph that was refused no node -/

/-- The alerts and links that the caps let through. -/
def keptAlerts (rows : List AlertRow) : List AlertRow :=
  keep 2 AlertRow.assetId (fun _ => 0) rows

def keptCves (rows : List (AssetCVE × CVE)) : List (AssetCVE × CVE) :=
  keep 4 linkOwner (fun _ => 0) rows

theorem addAlerts_edges {ids : List String} {g : Inventory limit}
    (hids : ∀ id ∈ ids, assetId id ∈ g.nodeIds) (hnew : ∀ e ∈ g.edges, e.relation ≠ .hasAlert)
    (ht : (addAlerts T (alertRows Q db limit ids) g).truncated = false) :
    (addAlerts T (alertRows Q db limit ids) g).edges = g.edges ++
      (keptAlerts (alertRows Q db limit ids)).map fun r => alertEdge T (alertOwner r) r := by
  refine Graph.foldl_cappedTurn_edges (s := (g, fun _ => 0)) ?_ ?_ ?_ (alertRows_keys ids) ?_ ht
  · intro r _ k hk
    simp [alertOwner, hk]
  · exact fun r _ => rfl
  · intro r hr
    obtain ⟨id, hid, ho⟩ := openAlerts_owner (mem_alertRows hr)
    have howner : alertOwner r = id := by simp [alertOwner, ho]
    rw [howner]
    exact hids id hid
  · intro r _ hmem
    obtain ⟨e, he, hkey⟩ := List.mem_map.mp hmem
    exact hnew e he (congrArg (fun k => k.2.2) hkey)

theorem addCves_edges {ids : List String} {g : Inventory limit}
    (hids : ∀ id ∈ ids, assetId id ∈ g.nodeIds) (hnew : ∀ e ∈ g.edges, e.relation ≠ .affectedBy)
    (ht : (addCves T (cveRows Q db limit ids) g).truncated = false) :
    (addCves T (cveRows Q db limit ids) g).edges = g.edges ++
      (keptCves (cveRows Q db limit ids)).map fun r => cveEdge T r.1.assetId r := by
  refine @Graph.foldl_cappedTurn_edges _ _ _ _ _ _ _ _ _ _ _ _ _ _ _ (g, fun _ => 0)
    (fun r => r.1.assetId) ?_ ?_ ?_ (cveRows_keys ids) ?_ ht
  · exact fun r _ k hk => Option.some.inj hk
  · exact fun r _ => rfl
  · exact fun r hr => hids _ (linkedCves_owner (mem_cveRows hr))
  · intro r _ hmem
    obtain ⟨e, he, hkey⟩ := List.mem_map.mp hmem
    exact hnew e he (congrArg (fun k => k.2.2) hkey)

theorem assetGraph_relation {e : GraphEdge} (he : e ∈ (assetGraph T Q db limit).edges) :
    e.relation ≠ .hasAlert ∧ e.relation ≠ .affectedBy := by
  rcases addAssets_relation he with he | he | he | he
  · simp at he
  · simp [he]
  · simp [he]
  · simp [he]

/-- The three groups of edges, in the order of the loops. -/
theorem buildGraph_edges (hne : assetRows Q db limit ≠ [])
    (ht : (buildGraph T Q db limit true).truncated = false) :
    let ids := (assetRows Q db limit).map AssetRow.id
    (buildGraph T Q db limit true).edges = (assetGraph T Q db limit).edges ++
      ((keptAlerts (alertRows Q db limit ids)).map fun r => alertEdge T (alertOwner r) r) ++
      (keptCves (cveRows Q db limit ids)).map fun r => cveEdge T r.1.assetId r := by
  intro ids
  have hids : ∀ id ∈ ids, assetId id ∈ (assetGraph T Q db limit).nodeIds := by
    intro id hid
    obtain ⟨a, ha, rfl⟩ := List.mem_map.mp hid
    exact assetGraph_covers ht a ha
  have hnodes : (assetGraph T Q db limit).nodes ≠ [] := by
    obtain ⟨a, ha⟩ := List.exists_mem_of_ne_nil _ hne
    obtain ⟨n, hn, -⟩ := List.mem_map.mp (assetGraph_covers ht a ha)
    exact List.ne_nil_of_mem hn
  have hbuild : buildGraph T Q db limit true = addCves T (cveRows Q db limit ids)
      (addAlerts T (alertRows Q db limit ids) (assetGraph T Q db limit)) := by
    have hcond : ids ≠ [] ∧ (addAssets T (assetRows Q db limit) Graph.empty : Inventory limit).nodes
        ≠ [] := ⟨by simpa [ids] using hne, hnodes⟩
    simp only [buildGraph]
    rw [if_pos hcond]
    rfl
  rw [hbuild] at ht ⊢
  have htAlerts := (addCves_grows _ _).not_truncated ht
  have halerts := addAlerts_edges hids (fun e he => (assetGraph_relation he).1) htAlerts
  have hgrows := addAlerts_grows (T := T) (alertRows Q db limit ids) (assetGraph T Q db limit)
  rw [addCves_edges (fun id hid => hgrows.nodeIds.subset (hids id hid)) ?_ ht, halerts]
  intro e he
  rw [halerts] at he
  rcases List.mem_append.mp he with he | he
  · exact (assetGraph_relation he).2
  · obtain ⟨r, -, rfl⟩ := List.mem_map.mp he
    simp [alertEdge]

/-! ## How many there are -/

theorem edgesFrom_alerts {rows : List AlertRow} (h : ∀ r ∈ rows, r.assetId ≠ none) (id : String) :
    edgesFrom .hasAlert id ((keptAlerts rows).map fun r => alertEdge T (alertOwner r) r) =
      min 2 (rows.countP (ownedBy AlertRow.assetId id)) := by
  have hcap := countP_keep 2 AlertRow.assetId id (fun _ => 0) rows
  rw [edgesFrom, List.countP_map, ← hcap]
  refine List.countP_congr fun r hr => ?_
  cases ho : r.assetId with
  | none => exact absurd ho (h r (mem_of_mem_keep _ _ hr))
  | some owner => simp [alertEdge, alertOwner, ownedBy, ho, assetId]

theorem edgesFrom_cves (rows : List (AssetCVE × CVE)) (id : String) :
    edgesFrom .affectedBy id ((keptCves rows).map fun r => cveEdge T r.1.assetId r) =
      min 4 (rows.countP (ownedBy linkOwner id)) := by
  have hcap := countP_keep 4 linkOwner id (fun _ => 0) rows
  rw [edgesFrom, List.countP_map, ← hcap]
  refine List.countP_congr fun r _ => ?_
  simp [cveEdge, linkOwner, ownedBy, assetId]

/-- The edges to the evidence of one asset: capped counts of the rows that the queries return. -/
theorem buildGraph_evidence (ht : (buildGraph T Q db limit true).truncated = false)
    {a : AssetRow} (ha : a ∈ assetRows Q db limit) :
    let ids := (assetRows Q db limit).map AssetRow.id
    edgesFrom .hasAlert a.id (buildGraph T Q db limit true).edges =
      min 2 ((alertRows Q db limit ids).countP (ownedBy AlertRow.assetId a.id)) ∧
    edgesFrom .affectedBy a.id (buildGraph T Q db limit true).edges =
      min 4 ((cveRows Q db limit ids).countP (ownedBy linkOwner a.id)) := by
  intro ids
  have hedges := buildGraph_edges (T := T) (List.ne_nil_of_mem ha) ht
  dsimp only at hedges
  rw [hedges, edgesFrom_append, edgesFrom_append, edgesFrom_append, edgesFrom_append]
  have hsome : ∀ r ∈ alertRows Q db limit ids, r.assetId ≠ none := by
    intro r hr hnone
    obtain ⟨id, -, ho⟩ := openAlerts_owner (mem_alertRows hr)
    rw [hnone] at ho
    cases ho
  have halerts := edgesFrom_alerts (T := T) hsome a.id
  have hcves := edgesFrom_cves (T := T) (cveRows Q db limit ids) a.id
  constructor
  · rw [edgesFrom_eq_zero fun e he => (assetGraph_relation he).1, halerts,
      edgesFrom_map_eq_zero fun r => by simp [cveEdge]]
    simp
  · rw [edgesFrom_eq_zero fun e he => (assetGraph_relation he).2, hcves,
      edgesFrom_map_eq_zero fun r => by simp [alertEdge]]
    simp

/-- The rows of one asset among the first of a query are at most all of its rows. -/
theorem countP_take_le {α : Type} (p : α → Bool) (n : ℕ) {rows arranged : List α}
    (hperm : arranged.Perm rows) : (arranged.take n).countP p ≤ rows.countP p := by
  rw [← hperm.countP_eq p]
  exact (List.take_sublist n arranged).countP_le

theorem openAlerts_countP {ids : List String} {id : String} (hid : id ∈ ids) :
    (openAlerts db ids).countP (ownedBy AlertRow.assetId id) = (openAlerts db [id]).length := by
  unfold openAlerts
  rw [List.countP_filter, List.countP_eq_length_filter]
  congr 1
  refine List.filter_congr fun a _ => ?_
  cases ho : a.assetId with
  | none => simp [ownedBy, ho]
  | some owner =>
    by_cases howner : owner = id
    · simp [ownedBy, ho, howner, hid]
    · simp [ownedBy, ho, howner]

theorem linkedCves_countP {ids : List String} {id : String} (hid : id ∈ ids) :
    (linkedCves db ids).countP (ownedBy linkOwner id) = (linkedCves db [id]).length := by
  unfold linkedCves
  rw [List.countP_eq_length_filter, List.filter_filterMap, List.filterMap_filter,
    List.filterMap_filter]
  congr 1
  refine List.filterMap_congr fun l _ => ?_
  cases db.cves.find l.cveId with
  | none => simp
  | some c =>
    by_cases howner : l.assetId = id
    · simp [ownedBy, linkOwner, howner, hid]
    · simp [ownedBy, linkOwner, howner]

/-! ## Whether anything is missing -/

/-- The evidence that the response owes an asset. -/
def ShowsEvidence (db : Database) (r : Response) (id : String) : Prop :=
  edgesFrom .affectedBy id r.edges = min 4 (linkedCves db [id]).length ∧
    edgesFrom .hasAlert id r.edges = min 2 (openAlerts db [id]).length

instance (db : Database) (r : Response) (id : String) : Decidable (ShowsEvidence db r id) :=
  inferInstanceAs (Decidable (_ ∧ _))

/-- The limits of the two queries leave what the caps would show of an asset. -/
def RowsReach (Q : Orders) (db : Database) (limit : ℕ) (id : String) : Prop :=
  let ids := (assetRows Q db limit).map AssetRow.id
  min 4 (linkedCves db [id]).length ≤
      (cveRows Q db limit ids).countP (ownedBy linkOwner id) ∧
    min 2 (openAlerts db [id]).length ≤
      (alertRows Q db limit ids).countP (ownedBy AlertRow.assetId id)

instance (Q : Orders) (db : Database) (limit : ℕ) (id : String) :
    Decidable (RowsReach Q db limit id) :=
  inferInstanceAs (Decidable (_ ∧ _))

/-- A response that is not marked as truncated shows the evidence of all its assets exactly if
the limits of the two queries cut off none of it. -/
theorem inventoryGraph_evidence_iff {now : Time}
    (ht : (inventoryGraph T Q now db limit true).info.truncated = false) :
    (∀ a ∈ assetRows Q db limit, ShowsEvidence db (inventoryGraph T Q now db limit true) a.id) ↔
      ∀ a ∈ assetRows Q db limit, RowsReach Q db limit a.id := by
  refine forall₂_congr fun a ha => ?_
  have hid : a.id ∈ (assetRows Q db limit).map AssetRow.id := List.mem_map_of_mem ha
  obtain ⟨halerts, hcves⟩ := buildGraph_evidence (T := T) ht ha
  have hmostAlerts := countP_take_le (ownedBy AlertRow.assetId a.id) (limit * 2)
    (Q.alerts.perm (openAlerts db ((assetRows Q db limit).map AssetRow.id)))
  have hmostCves := countP_take_le (ownedBy linkOwner a.id) (limit * 4)
    (Q.cves.perm (linkedCves db ((assetRows Q db limit).map AssetRow.id)))
  rw [openAlerts_countP hid] at hmostAlerts
  rw [linkedCves_countP hid] at hmostCves
  have hedges : (inventoryGraph T Q now db limit true).edges =
      (buildGraph T Q db limit true).edges := rfl
  rw [ShowsEvidence, RowsReach, hedges, hcves, halerts, alertRows, cveRows]
  constructor
  · rintro ⟨hc, hal⟩
    constructor <;> omega
  · rintro ⟨hc, hal⟩
    constructor <;> omega

/-! ## A crowded query -/

/-- Rows of equal rank come in the order of the table. -/
def inTableOrder {α κ : Type} [LinearOrder κ] (rank : α → κ) : OrderBy rank where
  arrange rows := rows.insertionSort fun a b => rank b ≤ rank a
  perm rows := List.perm_insertionSort _ rows
  sorted rows :=
    have : Std.Total fun a b => rank b ≤ rank a := ⟨fun a b => le_total (rank b) (rank a)⟩
    have : IsTrans α fun a b => rank b ≤ rank a := ⟨fun _ _ _ hab hbc => hbc.trans hab⟩
    List.pairwise_insertionSort _ rows

def tableOrders : Orders := ⟨inTableOrder assetRank, inTableOrder alertRank, inTableOrder cveRank⟩

/-- A runtime whose texts say nothing. -/
def plainTexts : Texts := ⟨fun _ => "", fun _ => ""⟩

def plainAsset (id : String) (riskScore : ℚ) : AssetRow where
  id := id
  name := id
  riskTier := "High"
  riskScore := riskScore
  isShadow := false
  segment := none
  sources := .null
  dependencies := .null
  lastSeen := 0

def openAlert (id owner : String) (createdAt : Time) : AlertRow :=
  ⟨id, some owner, "Open exposure", "high", "open", createdAt⟩

/-- Ten recent alerts of one asset, and an older alert of another. -/
def crowded : Database where
  assets := ⟨[plainAsset "a" 70, plainAsset "b" 60], by decide⟩
  alerts := ⟨openAlert "10" "b" 0 :: ["0", "1", "2", "3", "4", "5", "6", "7", "8", "9"].map
    fun id => openAlert id "a" 1, by decide⟩
  cves := .empty
  assetCves := .empty

def crowdedResponse : Response := inventoryGraph plainTexts tableOrders 0 crowded 5 true

/-- With a limit of five the ten alerts of the first asset fill the query, and the response is
not marked as truncated: the alert of the second asset is missing. -/
theorem crowded_hides_alert :
    crowdedResponse.info.truncated = false ∧
      "b" ∈ (assetRows tableOrders crowded 5).map AssetRow.id ∧
      (openAlerts crowded ["b"]).length = 1 ∧
      edgesFrom .hasAlert "b" crowdedResponse.edges = 0 ∧
      ¬ ShowsEvidence crowded crowdedResponse "b" := by
  decide +kernel

/-- With a limit of ten both queries reach every row, and nothing is missing. -/
theorem roomy_evidence :
    (inventoryGraph plainTexts tableOrders 0 crowded 10 true).info.truncated = false ∧
      ∀ a ∈ assetRows tableOrders crowded 10,
        ShowsEvidence crowded (inventoryGraph plainTexts tableOrders 0 crowded 10 true) a.id :=
  ⟨by decide +kernel, (inventoryGraph_evidence_iff (by decide +kernel)).mpr (by decide +kernel)⟩

end Kepryx.GraphEvidence
