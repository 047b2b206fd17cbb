import Mathlib.Data.Prod.Lex
import Mathlib.Order.WithBot
import Kepryx.AiValidation
import Kepryx.BoundedGraph

/-!
# The inventory graph

`GET /dashboard/graph/inventory` reads the assets with the highest risk, their open alerts and
their CVEs, and answers with a graph of at most `limit` nodes. Three loops add to one graph: the
assets with what hangs on them, then at most two alerts and four CVEs of each asset.
-/
namespace Kepryx.InventoryGraph

open Kepryx.Tables Kepryx.AiValidation Kepryx.BoundedGraph
open Kepryx.Models (CVE Time)

/-! ## The tables -/

/-- The columns of `assets` that the endpoint reads. An identifier is given by its text. -/
structure AssetRow where
  id : String
  name : String
  riskTier : String
  riskScore : ℚ
  isShadow : Bool
  segment : Option String
  sources : Json
  dependencies : Json
  lastSeen : Time

/-- The columns of `alerts` that the endpoint reads. -/
structure AlertRow where
  id : String
  assetId : Option String
  title : String
  severity : String
  status : String
  createdAt : Time
  deriving DecidableEq, Repr

/-- The columns of `asset_cves` that the endpoint reads. -/
structure AssetCVE where
  assetId : String
  cveId : String
  matchedCpe : Option String
  discoveredAt : Time
  deriving DecidableEq, Repr

/-- The primary key of `asset_cves`. -/
def AssetCVE.key (l : AssetCVE) : String × String := (l.assetId, l.cveId)

structure Database where
  assets : Table AssetRow.id
  alerts : Table AlertRow.id
  cves : Table CVE.id
  assetCves : Table AssetCVE.key

/-! ## The queries -/

/-- How the database answers an `ORDER BY` of descending keys: rows of equal rank come in any
order. -/
structure OrderBy {α κ : Type} [LE κ] (rank : α → κ) where
  arrange : List α → List α
  perm : ∀ rows, (arrange rows).Perm rows
  sorted : ∀ rows, (arrange rows).Pairwise fun a b => rank b ≤ rank a

/-- `Asset.risk_score.desc(), Asset.last_seen.desc()` -/
def assetRank (a : AssetRow) : ℚ ×ₗ Time := toLex (a.riskScore, a.lastSeen)

/-- `Alert.created_at.desc()` -/
def alertRank (a : AlertRow) : Time := a.createdAt

/-- `nulls_last` of a descending column: a null ranks below every number. -/
def nullsLast : Option ℚ → WithBot ℚ
  | none => ⊥
  | some x => x

/-- `CVE.kev.desc(), CVE.cvss_v3.desc().nulls_last(), CVE.epss_score.desc().nulls_last()` -/
def cveRank (row : AssetCVE × CVE) : Bool ×ₗ WithBot ℚ ×ₗ WithBot ℚ :=
  toLex (row.2.kev, toLex (nullsLast row.2.cvssV3, nullsLast row.2.epssScore))

/-- The answers of the three queries to rows of equal rank. -/
structure Orders where
  assets : OrderBy assetRank
  alerts : OrderBy alertRank
  cves : OrderBy cveRank

/-- `asset_result.scalars().all()` -/
def assetRows (Q : Orders) (db : Database) (limit : ℕ) : List AssetRow :=
  (Q.assets.arrange db.assets.rows).take limit

/-- The open alerts of the assets `ids`. -/
def openAlerts (db : Database) (ids : List String) : List AlertRow :=
  db.alerts.rows.filter fun a => a.assetId.any (· ∈ ids) && a.status = "open"

/-- `alert_result.scalars().all()` -/
def alertRows (Q : Orders) (db : Database) (limit : ℕ) (ids : List String) : List AlertRow :=
  (Q.alerts.arrange (openAlerts db ids)).take (limit * 2)

/-- The links of the assets `ids`, joined with their CVEs. -/
def linkedCves (db : Database) (ids : List String) : List (AssetCVE × CVE) :=
  (db.assetCves.rows.filter fun l => l.assetId ∈ ids).filterMap fun l =>
    (db.cves.find l.cveId).map fun c => (l, c)

/-- `cve_result.all()` -/
def cveRows (Q : Orders) (db : Database) (limit : ℕ) (ids : List String) :
    List (AssetCVE × CVE) :=
  (Q.cves.arrange (linkedCves db ids)).take (limit * 4)

/-! ## Nodes and edges -/

/-- The type of a node, its label and what else it shows. -/
inductive NodeData where
  | asset (label riskTier : String) (riskScore : ℚ) (status : String) (segment : Option String)
    (sourceCount : ℕ) (updatedAt : Option String)
  | segment (label : String)
  | source (label : String)
  | dependency (label : String)
  | alert (label severity status : String) (updatedAt : Option String)
  | cve (label : String) (cvss epss : Option ℚ) (kev : Bool) (evidenceSource : String)
    (updatedAt : Option String)
  deriving DecidableEq, Repr

def NodeData.isAsset : NodeData → Bool
  | .asset .. => true
  | _ => false

inductive Relation where
  | memberOf | reportedBy | declares | hasAlert | affectedBy
  deriving DecidableEq, Repr

/-- What an edge shows; `matched_cpe` only where the relation is `affected_by`. -/
structure EdgeData where
  evidenceSource : String
  observedAt : Option String
  matchedCpe : Option (Option String) := none
  deriving DecidableEq, Repr

abbrev GraphNode := Node String NodeData
abbrev GraphEdge := Edge String Relation EdgeData
abbrev Inventory (limit : ℕ) := Graph String NodeData Relation EdgeData limit

/-- The texts of the interpreter: of a JSON value and of a time. -/
structure Texts where
  str : Json → String
  isoformat : Time → String

variable (T : Texts)

/-- `_iso` -/
def iso : Option Time → Option String := Option.map T.isoformat

/-- `_as_list` -/
def asList : Json → List Json
  | .arr elements => elements
  | _ => []

/-- `text[:n]` -/
def cut (n : ℕ) (text : String) : String := String.ofList (text.toList.take n)

def assetId (id : String) : String := "asset:" ++ id

def assetNode (asset : AssetRow) : GraphNode :=
  ⟨assetId asset.id,
    .asset asset.name asset.riskTier asset.riskScore
      (if asset.isShadow then "shadow" else "managed") asset.segment
      (asList asset.sources).length (iso T (some asset.lastSeen))⟩

/-- `asset.segment or "Unassigned"` -/
def segmentOf (asset : AssetRow) : String :=
  match asset.segment with
  | none => "Unassigned"
  | some s => if s = "" then "Unassigned" else s

def segmentLink (asset : AssetRow) : GraphNode × GraphEdge :=
  let segment := segmentOf asset
  let segmentId := "segment:" ++ segment
  (⟨segmentId, .segment segment⟩,
    ⟨assetId asset.id, segmentId, .memberOf,
      { evidenceSource := "asset.segment", observedAt := iso T (some asset.lastSeen) }⟩)

def sourceLink (asset : AssetRow) (source : Json) : GraphNode × GraphEdge :=
  let label := cut 96 (T.str source)
  let sourceId := "source:" ++ label
  (⟨sourceId, .source label⟩,
    ⟨assetId asset.id, sourceId, .reportedBy,
      { evidenceSource := "asset.sources", observedAt := iso T (some asset.lastSeen) }⟩)

def dependencyLink (asset : AssetRow) (dependency : Json) : GraphNode × GraphEdge :=
  let label := cut 128 (T.str dependency)
  let dependencyId := "dependency:" ++ asset.id ++ ":" ++ label
  (⟨dependencyId, .dependency label⟩,
    ⟨assetId asset.id, dependencyId, .declares,
      { evidenceSource := "asset.dependencies", observedAt := iso T (some asset.lastSeen) }⟩)

/-- What is added after an asset: its segment, five sources, three dependencies. -/
def assetLinks (asset : AssetRow) : List (GraphNode × GraphEdge) :=
  segmentLink T asset :: ((asList asset.sources).take 5).map (sourceLink T asset) ++
    ((asList asset.dependencies).take 3).map (dependencyLink T asset)

def alertNode (alert : AlertRow) : GraphNode :=
  ⟨"alert:" ++ alert.id,
    .alert alert.title alert.severity alert.status (iso T (some alert.createdAt))⟩

def alertEdge (owner : String) (alert : AlertRow) : GraphEdge :=
  ⟨assetId owner, "alert:" ++ alert.id, .hasAlert,
    { evidenceSource := "alerts", observedAt := iso T (some alert.createdAt) }⟩

def cveNode (row : AssetCVE × CVE) : GraphNode :=
  ⟨"cve:" ++ row.2.id,
    .cve row.2.id row.2.cvssV3 row.2.epssScore row.2.kev "NVD/EPSS/KEV"
      (iso T (some row.2.lastSynced))⟩

def cveEdge (owner : String) (row : AssetCVE × CVE) : GraphEdge :=
  ⟨assetId owner, "cve:" ++ row.2.id, .affectedBy,
    { matchedCpe := some row.1.matchedCpe
      evidenceSource := "NVD/EPSS/KEV"
      observedAt := iso T (some row.1.discoveredAt) }⟩

/-- `row.asset_id` of a link, which is never null. -/
def linkOwner (row : AssetCVE × CVE) : Option String := some row.1.assetId

/-! ## The endpoint -/

variable {limit : ℕ}

/-- The first loop: it stops at an asset that is refused. -/
def addAssets : List AssetRow → Inventory limit → Inventory limit
  | [], g => g
  | asset :: assets, g =>
    match g.addNode (assetNode T asset) with
    | (true, g) => addAssets assets (g.attachAll (assetLinks T asset))
    | (false, g) => g

/-- The second loop, with an empty `per_asset_alerts`. -/
def addAlerts (alerts : List AlertRow) (g : Inventory limit) : Inventory limit :=
  (alerts.foldl (Graph.cappedTurn 2 AlertRow.assetId (alertNode T) (alertEdge T))
    (g, fun _ => 0)).1

/-- The third loop, with an empty `per_asset_cves`. -/
def addCves (rows : List (AssetCVE × CVE)) (g : Inventory limit) : Inventory limit :=
  (rows.foldl (Graph.cappedTurn 4 linkOwner (cveNode T) (cveEdge T)) (g, fun _ => 0)).1

/-- `meta` -/
structure Meta where
  generatedAt : String
  assetCount : ℕ
  nodeCount : ℕ
  edgeCount : ℕ
  limit : ℕ
  truncated : Bool
  authoritativeSources : List String
  deriving DecidableEq, Repr

structure Response where
  nodes : List GraphNode
  edges : List GraphEdge
  info : Meta

/-- The graph that the three loops leave. -/
def buildGraph (Q : Orders) (db : Database) (limit : ℕ) (includeVulnerabilities : Bool) :
    Inventory limit :=
  let assets := assetRows Q db limit
  let ids := assets.map AssetRow.id
  let g := addAssets T assets Graph.empty
  if ids ≠ [] ∧ g.nodes ≠ [] then
    let g := addAlerts T (alertRows Q db limit ids) g
    if includeVulnerabilities then addCves T (cveRows Q db limit ids) g else g
  else g

/-- `inventory_graph` -/
def inventoryGraph (Q : Orders) (now : Time) (db : Database) (limit : ℕ)
    (includeVulnerabilities : Bool) : Response :=
  let g := buildGraph T Q db limit includeVulnerabilities
  { nodes := g.nodes
    edges := g.edges
    info :=
      { generatedAt := T.isoformat now
        assetCount := (assetRows Q db limit).length
        nodeCount := g.nodes.length
        edgeCount := g.edges.length
        limit := limit
        truncated := g.truncated
        authoritativeSources := ["NVD", "EPSS", "CISA KEV", "OSV"] } }

/-! ## The first loop -/

section Loops
variable {T}

/-- What hangs on an asset: every edge leads from it to its own node, which is no asset. -/
structure HangsOn (asset : AssetRow) (l : GraphNode × GraphEdge) : Prop where
  source : l.2.source = assetId asset.id
  target : l.2.target = l.1.id
  relation : l.2.relation = .memberOf ∨ l.2.relation = .reportedBy ∨ l.2.relation = .declares
  other : ∀ id, l.1.id ≠ assetId id

theorem assetLinks_hangsOn {asset : AssetRow} {l : GraphNode × GraphEdge}
    (h : l ∈ assetLinks T asset) : HangsOn asset l := by
  unfold assetLinks at h
  rcases List.mem_append.mp h with h | h
  · rcases List.mem_cons.mp h with rfl | h
    · refine ⟨rfl, rfl, .inl rfl, fun id he => ?_⟩
      have hchars := congrArg String.toList he
      simp [segmentLink, assetId] at hchars
    · obtain ⟨v, -, rfl⟩ := List.mem_map.mp h
      refine ⟨rfl, rfl, .inr (.inl rfl), fun id he => ?_⟩
      have hchars := congrArg String.toList he
      simp [sourceLink, assetId] at hchars
  · obtain ⟨v, -, rfl⟩ := List.mem_map.mp h
    refine ⟨rfl, rfl, .inr (.inr rfl), fun id he => ?_⟩
    have hchars := congrArg String.toList he
    simp [dependencyLink, assetId] at hchars

/-- An identifier of an asset belongs to an asset. -/
def AssetsNamed (g : Inventory limit) : Prop :=
  ∀ n ∈ g.nodes, ∀ id, n.id = assetId id → n.data.isAsset

/-- An asset that is refused ends the loop; the others bring what hangs on them. -/
theorem addAssets_cons (asset : AssetRow) (assets : List AssetRow) (g : Inventory limit) :
    ((g.addNode (assetNode T asset)).1 = false ∧
      addAssets T (asset :: assets) g = (g.addNode (assetNode T asset)).2) ∨
    ((g.addNode (assetNode T asset)).1 = true ∧
      addAssets T (asset :: assets) g =
        addAssets T assets ((g.addNode (assetNode T asset)).2.attachAll (assetLinks T asset))) := by
  cases h : g.addNode (assetNode T asset) with
  | mk entered g' =>
    cases entered with
    | false => exact .inl ⟨rfl, by simp [addAssets, h]⟩
    | true => exact .inr ⟨rfl, by simp [addAssets, h]⟩

theorem addAssets_grows (assets : List AssetRow) (g : Inventory limit) :
    g.Grows (addAssets T assets g) := by
  induction assets generalizing g with
  | nil => exact Graph.Grows.refl g
  | cons asset assets ih =>
    have hnode := Graph.addNode_grows (assetNode T asset) g
    rcases addAssets_cons (T := T) asset assets g with ⟨-, h⟩ | ⟨-, h⟩
    · rw [h]
      exact hnode
    · rw [h]
      exact hnode.trans ((Graph.attachAll_grows _ _).trans (ih _))

/-- `isAsset` as the property that needs no edge. -/
def isRoot (d : NodeData) : Prop := d.isAsset = true

theorem addAssets_attached {assets : List AssetRow} {g : Inventory limit}
    (h : g.Attached isRoot) : (addAssets T assets g).Attached isRoot := by
  induction assets generalizing g with
  | nil => exact h
  | cons asset assets ih =>
    have hnode : (g.addNode (assetNode T asset)).2.Attached isRoot := h.addNode rfl
    rcases addAssets_cons (T := T) asset assets g with ⟨-, he⟩ | ⟨hin, he⟩
    · rw [he]
      exact hnode
    · rw [he]
      refine ih (hnode.attachAll (fun l hl => (assetLinks_hangsOn hl).target) fun l hl => ?_)
      rw [(assetLinks_hangsOn hl).source]
      exact Graph.mem_addNode hin

theorem addAssets_named {assets : List AssetRow} {g : Inventory limit} (h : AssetsNamed g) :
    AssetsNamed (addAssets T assets g) := by
  induction assets generalizing g with
  | nil => exact h
  | cons asset assets ih =>
    have hnode : AssetsNamed (g.addNode (assetNode T asset)).2 := by
      intro n hn id hid
      rcases Graph.mem_addNode_nodes hn with hn | rfl
      · exact h n hn id hid
      · rfl
    rcases addAssets_cons (T := T) asset assets g with ⟨-, he⟩ | ⟨-, he⟩
    · rw [he]
      exact hnode
    · rw [he]
      apply ih
      intro n hn id hid
      rcases Graph.mem_attachAll_nodes hn with hn | ⟨l, hl, rfl⟩
      · exact hnode n hn id hid
      · exact absurd hid ((assetLinks_hangsOn hl).other id)

/-- Either all assets are there, or the graph is full and says so. -/
theorem addAssets_covers (assets : List AssetRow) (g : Inventory limit) :
    (∀ a ∈ assets, assetId a.id ∈ (addAssets T assets g).nodeIds) ∨
      (addAssets T assets g).truncated = true ∧
        limit ≤ (addAssets T assets g).nodes.length := by
  induction assets generalizing g with
  | nil => exact .inl (List.forall_mem_nil _)
  | cons asset assets ih =>
    rcases addAssets_cons (T := T) asset assets g with ⟨hin, he⟩ | ⟨hin, he⟩
    · obtain ⟨hfull, ht⟩ := Graph.addNode_refused hin
      rw [he]
      exact .inr ⟨ht, Nat.le_trans hfull (Graph.addNode_grows _ g).length_le⟩
    · rw [he]
      rcases ih ((g.addNode (assetNode T asset)).2.attachAll (assetLinks T asset)) with hall | hfull
      · refine .inl fun a ha => ?_
        rcases List.mem_cons.mp ha with rfl | ha
        · have hmem : assetId a.id ∈ (g.addNode (assetNode T a)).2.nodeIds :=
            Graph.mem_addNode hin
          exact ((Graph.attachAll_grows _ _).trans (addAssets_grows _ _)).nodeIds.subset hmem
        · exact hall a ha
      · exact .inr hfull

/-- The first loop draws no edge to an alert or a CVE. -/
theorem addAssets_relation {assets : List AssetRow} {g : Inventory limit} {e : GraphEdge}
    (he : e ∈ (addAssets T assets g).edges) :
    e ∈ g.edges ∨ e.relation = .memberOf ∨ e.relation = .reportedBy ∨ e.relation = .declares := by
  induction assets generalizing g with
  | nil => exact .inl he
  | cons asset assets ih =>
    rcases addAssets_cons (T := T) asset assets g with ⟨-, h⟩ | ⟨-, h⟩
    · rw [h, Graph.addNode_edges] at he
      exact .inl he
    · rw [h] at he
      rcases ih he with he | he
      · rcases Graph.mem_attachAll_edges he with he | ⟨l, hl, rfl⟩
        · rw [Graph.addNode_edges] at he
          exact .inl he
        · exact .inr (assetLinks_hangsOn hl).relation
      · exact .inr he

/-! ## The whole graph -/

theorem addAlerts_grows (alerts : List AlertRow) (g : Inventory limit) :
    g.Grows (addAlerts T alerts g) :=
  Graph.foldl_cappedTurn_grows 2 AlertRow.assetId (alertNode T) (alertEdge T) alerts
    (g, fun _ => 0)

theorem addCves_grows (rows : List (AssetCVE × CVE)) (g : Inventory limit) :
    g.Grows (addCves T rows g) :=
  Graph.foldl_cappedTurn_grows 4 linkOwner (cveNode T) (cveEdge T) rows (g, fun _ => 0)

/-- The assets of `ids` are there, or nothing more comes in. -/
def CoversOrFull (ids : List String) (g : Inventory limit) : Prop :=
  (∀ id ∈ ids, assetId id ∈ g.nodeIds) ∨ limit ≤ g.nodes.length

theorem CoversOrFull.mono {ids : List String} {g g' : Inventory limit} (h : CoversOrFull ids g)
    (hg : g.Grows g') : CoversOrFull ids g' := by
  rcases h with hall | hfull
  · exact .inl fun id hid => hg.nodeIds.subset (hall id hid)
  · exact .inr (Nat.le_trans hfull hg.length_le)

theorem mem_alertRows {Q : Orders} {db : Database} {ids : List String} {a : AlertRow}
    (h : a ∈ alertRows Q db limit ids) : a ∈ openAlerts db ids :=
  (Q.alerts.perm _).mem_iff.mp (List.mem_of_mem_take h)

theorem mem_cveRows {Q : Orders} {db : Database} {ids : List String} {r : AssetCVE × CVE}
    (h : r ∈ cveRows Q db limit ids) : r ∈ linkedCves db ids :=
  (Q.cves.perm _).mem_iff.mp (List.mem_of_mem_take h)

theorem openAlerts_owner {db : Database} {ids : List String} {a : AlertRow}
    (h : a ∈ openAlerts db ids) : ∃ id ∈ ids, a.assetId = some id := by
  obtain ⟨-, h⟩ := List.mem_filter.mp h
  cases ha : a.assetId with
  | none => simp [ha] at h
  | some id => exact ⟨id, by simpa [ha] using (Bool.and_eq_true_iff.mp h).1, rfl⟩

theorem linkedCves_owner {db : Database} {ids : List String} {r : AssetCVE × CVE}
    (h : r ∈ linkedCves db ids) : r.1.assetId ∈ ids := by
  obtain ⟨l, hl, hr⟩ := List.mem_filterMap.mp h
  obtain ⟨c, -, rfl⟩ := Option.map_eq_some_iff.mp hr
  simpa using (List.mem_filter.mp hl).2

theorem addAlerts_attached {Q : Orders} {db : Database} {ids : List String}
    {g : Inventory limit} (h : g.Attached isRoot) (hids : CoversOrFull ids g) :
    (addAlerts T (alertRows Q db limit ids) g).Attached isRoot := by
  refine h.foldl_cappedTurn (fun k r _ => rfl) fun k r hr hk => ?_
  obtain ⟨id, hid, hr'⟩ := openAlerts_owner (mem_alertRows hr)
  obtain rfl : id = k := Option.some.inj (hr'.symm.trans hk)
  exact hids.imp (fun hall => hall id hid) fun hfull => hfull

theorem addCves_attached {Q : Orders} {db : Database} {ids : List String}
    {g : Inventory limit} (h : g.Attached isRoot) (hids : CoversOrFull ids g) :
    (addCves T (cveRows Q db limit ids) g).Attached isRoot := by
  refine h.foldl_cappedTurn (fun k r _ => rfl) fun k r hr hk => ?_
  have hr' := linkedCves_owner (mem_cveRows hr)
  obtain rfl : r.1.assetId = k := Option.some.inj hk
  exact hids.imp (fun hall => hall _ hr') fun hfull => hfull

/-- The graph of the first loop. -/
def assetGraph (T : Texts) (Q : Orders) (db : Database) (limit : ℕ) : Inventory limit :=
  addAssets T (assetRows Q db limit) Graph.empty

theorem assetGraph_coversOrFull (Q : Orders) (db : Database) (limit : ℕ) :
    CoversOrFull ((assetRows Q db limit).map AssetRow.id) (assetGraph T Q db limit) := by
  rcases addAssets_covers (T := T) (assetRows Q db limit) Graph.empty with hall | ⟨-, hfull⟩
  · refine .inl fun id hid => ?_
    obtain ⟨a, ha, rfl⟩ := List.mem_map.mp hid
    exact hall a ha
  · exact .inr hfull

theorem assetGraph_attached (Q : Orders) (db : Database) (limit : ℕ) :
    (assetGraph T Q db limit).Attached isRoot :=
  addAssets_attached (by intro n hn; simp at hn)

theorem assetGraph_named (Q : Orders) (db : Database) (limit : ℕ) :
    AssetsNamed (assetGraph T Q db limit) :=
  addAssets_named (by intro n hn; simp at hn)

theorem buildGraph_grows (Q : Orders) (db : Database) (limit : ℕ) (iv : Bool) :
    (assetGraph T Q db limit).Grows (buildGraph T Q db limit iv) := by
  unfold buildGraph
  dsimp only
  split_ifs
  · exact (addAlerts_grows _ _).trans (addCves_grows _ _)
  · exact addAlerts_grows _ _
  · exact Graph.Grows.refl _

theorem buildGraph_attached (Q : Orders) (db : Database) (limit : ℕ) (iv : Bool) :
    (buildGraph T Q db limit iv).Attached isRoot := by
  have hassets := assetGraph_attached (T := T) Q db limit
  have hids := assetGraph_coversOrFull (T := T) Q db limit
  unfold buildGraph
  dsimp only
  split_ifs
  · exact addCves_attached (addAlerts_attached hassets hids) (hids.mono (addAlerts_grows _ _))
  · exact addAlerts_attached hassets hids
  · exact hassets

/-- Nothing was refused, so the first loop went through. -/
theorem assetGraph_covers {Q : Orders} {db : Database} {limit : ℕ} {iv : Bool}
    (h : (buildGraph T Q db limit iv).truncated = false) :
    ∀ a ∈ assetRows Q db limit, assetId a.id ∈ (assetGraph T Q db limit).nodeIds := by
  have ht := (buildGraph_grows Q db limit iv).not_truncated h
  rcases addAssets_covers (T := T) (assetRows Q db limit) Graph.empty with hall | ⟨htrue, -⟩
  · exact hall
  · have hfalse : (addAssets T (assetRows Q db limit) Graph.empty).truncated = false := ht
    rw [hfalse] at htrue
    cases htrue

end Loops

variable {T}

/-- The response is a graph within its bound whose nodes all have a reason to be there, and it
says so if an asset is missing. -/
theorem inventoryGraph_wellFormed (Q : Orders) (now : Time) (db : Database) (limit : ℕ)
    (includeVulnerabilities : Bool) :
    let r := inventoryGraph T Q now db limit includeVulnerabilities
    r.nodes.length ≤ limit ∧ (r.nodes.map Node.id).Nodup ∧
    (r.edges.map fun e => (e.source, e.target, e.relation)).Nodup ∧
    (∀ e ∈ r.edges, (∃ n ∈ r.nodes, n.id = e.source) ∧ ∃ n ∈ r.nodes, n.id = e.target) ∧
    (∀ n ∈ r.nodes, ¬ n.data.isAsset → ∃ e ∈ r.edges, e.source = n.id ∨ e.target = n.id) ∧
    (r.info.truncated = false → ∀ a ∈ assetRows Q db limit,
      ∃ n ∈ r.nodes, n.id = assetId a.id ∧ n.data.isAsset) := by
  intro r
  have hbuild : r.nodes = (buildGraph T Q db limit includeVulnerabilities).nodes := rfl
  refine ⟨Graph.bounded _, Graph.distinct _, Graph.once _, fun e he => ?_, ?_, fun ht a ha => ?_⟩
  · obtain ⟨hs, ht⟩ := Graph.ends _ e he
    exact ⟨List.mem_map.mp hs, List.mem_map.mp ht⟩
  · exact buildGraph_attached Q db limit includeVulnerabilities
  · have hgrows := buildGraph_grows (T := T) Q db limit includeVulnerabilities
    obtain ⟨n, hn, hid⟩ := List.mem_map.mp (assetGraph_covers ht a ha)
    refine ⟨n, ?_, hid, assetGraph_named Q db limit n hn a.id hid⟩
    rw [hbuild]
    exact hgrows.nodes.subset hn

end Kepryx.InventoryGraph
