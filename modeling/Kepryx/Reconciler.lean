import Kepryx.Models

/-!
# The asset reconciler

One report of a source is handled in one database session: the asset is looked
up by MAC, IP and name, the report is merged into the loaded object or a new
asset is added, and the commit flushes the session. The list in `sources` is a
mutable object of the session, so it is modelled by reference; every other
attribute is replaced by a new value.
-/
namespace Kepryx.Reconciler
open Kepryx.Models Kepryx.Tables Kepryx.UnitOfWork

/-- `SOURCE_PRIORITY` -/
def sourcePriority : List (String × ℕ) := [
  ("edr_crowdstrike", 10),
  ("edr_sentinelone", 10),
  ("edr_defender", 10),
  ("nac_cisco_ise", 9),
  ("nac_aruba", 9),
  ("ad_ldap", 8),
  ("azure_ad", 8),
  ("cmdb_servicenow", 7),
  ("cmdb_jira", 7),
  ("vuln_nessus", 6),
  ("vuln_qualys", 6),
  ("vuln_rapid7", 6),
  ("dhcp_dns", 5),
  ("infoblox", 5),
  ("cloud_aws", 8),
  ("cloud_azure", 8),
  ("cloud_gcp", 8),
  ("nmap_scan", 4),
  ("manual", 3),
  ("asset_api", 7)]

/-- `SOURCE_PRIORITY.get(source, 1)`, the priority of a reporting source. -/
def reportPriority (source : String) : ℕ := (sourcePriority.lookup source).getD 1

/-- `SOURCE_PRIORITY.get(source, 0)`, the priority of a recorded source. -/
def recordedPriority (source : String) : ℕ := (sourcePriority.lookup source).getD 0

/-- `max([SOURCE_PRIORITY.get(s, 0) for s in sources], default=0)` -/
def existingPriority (sources : List String) : ℕ := (sources.map recordedPriority).foldl max 0

/-- The sources that count as authoritative for `_is_shadow`. -/
def authoritative : List String := [
  "ad_ldap",
  "azure_ad",
  "cmdb_servicenow",
  "cmdb_jira",
  "edr_crowdstrike",
  "edr_sentinelone",
  "edr_defender",
  "cloud_aws",
  "cloud_azure",
  "cloud_gcp",
  "asset_api"]

/-- Shadow: only a network scan saw the asset, no authoritative source claims it. -/
def isShadow (sources : List String) : Bool := !sources.any (fun s => s ∈ authoritative)

/-- The fields that a source of sufficient priority overwrites. -/
inductive Field where
  | name | os | ip | mac | segment | edrStatus | controlCoverage | networkExposure
  | authMethod | criticality | dataClassification
  deriving DecidableEq, Repr

/-- The tuple of field names in `_merge_source`, in its order. -/
def authoritativeFields : List Field :=
  [.name, .os, .ip, .mac, .segment, .edrStatus, .controlCoverage, .networkExposure,
    .authMethod, .criticality, .dataClassification]

theorem mem_authoritativeFields (f : Field) : f ∈ authoritativeFields := by
  cases f <;> decide

/-- The keys of `host_data` that the reconciler reads. -/
structure HostData where
  ip : Entry String := .missing
  mac : Entry String := .missing
  name : Entry String := .missing
  hostname : Entry String := .missing
  type : Entry String := .missing
  os : Entry String := .missing
  osGuess : Entry String := .missing
  segment : Entry String := .missing
  edrStatus : Entry String := .missing
  controlCoverage : Entry String := .missing
  networkExposure : Entry String := .missing
  authMethod : Entry String := .missing
  criticality : Entry String := .missing
  dataClassification : Entry String := .missing
  softwareStack : Entry (List String) := .missing
  cpe : Entry (List String) := .missing
  dependencies : Entry (List String) := .missing
  services : Entry (List Service) := .missing
  deriving DecidableEq

/-- `data.get(field)` -/
def HostData.field (d : HostData) : Field → Entry String
  | .name => d.name
  | .os => d.os
  | .ip => d.ip
  | .mac => d.mac
  | .segment => d.segment
  | .edrStatus => d.edrStatus
  | .controlCoverage => d.controlCoverage
  | .networkExposure => d.networkExposure
  | .authMethod => d.authMethod
  | .criticality => d.criticality
  | .dataClassification => d.dataClassification

/-- `getattr(asset, field)` -/
def field (a : AssetColumns) : Field → Option String
  | .name => a.name
  | .os => a.os
  | .ip => a.ip
  | .mac => a.mac
  | .segment => a.segment
  | .edrStatus => a.edrStatus
  | .controlCoverage => a.controlCoverage
  | .networkExposure => a.networkExposure
  | .authMethod => a.authMethod
  | .criticality => a.criticality
  | .dataClassification => a.dataClassification

/-- `setattr(asset, field, value)` -/
def setField (a : AssetColumns) (f : Field) (v : String) : AssetColumns :=
  match f with
  | .name => { a with name := v }
  | .os => { a with os := v }
  | .ip => { a with ip := v }
  | .mac => { a with mac := v }
  | .segment => { a with segment := v }
  | .edrStatus => { a with edrStatus := v }
  | .controlCoverage => { a with controlCoverage := v }
  | .networkExposure => { a with networkExposure := v }
  | .authMethod => { a with authMethod := v }
  | .criticality => { a with criticality := v }
  | .dataClassification => { a with dataClassification := v }

@[simp] theorem field_setField (a : AssetColumns) (f g : Field) (v : String) :
    field (setField a f v) g = if f = g then some v else field a g := by
  cases f <;> cases g <;> rfl

@[simp] theorem setField_id (a : AssetColumns) (f : Field) (v : String) :
    (setField a f v).id = a.id := by cases f <;> rfl

/-- One turn of the loop over the authoritative fields. -/
def writeField (d : HostData) (a : AssetColumns) (f : Field) : AssetColumns :=
  match (d.field f).truthy with
  | some v => setField a f v
  | none => a

/-- The loop over the authoritative fields: only non-empty values are written. -/
def writeFields (d : HostData) (a : AssetColumns) : AssetColumns :=
  authoritativeFields.foldl (writeField d) a

theorem field_writeField (d : HostData) (a : AssetColumns) (f g : Field) :
    field (writeField d a f) g =
      if f = g then (d.field f).truthy.or (field a g) else field a g := by
  unfold writeField
  cases h : (d.field f).truthy with
  | none => by_cases hfg : f = g <;> simp [hfg]
  | some v => by_cases hfg : f = g <;> simp [hfg]

/-- The loop leaves in a field the non-empty reported value, or else what was there. -/
theorem field_writeFields (d : HostData) (a : AssetColumns) (g : Field) :
    field (writeFields d a) g = (d.field g).truthy.or (field a g) := by
  have hloop : ∀ (fs : List Field) (a : AssetColumns), field (fs.foldl (writeField d) a) g =
      if g ∈ fs then (d.field g).truthy.or (field a g) else field a g := by
    intro fs
    induction fs with
    | nil => simp
    | cons f fs ih =>
      intro a
      rw [List.foldl_cons, ih, field_writeField]
      by_cases hfg : f = g
      · subst hfg
        by_cases hmem : f ∈ fs
        · cases h : (d.field f).truthy <;> simp [hmem]
        · simp [hmem]
      · simp [hfg, Ne.symm hfg]
  rw [writeFields, hloop, if_pos (mem_authoritativeFields g)]

@[simp] theorem writeFields_id (d : HostData) (a : AssetColumns) : (writeFields d a).id = a.id := by
  refine List.foldlRecOn authoritativeFields
    (motive := fun b : AssetColumns => b.id = a.id) _ rfl ?_
  intro b hb f _
  unfold writeField
  cases (d.field f).truthy <;> simp [hb]

/-- `list(set(old + new))`, taken when the report has a non-empty list. -/
def enrichList (old : Option (List String)) (new : Entry (List String)) : Option (List String) :=
  match new.get with
  | none => old
  | some [] => old
  | some (x :: xs) => some ((old.getD [] ++ x :: xs).dedup)

/-- The `service` entries of the non-empty service dictionaries, as a set. -/
def serviceNames (services : Entry (List Service)) : List (Option String) :=
  (((services.get.getD []).filter (fun s => s ≠ [])).map fun s => s.lookup "service").dedup

/-- Equality of the sets that two lists stand for. -/
def sameSet (xs ys : List (Option String)) : Bool :=
  xs.all (fun x => x ∈ ys) && ys.all (fun y => y ∈ xs)

/-- What `str` gives for a set of optional texts. -/
def setRepr (xs : List (Option String)) : String :=
  if xs = [] then "set()"
  else "\x7b" ++ ", ".intercalate (xs.map fun x => (x.map fun s => "'" ++ s ++ "'").getD "None")
    ++ "\x7d"

/-- The de-duplication query of `_raise_alert`: open alerts of the type for the asset that
were created in the last 24 hours. -/
def recentOpen (now : Time) (alerts : List Alert) (type : AlertType) (assetId : Option ℕ) :
    List Alert :=
  alerts.filter fun x => x.alertType = type && x.assetId = assetId &&
    now - hours 24 < x.createdAt && x.status = .open

/-- `_raise_alert`: no second open alert within 24 hours. -/
def raiseAlert (now : Time) (alerts : List Alert) (alert : Alert) :
    Except DbError (List Alert) := do
  match ← scalarOneOrNone .multipleResultsFound
      (recentOpen now alerts alert.alertType alert.assetId) with
  | some _ => return alerts
  | none => return alerts ++ [alert]

/-- The session of one report: the rows its transaction sees and its mutable lists. -/
structure Session where
  db : Database
  heap : Heap (List String)

/-- An asset object of a session: its attributes, what they were when it was loaded or
flushed last, and the list object behind `sources`. -/
structure AssetObject extends AssetColumns where
  loaded : AssetColumns
  sources : Attribute

/-- Load a row into the session. -/
def loadAsset (h : Heap (List String)) (a : Asset) : Heap (List String) × AssetObject :=
  match a.sources with
  | none => (h, { a.toAssetColumns with loaded := a.toAssetColumns, sources := ⟨none, none⟩ })
  | some xs => (h.alloc xs,
      { a.toAssetColumns with
        loaded := a.toAssetColumns
        sources := ⟨some h.next, some h.next⟩ })

/-- `asset.sources or []`: the loaded list itself, unless it is null or empty. -/
def sourcesOrEmpty (h : Heap (List String)) : Option Ref → Heap (List String) × Ref
  | none => (h.alloc [], h.next)
  | some r => if h.read r = some [] then (h.alloc [], h.next) else (h, r)

/-- `if source not in sources: sources.append(source)` -/
def appendSource (h : Heap (List String)) (r : Ref) (source : String) : Heap (List String) :=
  if source ∈ (h.read r).getD [] then h else h.modify r (· ++ [source])

/-- The new value of the recorded sources. -/
def withSource (sources : List String) (source : String) : List String :=
  if source ∈ sources then sources else sources ++ [source]

/-- The attribute assignments of `_merge_source`, given the recorded sources. -/
def mergeColumns (now : Time) (c : AssetColumns) (sources : List String) (source : String)
    (data : HostData) : AssetColumns :=
  let c := if existingPriority sources ≤ reportPriority source then writeFields data c else c
  { c with
    softwareStack := enrichList c.softwareStack data.softwareStack
    cpe := enrichList c.cpe data.cpe
    dependencies := enrichList c.dependencies data.dependencies
    lastSeen := now
    isStale := false
    isShadow := isShadow (withSource sources source)
    attrs := some
      { services := match data.services with
          | .missing => .value []
          | services => services
        other := (c.attrs.getD {}).other } }

/-- The drift alert of `_merge_source`. -/
def driftAlert (now : Time) (alerts : List Alert) (c : AssetColumns) (data : HostData) :
    Except DbError (List Alert) :=
  let old := serviceNames (c.attrs.getD {}).services
  let new := serviceNames data.services
  if old ≠ [] ∧ new ≠ [] ∧ sameSet old new = false then
    raiseAlert now alerts
      { alertType := .drift
        severity := .medium
        title := "Service drift on " ++ c.name
        description := "Services changed: added=" ++ setRepr (new.filter (· ∉ old)) ++
          ", removed=" ++ setRepr (old.filter (· ∉ new))
        assetId := c.id
        createdAt := now }
  else .ok alerts

/-- `_merge_source` -/
def mergeSource (now : Time) (s : Session) (asset : AssetObject) (source : String)
    (data : HostData) : Except DbError (Session × AssetObject) := do
  let (heap, sources) := sourcesOrEmpty s.heap asset.sources.current
  let recorded := (heap.read sources).getD []
  let alerts ← driftAlert now s.db.alerts asset.toAssetColumns data
  return (⟨{ s.db with alerts := alerts }, appendSource heap sources source⟩,
    { mergeColumns now asset.toAssetColumns recorded source data with
      loaded := asset.loaded
      sources := { asset.sources with current := some sources } })

/-- The text conversions of the standard library and of the column types: `ip_address`
accepts an address text, `inet` and `macaddr` are what PostgreSQL stores for a text. All
three give the canonical spelling. -/
structure Addressing where
  ipAddress : String → Option String
  inet : String → Option String
  macaddr : String → Option String

/-- Texts that are already in their canonical spelling. -/
def Addressing.canonical : Addressing := ⟨some, some, some⟩

/-- Bind a text to an address column. -/
def bindText (convert : String → Option String) : Option String → Except DbError (Option String)
  | none => .ok none
  | some t => match convert t with
    | some v => .ok (some v)
    | none => .error .dataError

/-- The name that `_create_from_source` gives a new asset. -/
def newName (data : HostData) : Option String :=
  data.name.truthy.or (data.hostname.truthy.or (data.ip.getD "unknown"))

/-- The object that `_create_from_source` builds. A null under a key whose column has a
default is left out of the INSERT, so the default applies to it as well. -/
def newColumns (now : Time) (uuid : ℕ) (source : String) (data : HostData)
    (name type : String) : AssetColumns where
  id := uuid
  name := name
  type := type
  os := data.os.truthy.or data.osGuess.get
  ip := data.ip.get
  mac := data.mac.get
  segment := data.segment.getD "Unknown"
  edrStatus := data.edrStatus.getD "None"
  controlCoverage := (data.controlCoverage.getD "none").getD "none"
  networkExposure := (data.networkExposure.getD "internal").getD "internal"
  authMethod := (data.authMethod.getD "password").getD "password"
  criticality := (data.criticality.getD "medium").getD "medium"
  dataClassification := (data.dataClassification.getD "Internal").getD "Internal"
  dependencies := data.dependencies.getD []
  softwareStack := data.softwareStack.getD []
  cpe := data.cpe.getD []
  eolStatus := false
  riskScore := 0
  riskTier := .informational
  riskBreakdown := none
  firstSeen := now
  lastSeen := now
  isShadow := isShadow [source]
  isStale := false
  tags := some []
  attrs := some {}

/-- The shadow alert of `_create_from_source`. -/
def shadowAlert (now : Time) (alerts : List Alert) (c : AssetColumns) (source : String) :
    Except DbError (List Alert) :=
  if c.isShadow then
    raiseAlert now alerts
      { alertType := .shadowIt
        severity := .high
        title := "Shadow IT detected: " ++ c.name
        description := "Asset discovered by " ++ source ++
          " only, not present in AD/CMDB/EDR. IP=" ++ c.ip.getD "None" ++
          ", MAC=" ++ c.mac.getD "None"
        assetId := c.id
        details := [("source", some source), ("ip", c.ip.filter (· ≠ ""))]
        createdAt := now }
  else .ok alerts

/-- `_create_from_source`: the flush inserts the row, under the identifier drawn for it. -/
def createFromSource (A : Addressing) (now : Time) (uuid : ℕ) (s : Session) (source : String)
    (data : HostData) : Except DbError (Session × AssetObject) :=
  match newName data, data.type.getD "Unknown" with
  | some name, some type => do
    let c := newColumns now uuid source data name type
    let ip ← bindText A.inet c.ip
    let mac ← bindText A.macaddr c.mac
    match s.db.assets.insert? { c with ip := ip, mac := mac, sources := some [source] } with
    | none => throw .uniqueViolation
    | some assets =>
      let alerts ← shadowAlert now s.db.alerts c source
      return (⟨{ s.db with assets := assets, alerts := alerts }, s.heap.alloc [source]⟩,
        { c with loaded := c, sources := ⟨some s.heap.next, some s.heap.next⟩ })
  | _, _ => .error .notNullViolation

/-- A report as the environment delivers it: the source, its data, the clock, and the
identifier a new asset would draw. -/
structure Report where
  source : String
  data : HostData
  now : Time := 0
  uuid : ℕ := 0

/-- `hostname = host_data.get("name") or host_data.get("hostname")`, in a boolean position. -/
def lookupName (data : HostData) : Option String := data.name.truthy.or data.hostname.truthy

/-- `select(Asset).where(column == value)`, when there is a value to look for. -/
def lookupBy (db : Database) (column : Asset → Option String) (value : Option String) :
    Except DbError (Option Asset) :=
  match value with
  | none => .ok none
  | some v =>
    scalarOneOrNone .multipleResultsFound (db.assets.rows.filter fun a => column a = some v)

/-- The three lookups of `reconcile_host`: MAC, then IP, then name. -/
def findExisting (A : Addressing) (db : Database) (data : HostData) :
    Except DbError (Option Asset) := do
  let mac ← bindText A.macaddr data.mac.truthy
  match ← lookupBy db (fun a => a.mac) mac with
  | some a => return some a
  | none =>
    match ← lookupBy db (fun a => a.ip) (data.ip.truthy.bind A.ipAddress) with
    | some a => return some a
    | none => lookupBy db (fun a => some a.name) (lookupName data)

/-- `reconcile_host` -/
def reconcileHost (A : Addressing) (s : Session) (r : Report) :
    Except DbError (Session × AssetObject) := do
  match ← findExisting A s.db r.data with
  | some a =>
    let (heap, asset) := loadAsset s.heap a
    mergeSource r.now ⟨s.db, heap⟩ asset r.source r.data
  | none => createFromSource A r.now r.uuid s r.source r.data

/-- The flush of an address column: a changed text is bound, otherwise the column stays. -/
def flushText (convert : String → Option String) (loaded current stored : Option String) :
    Except DbError (Option String) :=
  if current = loaded then .ok stored else bindText convert current

/-- The flush of an asset object: one UPDATE of the changed columns. -/
def flushAsset (A : Addressing) (now : Time) (s : Session) (asset : AssetObject) :
    Except DbError Session :=
  match s.db.assets.find asset.id with
  | none => .ok s
  | some stored => do
    let ip ← flushText A.inet asset.loaded.ip asset.ip stored.ip
    let mac ← flushText A.macaddr asset.loaded.mac asset.mac stored.mac
    let current : Asset :=
      { asset.toAssetColumns with
        ip := ip
        mac := mac
        sources := asset.sources.flush s.heap stored.sources }
    return { s with db := { s.db with assets := s.db.assets.put (flushUpdate now stored current) } }

/-- One report in a session of its own, up to its commit: the new database and the asset
the report was merged into or created. -/
def reconcileAndCommit (A : Addressing) (db : Database) (r : Report) :
    Except DbError (Database × ℕ) := do
  let (s, asset) ← reconcileHost A ⟨db, .empty⟩ r
  let s ← flushAsset A r.now s asset
  return (s.db, asset.id)

/-- The database after a report; an exception rolls the session back. -/
def handle (A : Addressing) (db : Database) (r : Report) : Database :=
  match reconcileAndCommit A db r with
  | .ok (db', _) => db'
  | .error _ => db

end Kepryx.Reconciler
