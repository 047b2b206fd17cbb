import Kepryx.ComplianceCatalog
import Kepryx.Redaction
import Kepryx.Results
import Kepryx.RiskWriters

/-!
# Assets that no connector reports

An analyst creates an asset, uploads a table of assets, or has a text parsed into assets. Each of
the three builds its rows in its own way, and each is one transaction.
-/
namespace Kepryx.AssetIntake
open Kepryx.Models Kepryx.Results Kepryx.Tables Kepryx.Reconciler Kepryx.RiskWriters
open Kepryx.ComplianceCatalog (isSpace)
open Kepryx.Redaction (lower)

/-! ## The INSERT of an asset -/

/-- An optional text has at most `width` characters. -/
def Within (width : ℕ) (text : Option String) : Prop := ∀ t ∈ text, t.length ≤ width

instance (width : ℕ) : (text : Option String) → Decidable (Within width text)
  | none => isTrue nofun
  | some t => decidable_of_iff (t.length ≤ width) (by simp [Within])

/-- The texts of a row, those in its lists included. -/
def columnTexts (c : AssetColumns) : List String :=
  [c.name, c.type, c.controlCoverage, c.networkExposure, c.authMethod, c.criticality,
    c.dataClassification] ++ c.os.toList ++ c.segment.toList ++ c.edrStatus.toList ++
    c.dependencies.getD [] ++ c.softwareStack.getD [] ++ c.cpe.getD [] ++ c.tags.getD []

/-- The database stores no text that contains the character 0. -/
def Plain (text : String) : Prop := Char.ofNat 0 ∉ text.toList

instance (text : String) : Decidable (Plain text) := inferInstanceAs (Decidable (_ ∉ _))

/-- The texts fit into their columns. -/
def Fits (c : AssetColumns) : Prop :=
  (∀ t ∈ columnTexts c, Plain t) ∧ Within 255 c.name ∧ Within 64 c.type ∧ Within 255 c.os ∧
    Within 64 c.segment ∧ Within 128 c.edrStatus ∧ Within 16 c.controlCoverage ∧
    Within 32 c.networkExposure ∧ Within 32 c.authMethod ∧ Within 16 c.criticality ∧
    Within 32 c.dataClassification

instance (c : AssetColumns) : Decidable (Fits c) := inferInstanceAs (Decidable (_ ∧ _))

/-- The flush of a new asset. -/
def insertAsset (A : Addressing) (db : Database) (a : Asset) : Except DbError Database :=
  if ¬ Fits a.toAssetColumns then .error .dataError
  else do
    let ip ← bindText A.inet a.ip
    let mac ← bindText A.macaddr a.mac
    match db.assets.insert? { a with ip := ip, mac := mac } with
    | none => .error .uniqueViolation
    | some assets => .ok { db with assets := assets }

/-- A value of the column `last_patch`. -/
def LastPatchFits (lastPatch : Option String) : Prop :=
  Within 32 lastPatch ∧ ∀ t ∈ lastPatch, Plain t

instance : (lastPatch : Option String) → Decidable (LastPatchFits lastPatch)
  | none => isTrue ⟨nofun, nofun⟩
  | some t => decidable_of_iff (t.length ≤ 32 ∧ Plain t) (by simp [LastPatchFits, Within])

/-- `x` is the row that the flush of `a` inserts: only the addresses may be spelled otherwise. -/
def InsertedAs (a x : Asset) : Prop := ∃ ip mac, x = { a with ip := ip, mac := mac }

section Insert
variable {A : Addressing} {db db' : Database}

theorem insertAsset_ok {a : Asset} (h : insertAsset A db a = .ok db') :
    ∃ x, InsertedAs a x ∧ ∀ y, y ∈ db'.assets.rows ↔ y ∈ db.assets.rows ∨ y = x := by
  obtain ⟨-, h⟩ := guard_eq_ok.mp h
  obtain ⟨ip, -, h⟩ := bind_eq_ok.mp h
  obtain ⟨mac, -, h⟩ := bind_eq_ok.mp h
  split at h
  · cases h
  · rename_i assets hinsert
    cases h
    exact ⟨_, ⟨ip, mac, rfl⟩, fun y => Table.mem_insert? hinsert⟩

/-- The flush of several new assets adds a row for each and no other. -/
theorem insertAssets_ok {rows : List Asset} (h : rows.foldlM (insertAsset A) db = .ok db') :
    (∀ x ∈ db.assets.rows, x ∈ db'.assets.rows) ∧
      (∀ a ∈ rows, ∃ x ∈ db'.assets.rows, InsertedAs a x) ∧
      ∀ x ∈ db'.assets.rows, x ∈ db.assets.rows ∨ ∃ a ∈ rows, InsertedAs a x := by
  induction rows generalizing db with
  | nil =>
    cases h
    exact ⟨fun _ hx => hx, fun _ ha => absurd ha List.not_mem_nil, fun _ hx => .inl hx⟩
  | cons a rows ih =>
    rw [List.foldlM_cons] at h
    obtain ⟨db₁, hinsert, h⟩ := bind_eq_ok.mp h
    obtain ⟨x, hx, hrows⟩ := insertAsset_ok hinsert
    obtain ⟨hkept, hadded, horigin⟩ := ih h
    refine ⟨fun y hy => hkept y ((hrows y).mpr (.inl hy)), ?_, ?_⟩
    · intro b hb
      rcases List.mem_cons.mp hb with rfl | hb
      · exact ⟨x, hkept x ((hrows x).mpr (.inr rfl)), hx⟩
      · exact hadded b hb
    · intro y hy
      rcases horigin y hy with hy | ⟨b, hb, hby⟩
      · rcases (hrows y).mp hy with hy | rfl
        · exact .inl hy
        · exact .inr ⟨a, List.mem_cons_self, hx⟩
      · exact .inr ⟨b, List.mem_cons_of_mem a hb, hby⟩

end Insert

/-! ## `create_asset` -/

/-- `AssetCreate` -/
structure AssetCreate where
  name : String
  type : String := "Unknown"
  os : Option String := none
  ip : Option String := none
  mac : Option String := none
  segment : Option String := some "Internal"
  edrStatus : Option String := some "None"
  controlCoverage : String := "none"
  networkExposure : String := "internal"
  authMethod : String := "password"
  criticality : String := "medium"
  dataClassification : String := "Internal"
  lastPatch : Option String := none
  eolStatus : Bool := false
  softwareStack : List String := []
  cpe : List String := []
  dependencies : List String := []
  tags : List String := []
  deriving DecidableEq, Repr

/-- The constraints of the fields. -/
def AssetCreate.Valid (body : AssetCreate) : Prop :=
  1 ≤ body.name.length ∧ body.name.length ≤ 255 ∧ body.type.length ≤ 64 ∧ Within 255 body.os ∧
    Within 64 body.ip ∧ Within 64 body.mac ∧ Within 64 body.segment ∧ Within 128 body.edrStatus

instance (body : AssetCreate) : Decidable body.Valid := inferInstanceAs (Decidable (_ ∧ _))

/-- The asset that a request creates, before its risk is stored. -/
def AssetCreate.toAsset (body : AssetCreate) (now : Time) (uuid : ℕ) : Asset where
  id := uuid
  name := body.name
  type := body.type
  os := body.os
  ip := body.ip
  mac := body.mac
  segment := body.segment
  edrStatus := body.edrStatus
  controlCoverage := body.controlCoverage
  networkExposure := body.networkExposure
  authMethod := body.authMethod
  criticality := body.criticality
  dataClassification := body.dataClassification
  dependencies := some body.dependencies
  softwareStack := some body.softwareStack
  cpe := some body.cpe
  eolStatus := body.eolStatus
  riskScore := 0
  riskTier := .informational
  riskBreakdown := none
  firstSeen := now
  lastSeen := now
  isShadow := false
  isStale := false
  tags := some body.tags
  attrs := some {}
  sources := some ["manual"]

/-- What ends a request. -/
inductive RequestError where
  | unprocessable
  | badRequest (detail : String)
  | duplicateNames (rows : List (ℕ × String × ℕ))
  | tooLarge
  | conflict (existing : List String)
  | database (e : DbError)
  deriving DecidableEq, Repr

/-- `create_asset` -/
def createAsset (A : Addressing) (now : Time) (uuid : ℕ) (db : Database) (body : AssetCreate) :
    Except RequestError Database :=
  if ¬ body.Valid then .error .unprocessable
  else if ¬ LastPatchFits body.lastPatch then .error (.database .dataError)
  else
    let a := body.toAsset now uuid
    (insertAsset A db (storeRisk a (riskOf a.toAssetColumns []))).mapError .database

/-! ## `ai_ingest` -/

/-- `ai_ingest`, for the assets that the parser returned and the identifiers drawn for them. -/
def aiIngest (A : Addressing) (now : Time) (db : Database) (parsed : List (ℕ × HostData)) :
    Except DbError Database := do
  let s ← parsed.foldlM (fun (s : Session) d => do
    let (s, _) ← createFromSource A now d.1 s "manual" d.2
    return s) ⟨db, .empty⟩
  return s.db

/-! ## `import_assets_csv` -/

/-- A dictionary of texts, in the order of its keys. -/
abbrev Dict := List (String × String)

/-- `d[key] = value` -/
def assign (d : Dict) (key value : String) : Dict :=
  if (d.lookup key).isSome then d.map fun e => if e.1 = key then (key, value) else e
  else d ++ [(key, value)]

/-- `d.get(key) or ""` -/
def text (d : Dict) (key : String) : String := (d.lookup key).getD ""

/-- `text.strip()` -/
def strip (text : String) : String :=
  String.ofList ((text.toList.dropWhile isSpace).reverse.dropWhile isSpace).reverse

/-- A record as `DictReader` returns it; a cell that is missing reads as an empty one. -/
def rowDict (fieldnames cells : List String) : Dict :=
  (fieldnames.zip (cells ++ List.replicate fieldnames.length "")).foldl
    (fun d e => assign d e.1 e.2) []

/-- The keys and the values as the import reads them. -/
def normalize (row : Dict) : Dict :=
  row.foldl (fun d e => assign d (lower (strip e.1)) (strip e.2)) []

def requiredFields : List String := ["name", "type"]

def defaults : Dict := [
  ("control_coverage", "partial"),
  ("network_exposure", "internal"),
  ("auth_method", "password"),
  ("criticality", "medium"),
  ("data_classification", "Internal"),
  ("segment", "Internal"),
  ("edr_status", "None"),
  ("type", "Unknown")]

/-- The loop over the defaults: an empty field gets its default. -/
def withDefaults (d : Dict) : Dict :=
  defaults.foldl (fun d e => if text d e.1 = "" then assign d e.1 e.2 else d) d

/-- The entries of a list field. -/
def listField (d : Dict) (key : String) : List String :=
  (((text d key).splitOn ";").map strip).filter (· ≠ "")

/-- An address field; some texts stand for none. -/
def addressField (d : Dict) (key : String) : Option String :=
  if text d key ∈ ["N/A", "DHCP", "Unknown", ""] then none else some (text d key)

/-- The shadow flag of an imported record. -/
def importedShadow (d : Dict) : Bool :=
  text d "edr_status" ∈ ["None", ""] || text d "control_coverage" = "none"

/-- The asset that a record is imported as, before its risk is stored. -/
def importedAsset (now : Time) (uuid : ℕ) (d : Dict) : Asset where
  id := uuid
  name := text d "name"
  type := text d "type"
  os := if text d "os" = "" then none else some (text d "os")
  ip := addressField d "ip"
  mac := addressField d "mac"
  segment := some (text d "segment")
  edrStatus := some (text d "edr_status")
  controlCoverage := text d "control_coverage"
  networkExposure := text d "network_exposure"
  authMethod := text d "auth_method"
  criticality := text d "criticality"
  dataClassification := text d "data_classification"
  dependencies := some (listField d "dependencies")
  softwareStack := some (listField d "software_stack")
  cpe := some (listField d "cpe")
  eolStatus := lower (text d "eol_status") ∈ ["true", "1", "yes", "y"]
  riskScore := 0
  riskTier := .informational
  riskBreakdown := none
  firstSeen := now
  lastSeen := now
  isShadow := importedShadow d
  isStale := false
  tags := some (listField d "tags")
  attrs := some {}
  sources := some ["csv_import"]

/-- `data.get("last_patch") or None` -/
def importedLastPatch (d : Dict) : Option String :=
  if text d "last_patch" = "" then none else some (text d "last_patch")

/-- An uploaded file, and what the reader makes of it. -/
structure Upload where
  filename : Option String
  totalBytes : ℕ
  utf8 : Bool := true
  fieldnames : List String
  records : List (List String)

/-- The name that the first pass reads of a record. -/
def scannedName (fieldnames cells : List String) : String :=
  let row := rowDict fieldnames cells
  strip (if text row "name" ≠ "" then text row "name" else text row "Name")

/-- The records whose name an earlier one has: the row, the name, and the row of the first. -/
def duplicates (names : List String) : List (ℕ × String × ℕ) :=
  (names.zipIdx 2).filterMap fun e =>
    if e.1 ≠ "" ∧ names.idxOf e.1 + 2 < e.2 then some (e.2, e.1, names.idxOf e.1 + 2) else none

/-- The checks before and in the first pass; the names that it has seen. -/
def scan (u : Upload) : Except RequestError (List String) :=
  if ¬ (u.filename.any fun f => lower f |>.endsWith ".csv") then
    .error (.badRequest "File must be .csv")
  else if 50 * 1024 * 1024 < u.totalBytes then .error .tooLarge
  else if u.fieldnames = [] then .error (.badRequest "Empty CSV")
  else
    let missing := requiredFields.filter (· ∉ u.fieldnames.map fun h => lower (strip h))
    let names := u.records.map (scannedName u.fieldnames)
    if missing ≠ [] then
      .error (.badRequest ("Missing required CSV columns: [" ++
        ", ".intercalate (missing.map fun f => "'" ++ f ++ "'") ++ "]"))
    else if 10000 < u.records.length then
      .error (.badRequest "CSV has more than 10000 rows, max allowed is 10000")
    else if ¬ u.utf8 then .error (.badRequest "File must be UTF-8 encoded")
    else if duplicates names ≠ [] then .error (.duplicateNames ((duplicates names).take 10))
    else .ok (names.filter (· ≠ ""))

/-- What the second pass makes of a record. A cell beyond the header has no key to strip. -/
def record (u : Upload) (cells : List String) : Except String Dict :=
  if u.fieldnames.length < cells.length then
    .error "'NoneType' object has no attribute 'strip'"
  else
    let d := normalize (rowDict u.fieldnames cells)
    if text d "name" = "" then .error "name is required"
    else .ok (withDefaults d)

/-- The records that are imported, with the identifiers drawn for them. -/
def imported (u : Upload) (uuid : ℕ → ℕ) : List (ℕ × Dict) :=
  (u.records.zipIdx 2).filterMap fun e => (record u e.1).toOption.map fun d => (uuid e.2, d)

structure ImportResults where
  created : ℕ
  errors : List (ℕ × String)
  preview : List (String × String × Tier × ℤ)
  dryRun : Bool
  deriving DecidableEq, Repr

/-- The row errors of the second pass. -/
def rowErrors (u : Upload) : List (ℕ × String) :=
  (u.records.zipIdx 2).filterMap fun e =>
    match record u e.1 with
    | .error message => some (e.2, message)
    | .ok _ => none

/-- The rows that the import adds. -/
def importedRows (now : Time) (u : Upload) (uuid : ℕ → ℕ) : List Asset :=
  (imported u uuid).map fun e =>
    let a := importedAsset now e.1 e.2
    storeRisk a (riskOf a.toAssetColumns [])

/-- `import_assets_csv` -/
def importAssetsCsv (A : Addressing) (now : Time) (uuid : ℕ → ℕ) (dryRun : Bool) (db : Database)
    (u : Upload) : Except RequestError (Database × ImportResults) := do
  let names ← scan u
  let existing := db.assets.rows.filter fun a => a.name ∈ names
  let rows := importedRows now u uuid
  let results : ImportResults :=
    { created := rows.length
      errors := rowErrors u
      preview :=
        if dryRun then (rows.take 10).map fun a => (a.name, a.type, a.riskTier, a.riskScore)
        else []
      dryRun := dryRun }
  if dryRun then .ok (db, results)
  else if existing ≠ [] then
    .error (.conflict (((existing.map fun a => a.name).dedup.mergeSort fun s t => s ≤ t).take 20))
  else if ∃ e ∈ imported u uuid, ¬ LastPatchFits (importedLastPatch e.2) then
    .error (.database .dataError)
  else do
    let db ← (rows.foldlM (insertAsset A) db).mapError .database
    return (db, results)

end Kepryx.AssetIntake
