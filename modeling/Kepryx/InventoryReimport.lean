import Kepryx.CsvExports
import Kepryx.ImportedNames

/-!
# The inventory export as an import

The import takes the export of an inventory, but knows only the columns whose names it can spell:
name, type, operating system, addresses, segment and criticality come back, guarded against
formulas. The controls of an asset do not: every asset comes back without endpoint detection, and
so as a shadow asset.
-/
namespace Kepryx.InventoryReimport
open Kepryx.Models Kepryx.Results Kepryx.Tables Kepryx.RiskWriters Kepryx.AssetIntake
open Kepryx.CsvReader Kepryx.CsvImport Kepryx.CsvExports Kepryx.ImportedNames
open Kepryx.Reconciler (Addressing)
open Kepryx.Redaction (lower)
open Kepryx.VulnerabilityCounts (Backend Item)

/-! ## Reading a record by its header -/

/-- The column that is read under a key: the last one that becomes it. -/
def column (fieldnames : List String) (key : String) : Option String :=
  fieldnames.reverse.find? fun h => lower (strip h) = key

theorem column_eq_none {fieldnames : List String} {key : String}
    (hkey : key ∉ fieldnames.map fun h => lower (strip h)) : column fieldnames key = none := by
  rw [column, List.find?_eq_none]
  intro h hh heq
  exact hkey (List.mem_map.mpr ⟨h, List.mem_reverse.mp hh, of_decide_eq_true heq⟩)

/-- Where the columns become distinct keys, each is read under its own. -/
theorem column_eq_some {fieldnames : List String} {h : String}
    (hnodup : (fieldnames.map fun h => lower (strip h)).Nodup) (hmem : h ∈ fieldnames) :
    column fieldnames (lower (strip h)) = some h := by
  cases hcolumn : column fieldnames (lower (strip h)) with
  | none =>
    rw [column, List.find?_eq_none] at hcolumn
    exact absurd (decide_eq_true rfl) (hcolumn h (List.mem_reverse.mpr hmem))
  | some h' =>
    have hkey : decide (lower (strip h') = lower (strip h)) = true :=
      List.find?_some (p := fun x => decide (lower (strip x) = lower (strip h))) hcolumn
    have hmem' := List.mem_reverse.mp (List.mem_of_find?_eq_some hcolumn)
    exact congrArg some (List.inj_on_of_nodup_map hnodup hmem' hmem (of_decide_eq_true hkey))

/-- Under distinct headers a record is the list of its cells. -/
theorem rowDict_eq_zip {fieldnames cells : List String} (hnodup : fieldnames.Nodup)
    (hlen : cells.length = fieldnames.length) :
    rowDict fieldnames cells = fieldnames.zip cells := by
  have hfold : ∀ (es d : Dict), ((d ++ es).map Prod.fst).Nodup →
      es.foldl (fun d e => assign d e.1 e.2) d = d ++ es := by
    intro es
    induction es with
    | nil => exact fun d _ => (List.append_nil d).symm
    | cons e es ih =>
      intro d hd
      have hnew : d.lookup e.1 = none := by
        rw [List.lookup_eq_none_iff]
        intro p hp
        rw [bne_iff_ne]
        rintro heq
        rw [List.map_append, List.nodup_append] at hd
        exact hd.2.2 p.1 (List.mem_map_of_mem hp) e.1 (List.mem_map_of_mem List.mem_cons_self)
          heq.symm
      have hassign : assign d e.1 e.2 = d ++ [e] := by
        rw [assign, hnew]
        rfl
      rw [List.foldl_cons, hassign, ih (d ++ [e]) (by simpa using hd), List.append_assoc,
        List.singleton_append]
  have hzip : fieldnames.zip (cells ++ List.replicate fieldnames.length "") =
      fieldnames.zip cells := by
    conv_lhs => rw [← List.append_nil fieldnames]
    rw [List.zip_append hlen.symm]
    simp
  rw [rowDict, hzip]
  refine hfold _ [] ?_
  rw [List.nil_append, List.map_fst_zip (by omega)]
  exact hnodup

/-- The import reads a key from its column, or as an empty text. -/
theorem text_normalize_zip {fieldnames cells : List String} (hnodup : fieldnames.Nodup)
    (hlen : cells.length = fieldnames.length) (key : String) :
    text (AssetIntake.normalize (rowDict fieldnames cells)) key =
      ((column fieldnames key).map fun h => strip (text (fieldnames.zip cells) h)).getD "" := by
  have hkeys : (fieldnames.zip cells).map Prod.fst = fieldnames := List.map_fst_zip (by omega)
  rw [rowDict_eq_zip hnodup hlen]
  cases hcolumn : column fieldnames key with
  | some h =>
    refine text_foldl_assign (fun k => lower (strip k)) strip ?_ ?_
    · rw [hkeys]
      exact hnodup
    · rw [hkeys]
      exact hcolumn
  | none =>
    have hnone := find_reverse_keys (fun k => lower (strip k)) key (fieldnames.zip cells)
    rw [hkeys] at hnone
    have hfind : (fieldnames.zip cells).reverse.find? (fun e => lower (strip e.1) = key) = none :=
      Option.map_eq_none_iff.mp (hnone.symm.trans hcolumn)
    have hlookup := lookup_foldl_assign (fun k => lower (strip k)) strip key
      (fieldnames.zip cells) []
    rw [hfind] at hlookup
    rw [text, AssetIntake.normalize, hlookup]
    rfl

/-- An empty field gets its default, whatever the other fields are. -/
theorem text_withDefaults (d : Dict) (key : String) : text (withDefaults d) key =
    if text d key = "" then (defaults.lookup key).getD "" else text d key := by
  have hfold : ∀ (es d : Dict), (es.map Prod.fst).Nodup →
      text (es.foldl (fun d e => if text d e.1 = "" then assign d e.1 e.2 else d) d) key =
        if text d key = "" then (es.lookup key).getD "" else text d key := by
    intro es
    induction es with
    | nil =>
      intro d _
      simp only [List.foldl_nil, List.lookup_nil, Option.getD_none]
      split
      · assumption
      · rfl
    | cons e es ih =>
      intro d hes
      obtain ⟨hnot, hes⟩ := List.nodup_cons.mp hes
      rw [List.foldl_cons, ih _ hes, List.lookup_cons]
      by_cases hkey : e.1 = key
      · subst hkey
        have hnone : es.lookup e.1 = none := by
          rw [List.lookup_eq_none_iff]
          intro p hp
          rw [bne_iff_ne]
          rintro heq
          exact hnot (heq ▸ List.mem_map_of_mem hp)
        by_cases hempty : text d e.1 = ""
        · simp only [hempty, if_true, text_assign, hnone, Option.getD_none, BEq.rfl,
            Option.getD_some]
          split
          · rename_i h
            exact h.symm
          · rfl
        · simp only [hempty, if_false]
      · have hbeq : (key == e.1) = false := beq_false_of_ne (Ne.symm hkey)
        have htext : text (if text d e.1 = "" then assign d e.1 e.2 else d) key = text d key := by
          split
          · rw [text_assign, if_neg hkey]
          · rfl
        rw [htext, hbeq]
  exact hfold defaults d (by decide)

/-! ## An exported row as a record -/

/-- What the import reads of a text that was exported. -/
def reread (s : String) : String := strip (csvSafe s)

def rereadOr (default s : String) : String := if reread s = "" then default else reread s

/-- An address that was exported. -/
def rereadAddress (s : Option String) : Option String :=
  let text := reread (s.getD "")
  if text ∈ ["N/A", "DHCP", "Unknown", ""] then none else some text

/-- The asset that an exported one is imported as, before its risk is stored. -/
def reimported (now : Time) (uuid : ℕ) (a : Asset) : Asset where
  id := uuid
  name := reread a.name
  type := rereadOr "Unknown" a.type
  os := if reread (a.os.getD "") = "" then none else some (reread (a.os.getD ""))
  ip := rereadAddress a.ip
  mac := rereadAddress a.mac
  segment := some (rereadOr "Internal" (a.segment.getD ""))
  edrStatus := some "None"
  controlCoverage := "partial"
  networkExposure := "internal"
  authMethod := "password"
  criticality := rereadOr "medium" a.criticality
  dataClassification := "Internal"
  dependencies := some []
  softwareStack := some []
  cpe := some []
  eolStatus := false
  riskScore := 0
  riskTier := .informational
  riskBreakdown := none
  firstSeen := now
  lastSeen := now
  isShadow := true
  isStale := false
  tags := some []
  attrs := some {}
  sources := some ["csv_import"]

section Row
variable {print : Printing} {item : Item}

/-- The cells of an exported row. -/
def cells (print : Printing) (item : Item) : List String :=
  (inventoryRow print item).map Cell.shown

/-- The keys that the columns of the export become. -/
def exportedKeys : List String :=
  ["id", "name", "type", "os", "ip", "mac", "segment", "edr status", "control coverage",
    "network exposure", "auth method", "criticality", "data classification", "risk score",
    "risk tier", "cve count", "kev count", "eol", "shadow it", "last seen", "sources"]

theorem map_inventoryHeaders :
    inventoryHeaders.map (fun h => lower (strip h)) = exportedKeys := by
  decide +kernel

theorem column_inventory_none {key : String} (hkey : key ∉ exportedKeys) :
    column inventoryHeaders key = none :=
  column_eq_none (by rw [map_inventoryHeaders]; exact hkey)

theorem column_inventory {key h : String} (hkey : (key, h) ∈ exportedKeys.zip inventoryHeaders) :
    column inventoryHeaders key = some h := by
  have hzip : exportedKeys.zip inventoryHeaders =
      inventoryHeaders.map fun h => (lower (strip h), h) := by
    rw [← map_inventoryHeaders]
    simpa using List.zip_map' (f := fun h => lower (strip h)) (g := id) (l := inventoryHeaders)
  rw [hzip, List.mem_map] at hkey
  obtain ⟨header, hmem, hheader⟩ := hkey
  obtain ⟨rfl, rfl⟩ := Prod.mk.inj hheader
  refine column_eq_some ?_ hmem
  rw [map_inventoryHeaders]
  decide

/-- An exported row as the import reads its keys and values. -/
def rereadRow (print : Printing) (item : Item) : Dict :=
  AssetIntake.normalize (rowDict inventoryHeaders (cells print item))

theorem length_cells : (cells print item).length = inventoryHeaders.length := rfl

/-- What the import reads of an exported row under a key. -/
theorem text_cells (key : String) :
    text (rereadRow print item) key =
      ((column inventoryHeaders key).map fun h =>
        strip (text (inventoryHeaders.zip (cells print item)) h)).getD "" :=
  text_normalize_zip (by decide) length_cells key

theorem text_column {key h : String} (hcolumn : column inventoryHeaders key = some h) :
    text (rereadRow print item) key =
      strip (text (inventoryHeaders.zip (cells print item)) h) := by
  rw [text_cells, hcolumn, Option.map_some, Option.getD_some]

theorem text_no_column {key : String} (hcolumn : column inventoryHeaders key = none) :
    text (rereadRow print item) key = "" := by
  rw [text_cells, hcolumn, Option.map_none, Option.getD_none]

/-- The keys that the import reads of an exported row. -/
structure RowTexts (d : Dict) (a : Asset) : Prop where
  name : text d "name" = reread a.name
  type : text d "type" = reread a.type
  os : text d "os" = reread (a.os.getD "")
  ip : text d "ip" = reread (a.ip.getD "")
  mac : text d "mac" = reread (a.mac.getD "")
  segment : text d "segment" = reread (a.segment.getD "")
  criticality : text d "criticality" = reread a.criticality

theorem text_cell {key h s : String} (hcolumn : column inventoryHeaders key = some h)
    (hcell : (inventoryHeaders.zip (cells print item)).lookup h = some (csvSafe s)) :
    text (rereadRow print item) key = reread s := by
  rw [text_column hcolumn, text, hcell]
  rfl

theorem rowTexts (print : Printing) (item : Item) :
    RowTexts (rereadRow print item) item.asset where
  name := text_cell (h := "Name") (column_inventory (by decide)) rfl
  type := text_cell (h := "Type") (column_inventory (by decide)) rfl
  os := text_cell (h := "OS") (column_inventory (by decide)) rfl
  ip := text_cell (h := "IP") (column_inventory (by decide)) rfl
  mac := text_cell (h := "MAC") (column_inventory (by decide)) rfl
  segment := text_cell (h := "Segment") (column_inventory (by decide)) rfl
  criticality := text_cell (h := "Criticality") (column_inventory (by decide)) rfl

/-- A key without a default. -/
theorem text_withDefaults_none {d : Dict} {key : String} (h : defaults.lookup key = none) :
    text (withDefaults d) key = text d key := by
  rw [text_withDefaults, h]
  split
  · rename_i hempty
    exact hempty.symm
  · rfl

/-- A key with a default. -/
theorem text_withDefaults_some {d : Dict} {key default : String}
    (h : defaults.lookup key = some default) :
    text (withDefaults d) key = if text d key = "" then default else text d key := by
  rw [text_withDefaults, h, Option.getD_some]

/-- The record of an exported row is the asset that comes back. -/
theorem importedAsset_row (now : Time) (uuid : ℕ) (item : Item) :
    importedAsset now uuid (withDefaults (rereadRow print item)) =
      reimported now uuid item.asset := by
  have htexts := rowTexts print item
  set row := rereadRow print item with hrow
  have hread : ∀ {key s : String}, defaults.lookup key = none → text row key = s →
      text (withDefaults row) key = s := fun hlookup hs => (text_withDefaults_none hlookup).trans hs
  have hreadOr : ∀ {key default s : String}, defaults.lookup key = some default →
      text row key = reread s → text (withDefaults row) key = rereadOr default s := by
    intro key default s hlookup hs
    rw [text_withDefaults_some hlookup, hs]
    rfl
  have hdefault : ∀ {key default : String}, key ∉ exportedKeys →
      defaults.lookup key = some default → text (withDefaults row) key = default := by
    intro key default hkey hlookup
    rw [text_withDefaults_some hlookup, text_no_column (column_inventory_none hkey), if_pos rfl]
  have hempty : ∀ {key : String}, key ∉ exportedKeys →
      defaults.lookup key = none → text (withDefaults row) key = "" :=
    fun hkey hlookup => hread hlookup (text_no_column (column_inventory_none hkey))
  have hlist : ∀ {key : String}, key ∉ exportedKeys →
      defaults.lookup key = none → listField (withDefaults row) key = [] :=
    fun hkey hlookup => listField_empty (hempty hkey hlookup)
  have hedr : text (withDefaults row) "edr_status" = "None" := hdefault (by decide) rfl
  have hcoverage : text (withDefaults row) "control_coverage" = "partial" :=
    hdefault (by decide) rfl
  have hexposure : text (withDefaults row) "network_exposure" = "internal" :=
    hdefault (by decide) rfl
  have hauth : text (withDefaults row) "auth_method" = "password" := hdefault (by decide) rfl
  have hclass : text (withDefaults row) "data_classification" = "Internal" :=
    hdefault (by decide) rfl
  have heol : text (withDefaults row) "eol_status" = "" := hempty (by decide) rfl
  have hdependencies : listField (withDefaults row) "dependencies" = [] := hlist (by decide) rfl
  have hstack : listField (withDefaults row) "software_stack" = [] := hlist (by decide) rfl
  have hcpe : listField (withDefaults row) "cpe" = [] := hlist (by decide) rfl
  have htags : listField (withDefaults row) "tags" = [] := hlist (by decide) rfl
  simp only [importedAsset, reimported, rereadAddress, addressField, importedShadow,
    hread rfl htexts.name, hreadOr rfl htexts.type, hread rfl htexts.os, hread rfl htexts.ip,
    hread rfl htexts.mac, hreadOr rfl htexts.segment, hreadOr rfl htexts.criticality, hedr,
    hcoverage, hexposure, hauth, hclass, heol, hdependencies, hstack, hcpe, htags]
  have hshadow : (decide ("None" ∈ ["None", ""]) || decide ("partial" = "none")) = true := by
    decide
  have hlower : decide (lower "" ∈ ["true", "1", "yes", "y"]) = false := by decide
  rw [hshadow, hlower]

end Row

/-! ## The exported file as an upload -/

section File
variable {print : Printing} {B : Backend} {db : Database} {limit : ℕ} {now : Time}
  {uuid : ℕ → ℕ} {u : Upload}

/-- The exported rows with the numbers of their lines. -/
def numbered (B : Backend) (db : Database) (limit : ℕ) : List (Item × ℕ) :=
  (VulnerabilityCounts.exportInventory B db limit).zipIdx 2

/-- The name of the row is not blank. -/
def named (e : Item × ℕ) : Bool := reread e.1.asset.name ≠ ""

/-- The row that the import adds for an exported one. -/
def comesBack (now : Time) (uuid : ℕ → ℕ) (e : Item × ℕ) : Asset :=
  let a := reimported now (uuid e.2) e.1.asset
  storeRisk a (riskOf a.toAssetColumns [])

/-- An upload whose records are those of the export. -/
structure HoldsExport (print : Printing) (B : Backend) (db : Database) (limit : ℕ) (u : Upload) :
    Prop where
  fieldnames : u.fieldnames = inventoryHeaders
  records : u.records = (VulnerabilityCounts.exportInventory B db limit).map (cells print)

theorem record_cells (hu : u.fieldnames = inventoryHeaders) (item : Item) :
    record u (cells print item) =
      if reread item.asset.name = "" then .error "name is required"
      else .ok (withDefaults (rereadRow print item)) := by
  have hname := (rowTexts print item).name
  have hlen : ¬ inventoryHeaders.length < (cells print item).length := by
    rw [length_cells]
    exact lt_irrefl _
  unfold record
  rw [hu, if_neg hlen]
  change (if text (rereadRow print item) "name" = "" then _ else _) = _
  rw [hname]
  rfl

theorem zipIdx_records (hu : HoldsExport print B db limit u) :
    u.records.zipIdx 2 = (numbered B db limit).map (Prod.map (cells print) id) := by
  rw [hu.records, List.zipIdx_map]
  rfl

theorem importedRows_export (hu : HoldsExport print B db limit u) :
    importedRows now u uuid = ((numbered B db limit).filter named).map (comesBack now uuid) := by
  rw [importedRows, imported, zipIdx_records hu]
  induction numbered B db limit with
  | nil => rfl
  | cons e es ih =>
    rw [List.map_cons]
    by_cases hname : reread e.1.asset.name = ""
    · have hrecord : record u (cells print e.1) = .error "name is required" := by
        rw [record_cells hu.fieldnames, if_pos hname]
      rw [List.filterMap_cons_none (by simp [hrecord, Except.toOption]),
        List.filter_cons_of_neg (by simp [named, hname]), ih]
    · have hrecord : record u (cells print e.1) =
          .ok (withDefaults (rereadRow print e.1)) := by
        rw [record_cells hu.fieldnames, if_neg hname]
      rw [List.filterMap_cons_some (b := (uuid e.2,
          withDefaults (rereadRow print e.1)))
          (by simp [hrecord, Except.toOption]),
        List.filter_cons_of_pos (by simp [named, hname]), List.map_cons, List.map_cons, ih]
      simp only [importedAsset_row]
      rfl

theorem rowErrors_export (hu : HoldsExport print B db limit u) : rowErrors u =
    ((numbered B db limit).filter fun e => !named e).map fun e => (e.2, "name is required") := by
  rw [rowErrors, zipIdx_records hu]
  induction numbered B db limit with
  | nil => rfl
  | cons e es ih =>
    rw [List.map_cons]
    by_cases hname : reread e.1.asset.name = ""
    · have hrecord : record u (cells print e.1) = .error "name is required" := by
        rw [record_cells hu.fieldnames, if_pos hname]
      rw [List.filterMap_cons_some (b := (e.2, "name is required")) (by simp [hrecord]),
        List.filter_cons_of_pos (by simp [named, hname]), List.map_cons, ih]
    · have hrecord : record u (cells print e.1) =
          .ok (withDefaults (rereadRow print e.1)) := by
        rw [record_cells hu.fieldnames, if_neg hname]
      rw [List.filterMap_cons_none (by simp [hrecord]),
        List.filter_cons_of_neg (by simp [named, hname]), ih]

/-- The export as a file. -/
def exportFile (print : Printing) (B : Backend) (db : Database) (limit : ℕ)
    (filename : Option String) : CsvFile where
  filename := filename
  content := (String.ofList (exportInventory print B db limit)).toUTF8

theorem dictReader_export (hshort : Short (inventoryRows print B db limit)) :
    dictReader (exportInventory print B db limit) = .ok (inventoryHeaders,
      (VulnerabilityCounts.exportInventory B db limit).map (cells print)) := by
  have hrows : (inventoryRows print B db limit).map (fun row => row.map Cell.shown) =
      (VulnerabilityCounts.exportInventory B db limit).map (cells print) := List.map_map
  have hkept :
      ((VulnerabilityCounts.exportInventory B db limit).map (cells print)).filter (· ≠ []) =
        (VulnerabilityCounts.exportInventory B db limit).map (cells print) := by
    refine List.filter_eq_self.mpr fun record hrecord => ?_
    obtain ⟨item, -, rfl⟩ := List.mem_map.mp hrecord
    exact decide_eq_true (List.cons_ne_nil _ _)
  rw [dictReader, exportInventory, read_streamCsv (by decide) hshort, ok_bind, hrows]
  dsimp only
  rw [hkept]
  rfl

theorem decodeSig_export (filename : Option String) :
    decodeSig (exportFile print B db limit filename).content =
      some (exportInventory print B db limit) := by
  have hstart : (exportInventory print B db limit).head? = some 'I' := by
    have hheaders : (writeRow inventoryHeaders).head? = some 'I' := by decide +kernel
    rw [exportInventory, streamCsv, List.head?_append, hheaders]
    rfl
  have hbom : (String.ofList (exportInventory print B db limit)).toList.head? ≠
      some (Char.ofNat 0xFEFF) := by
    rw [String.toList_ofList, hstart]
    decide
  unfold exportFile
  dsimp only
  rw [decodeSig_toUTF8 hbom, String.toList_ofList]

theorem readUpload_export (hshort : Short (inventoryRows print B db limit))
    {filename : Option String} (h : readUpload (exportFile print B db limit filename) = .ok u) :
    HoldsExport print B db limit u := by
  unfold readUpload at h
  split at h
  · cases h
  · split at h
    · cases h
    · simp only [decodeSig_export, dictReader_export hshort] at h
      obtain rfl := Except.ok.inj h
      exact ⟨rfl, rfl⟩

/-- The import adds exactly the exported rows whose names are not blank, in their order, each with
its name, type, operating system, addresses, segment and criticality and with nothing else that it
had, and reports the others. -/
structure ComesBack (B : Backend) (db : Database) (limit : ℕ) (now : Time) (uuid : ℕ → ℕ)
    (target target' : Database) (results : ImportResults) : Prop where
  rows : ∃ new, target'.assets.rows = target.assets.rows ++ new ∧
    List.Forall₂ InsertedAs (((numbered B db limit).filter named).map (comesBack now uuid)) new ∧
    results.created = new.length
  errors : results.errors = ((numbered B db limit).filter fun e => !named e).map
    fun e => (e.2, "name is required")

/-- The export of an inventory, imported anywhere, either raises and adds nothing, or comes back as
far as it does. -/
theorem reimport_inventory (A : Addressing) (now : Time) (uuid : ℕ → ℕ) (target : Database)
    (filename : Option String) (hshort : Short (inventoryRows print B db limit)) :
    (∃ e, importFile A now uuid false target (exportFile print B db limit filename) = .error e ∧
      storedAfter target
        (importFile A now uuid false target (exportFile print B db limit filename)) = target) ∨
    ∃ target' results,
      importFile A now uuid false target (exportFile print B db limit filename) =
        .ok (target', results) ∧ ComesBack B db limit now uuid target target' results := by
  cases h : importFile A now uuid false target (exportFile print B db limit filename) with
  | error e => exact .inl ⟨e, rfl, rfl⟩
  | ok out =>
    obtain ⟨u, hread, h⟩ := bind_eq_ok.mp h
    have hu := readUpload_export hshort hread
    cases himport : importAssetsCsv A now uuid false target u with
    | error e =>
      rw [himport] at h
      cases h
    | ok out' =>
      rw [himport] at h
      cases h
      obtain ⟨names, hdone⟩ := importAssetsCsv_false_ok himport
      obtain ⟨new, hrows, hnew⟩ := insertAssets_rows hdone.flushed
      rw [importedRows_export hu] at hnew
      refine .inr ⟨_, _, rfl, ⟨new, hrows, hnew, ?_⟩, ?_⟩
      · rw [hdone.created, importedRows_export hu, hnew.length_eq]
      · rw [hdone.errors, rowErrors_export hu]

end File

/-- A server with endpoint detection, whose name a spreadsheet would compute. -/
def guardedServer : Asset :=
  ({ name := "=web", type := "server", edrStatus := some "CrowdStrike",
     controlCoverage := "full" } : AssetCreate).toAsset 0 1

def guardedDb : Database := { Database.empty with assets := ⟨[guardedServer], by decide⟩ }

def guardedFile : CsvFile :=
  exportFile plainPrinting VulnerabilityCounts.plainBackend guardedDb 10 (some "inventory.csv")

/-- The upload that the file is read as, with its size. -/
def guardedUpload (totalBytes : ℕ) : Upload where
  filename := some "inventory.csv"
  totalBytes := totalBytes
  fieldnames := inventoryHeaders
  records := (VulnerabilityCounts.exportInventory VulnerabilityCounts.plainBackend guardedDb
    10).map (cells plainPrinting)

/-- What is evaluated of the file, of its upload and of the row that it becomes. -/
structure GuardedFacts : Prop where
  short : Short (inventoryRows plainPrinting VulnerabilityCounts.plainBackend guardedDb 10)
  size : guardedFile.content.size ≤ 50 * 1024 * 1024
  filename : (lower "inventory.csv").endsWith ".csv" = true
  scanned : scan (guardedUpload 0) = .ok ["'=web"]
  patches : ∀ e ∈ imported (guardedUpload 0) id, LastPatchFits (importedLastPatch e.2)
  rows : ((numbered VulnerabilityCounts.plainBackend guardedDb 10).filter named).map
    (comesBack 0 id) = [comesBack 0 id (⟨guardedServer, ⟨0, 0⟩⟩, 2)]
  storable : Storable .canonical (comesBack 0 id (⟨guardedServer, ⟨0, 0⟩⟩, 2))
  name : reread "=web" = "'=web"

/-- A text takes at most four bytes for each character. -/
theorem size_toUTF8_le (text : List Char) :
    (String.ofList text).toUTF8.size ≤ 4 * text.length := by
  have hsize : (String.ofList text).toUTF8.size =
      (text.flatMap String.utf8EncodeChar).length := by
    simp [String.toUTF8, List.utf8Encode]
  rw [hsize]
  clear hsize
  induction text with
  | nil => simp
  | cons c text ih =>
    have hc := c.utf8Size_le_four
    rw [List.flatMap_cons, List.length_append, String.length_utf8EncodeChar, List.length_cons]
    omega

set_option maxRecDepth 4000 in
theorem guardedFacts : GuardedFacts where
  short := by
    unfold Short
    decide +kernel
  size := by
    have hlength : (exportInventory plainPrinting VulnerabilityCounts.plainBackend guardedDb
        10).length ≤ 1024 := by decide +kernel
    exact (size_toUTF8_le _).trans (by omega)
  filename := by decide +kernel
  scanned := by decide +kernel
  patches := by decide +kernel
  rows := by decide +kernel
  storable := ⟨by decide +kernel, fun _ h => (by cases h), fun _ h => (by cases h)⟩
  name := by decide +kernel

theorem readUpload_guarded :
    readUpload guardedFile = .ok (guardedUpload guardedFile.content.size) := by
  have hname : (guardedFile.filename.any fun f => lower f |>.endsWith ".csv") = true :=
    guardedFacts.filename
  have hdecode : decodeSig guardedFile.content = some (exportInventory plainPrinting
      VulnerabilityCounts.plainBackend guardedDb 10) := decodeSig_export _
  unfold readUpload
  rw [hname, if_neg (by simp), if_neg (Nat.not_lt.mpr guardedFacts.size), hdecode]
  simp only [dictReader_export guardedFacts.short]
  rfl

theorem scan_guarded {n : ℕ} (hn : n ≤ 50 * 1024 * 1024) :
    scan (guardedUpload n) = .ok ["'=web"] := by
  have hname : ((guardedUpload n).filename.any fun f => lower f |>.endsWith ".csv") = true :=
    guardedFacts.filename
  have hsize : ¬ 50 * 1024 * 1024 < (guardedUpload n).totalBytes := Nat.not_lt.mpr hn
  have hempty := guardedFacts.scanned
  have hzero : ¬ 50 * 1024 * 1024 < (guardedUpload 0).totalBytes := by decide
  have hname₀ : ((guardedUpload 0).filename.any fun f => lower f |>.endsWith ".csv") = true := hname
  unfold scan at hempty ⊢
  rw [if_neg (by rw [hname]; simp), if_neg hsize]
  rw [if_neg (by rw [hname₀]; simp), if_neg hzero] at hempty
  exact hempty

theorem guarded_imported {n : ℕ} (hn : n ≤ 50 * 1024 * 1024) : ∃ target' results,
    importAssetsCsv .canonical 0 id false .empty (guardedUpload n) = .ok (target', results) := by
  have hu : HoldsExport plainPrinting VulnerabilityCounts.plainBackend guardedDb 10
      (guardedUpload n) := ⟨rfl, rfl⟩
  have hrows : importedRows 0 (guardedUpload n) id =
      [comesBack 0 id (⟨guardedServer, ⟨0, 0⟩⟩, 2)] := by
    rw [importedRows_export hu]
    exact guardedFacts.rows
  have hpatches : ∀ e ∈ imported (guardedUpload n) id, LastPatchFits (importedLastPatch e.2) :=
    guardedFacts.patches
  refine (importAssetsCsv_false_ok_iff (scan_guarded hn)).mpr
    ⟨List.forall_mem_nil _, hpatches, ?_⟩
  rw [hrows]
  refine (insertAssets_ok_iff (by simp) fun _ _ => rfl).mpr fun a ha => ?_
  rw [List.mem_singleton.mp ha]
  exact guardedFacts.storable

/-- The server comes back under a guarded name, without its endpoint detection and as a shadow
asset. -/
theorem server_comes_back : ∃ target' results,
    importFile .canonical 0 id false .empty guardedFile = .ok (target', results) ∧
      ∃ x ∈ target'.assets.rows, x.name = "'=web" ∧ x.edrStatus = some "None" ∧
        x.isShadow = true := by
  obtain ⟨target', results, himport⟩ := guarded_imported guardedFacts.size
  have hfile : importFile .canonical 0 id false .empty guardedFile = .ok (target', results) := by
    rw [importFile, readUpload_guarded, ok_bind, himport]
    rfl
  have hreimport := reimport_inventory .canonical 0 id .empty (some "inventory.csv")
    guardedFacts.short
  change (∃ e, importFile .canonical 0 id false .empty guardedFile = .error e ∧ _) ∨
    ∃ target' results, importFile .canonical 0 id false .empty guardedFile =
      .ok (target', results) ∧ _ at hreimport
  obtain ⟨e, herror, -⟩ | ⟨target₂, results₂, hok, ⟨new, hrows, hnew, -⟩, -⟩ := hreimport
  · rw [hfile] at herror
    cases herror
  · obtain ⟨rfl, rfl⟩ : target' = target₂ ∧ results = results₂ :=
      Prod.mk.inj (Except.ok.inj (hfile.symm.trans hok))
    rw [guardedFacts.rows] at hnew
    obtain ⟨x, rest, ⟨ip, mac, hx⟩, -, rfl⟩ := List.forall₂_cons_left_iff.mp hnew
    refine ⟨target', results, hfile, x, ?_, ?_, ?_, ?_⟩
    · rw [hrows]
      exact List.mem_append_right _ List.mem_cons_self
    · rw [hx]
      exact guardedFacts.name
    · rw [hx]
      rfl
    · rw [hx]
      rfl

end Kepryx.InventoryReimport
