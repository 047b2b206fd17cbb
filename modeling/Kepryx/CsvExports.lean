import Kepryx.AlertLifecycle
import Kepryx.CsvWriter
import Kepryx.Erasure
import Kepryx.VulnerabilityCounts

/-!
# The CSV exports

The inventory, the alerts and the audit log as CSV files. A text that a spreadsheet would take for
a formula gets an apostrophe in front. The reader gives back every exported row.
-/
namespace Kepryx.CsvExports
open Kepryx.Models Kepryx.Results Kepryx.CsvReader
open Kepryx.AlertLifecycle (StoredAlert)
open Kepryx.InventoryGraph (OrderBy)
open Kepryx.VulnerabilityCounts (Backend Item)

/-! ## Writing a file -/

/-- The characters that begin a formula. -/
def formulaStarts : List Char := ['=', '+', '-', '@', '\t', '\r']

/-- `value.startswith(("=", "+", "-", "@", "\t", "\r"))` -/
def startsFormula (s : String) : Bool := s.toList.head?.any (· ∈ formulaStarts)

/-- `_csv_safe` of a text. -/
def csvSafe (s : String) : String := if startsFormula s then "'" ++ s else s

/-- A value of a row: a text, or something else by what `str` makes of it. -/
inductive Cell where
  | text (s : String)
  | other (shown : String)
  deriving DecidableEq, Repr

/-- What stands in the field of a value. -/
def Cell.shown : Cell → String
  | .text s => csvSafe s
  | .other shown => shown

/-- The body of `_stream_csv`. -/
def streamCsv (headers : List String) (rows : List (List Cell)) : List Char :=
  writeRow headers ++ (rows.map fun row => row.map Cell.shown).flatMap writeRow

/-- What `str` and `isoformat` make of identifiers and times. -/
structure Printing where
  uuid : ℕ → String
  isoformat : Time → String

/-- `str` of a score, which is counted in hundredths. -/
def scoreText (n : ℤ) : String :=
  let hundredths := n.natAbs % 100
  (if n < 0 then "-" else "") ++ (toString (n.natAbs / 100) ++ ("." ++
    if hundredths % 10 = 0 then toString (hundredths / 10)
    else if hundredths < 10 then "0" ++ toString hundredths else toString hundredths))

variable (print : Printing)

/-! ## `export_inventory` -/

def inventoryHeaders : List String :=
  ["ID", "Name", "Type", "OS", "IP", "MAC", "Segment", "EDR Status", "Control Coverage",
    "Network Exposure", "Auth Method", "Criticality", "Data Classification", "Risk Score",
    "Risk Tier", "CVE Count", "KEV Count", "EOL", "Shadow IT", "Last Seen", "Sources"]

def inventoryRow (item : Item) : List Cell :=
  let a := item.asset
  [.text (print.uuid a.id), .text a.name, .text a.type, .text (a.os.getD ""),
    .text (a.ip.getD ""), .text (a.mac.getD ""), .text (a.segment.getD ""),
    .text (a.edrStatus.getD ""), .text a.controlCoverage, .text a.networkExposure,
    .text a.authMethod, .text a.criticality, .text a.dataClassification,
    .other (scoreText a.riskScore), .text (VulnerabilityCounts.tierText a.riskTier),
    .other (toString item.counts.cve), .other (toString item.counts.kev),
    .text (if a.eolStatus then "YES" else "no"), .text (if a.isShadow then "YES" else "no"),
    .text (print.isoformat a.lastSeen), .text (", ".intercalate a.sourceList)]

def inventoryRows (B : Backend) (db : Database) (limit : ℕ) : List (List Cell) :=
  (VulnerabilityCounts.exportInventory B db limit).map (inventoryRow print)

/-- The body of the inventory export. -/
def exportInventory (B : Backend) (db : Database) (limit : ℕ) : List Char :=
  streamCsv inventoryHeaders (inventoryRows print B db limit)

/-! ## `export_alerts` -/

/-- `Alert.created_at.desc()` -/
abbrev NewestFirst := OrderBy fun a : StoredAlert => a.createdAt

def alertHeaders : List String :=
  ["ID", "Created", "Severity", "Type", "Title", "Status", "Asset ID", "Resolved At", "Resolved By"]

def statusText : AlertStatus → String
  | .open => "open"
  | .resolved => "resolved"

def alertTexts (a : StoredAlert) : List String :=
  [print.uuid a.id, print.isoformat a.createdAt, a.severity, a.alertType, a.title,
    statusText a.status, (a.assetId.map print.uuid).getD "",
    (a.resolvedAt.map print.isoformat).getD "", a.resolvedBy.getD ""]

/-- The texts of the newest alerts. -/
def newestAlerts (order : NewestFirst) (alerts : List StoredAlert) (limit : ℕ) :
    List (List String) :=
  ((order.arrange alerts).take limit).map (alertTexts print)

def exportAlerts (order : NewestFirst) (alerts : List StoredAlert) (limit : ℕ) : List Char :=
  streamCsv alertHeaders ((newestAlerts print order alerts limit).map (List.map .text))

/-! ## `export_audit` -/

/-- A row of `audit_log` with its time. -/
structure AuditEntry extends Erasure.AuditLog where
  timestamp : Time

def auditHeaders : List String :=
  ["Timestamp", "Username", "Action", "Resource Type", "Resource ID", "IP Address", "Severity",
    "User Agent"]

/-- `a or b` of texts. -/
def orElse (s : Option String) (fallback : String) : String :=
  (s.filter (· ≠ "")).getD fallback

def auditTexts (e : AuditEntry) : List String :=
  [print.isoformat e.timestamp, orElse e.username "system", e.action, e.resourceType.getD "",
    e.resourceId.getD "", e.ipAddress.getD "", e.severity,
    String.ofList ((e.userAgent.getD "").toList.take 200)]

/-- `AuditLog.timestamp.desc()` -/
abbrev LatestFirst := OrderBy fun e : AuditEntry => e.timestamp

/-- The texts of the newest entries. -/
def newestEntries (order : LatestFirst) (entries : List AuditEntry) (limit : ℕ) :
    List (List String) :=
  ((order.arrange entries).take limit).map (auditTexts print)

def exportAudit (order : LatestFirst) (entries : List AuditEntry) (limit : ℕ) : List Char :=
  streamCsv auditHeaders ((newestEntries print order entries limit).map (List.map .text))

/-! ## Reading a file back -/

variable {print}

theorem startsFormula_quote (s : String) : startsFormula ("'" ++ s) = false := by
  rw [startsFormula, String.toList_append]
  rfl

/-- A guarded text begins no formula. -/
theorem startsFormula_csvSafe (s : String) : startsFormula (csvSafe s) = false := by
  unfold csvSafe
  split
  · exact startsFormula_quote s
  · rename_i h
    exact Bool.not_eq_true _ ▸ h

/-- The texts that an export does not tell apart: equal ones, and a formula and the same text with
an apostrophe. -/
theorem csvSafe_eq_iff {s t : String} : csvSafe s = csvSafe t ↔
    s = t ∨ startsFormula s ∧ t = "'" ++ s ∨ startsFormula t ∧ s = "'" ++ t := by
  have hquote : ∀ {s t : String}, "'" ++ s = "'" ++ t ↔ s = t := fun {s t} => by
    rw [← String.toList_inj, String.toList_append, String.toList_append, List.append_cancel_left_eq,
      String.toList_inj]
  constructor
  · intro h
    unfold csvSafe at h
    split at h
    · rename_i hs
      split at h
      · exact .inl (hquote.mp h)
      · exact .inr (.inl ⟨hs, h.symm⟩)
    · split at h
      · rename_i ht
        exact .inr (.inr ⟨ht, h⟩)
      · exact .inl h
  · rintro (rfl | ⟨hs, rfl⟩ | ⟨ht, rfl⟩)
    · rfl
    · rw [csvSafe, if_pos hs, csvSafe, startsFormula_quote]
      rfl
    · rw [csvSafe, csvSafe, startsFormula_quote, if_pos ht]
      rfl

/-- The two texts look alike in an export. -/
def Alike (s t : String) : Prop :=
  s = t ∨ startsFormula s ∧ t = "'" ++ s ∨ startsFormula t ∧ s = "'" ++ t

/-- Every field is short enough for the reader. -/
def Short (rows : List (List Cell)) : Prop :=
  ∀ row ∈ rows, ∀ cell ∈ row, cell.shown.length ≤ fieldSizeLimit

/-- The reader gives back the headers and what stands in the fields. -/
theorem read_streamCsv {headers : List String} {rows : List (List Cell)}
    (hheaders : ∀ s ∈ headers, s.length ≤ fieldSizeLimit) (hshort : Short rows) :
    readRecords (lines (streamCsv headers rows)) {} =
      .ok (headers :: rows.map fun row => row.map Cell.shown) := by
  rw [streamCsv, ← List.flatMap_cons]
  refine read_writeRows fun record hrecord s hs => ?_
  rcases List.mem_cons.mp hrecord with rfl | hrecord
  · exact hheaders s hs
  · obtain ⟨row, hrow, rfl⟩ := List.mem_map.mp hrecord
    obtain ⟨cell, hcell, rfl⟩ := List.mem_map.mp hs
    exact hshort row hrow cell hcell

/-- The file is read as these headers and one record for each of the rows, and no field begins a
formula. -/
structure ReadsAs (body : List Char) (headers : List String) (rows : List (List Cell)) : Prop where
  read : readRecords (lines body) {} = .ok (headers :: rows.map fun row => row.map Cell.shown)
  harmless : ∀ row ∈ rows, ∀ cell ∈ row, startsFormula cell.shown = false

/-- A text that begins with a number begins no formula. -/
theorem startsFormula_toString_append (n : ℕ) (s : String) :
    startsFormula (toString n ++ s) = false := by
  have htext : (toString n).toList = Nat.toDigits 10 n := Nat.toList_repr
  obtain ⟨c, rest, hdigits⟩ :=
    List.exists_cons_of_ne_nil (Nat.toDigits_ne_nil (n := n) (b := 10))
  have hc : c.isDigit = true := by
    refine Nat.isDigit_of_mem_toDigits (b := 10) (n := n) (by decide) (by decide) ?_
    rw [hdigits]
    exact List.mem_cons_self
  rw [startsFormula, String.toList_append, htext, hdigits]
  have hnone : formulaStarts.any Char.isDigit = false := by decide
  refine decide_eq_false fun hmem => ?_
  exact List.any_eq_false.mp hnone c hmem hc

theorem startsFormula_toString (n : ℕ) : startsFormula (toString n) = false := by
  simpa using startsFormula_toString_append n ""

/-- A score that is not negative begins no formula. -/
theorem startsFormula_scoreText {n : ℤ} (h : 0 ≤ n) : startsFormula (scoreText n) = false := by
  have hsign : (if n < 0 then "-" else "") = "" := if_neg (not_lt.mpr h)
  rw [scoreText, hsign, String.empty_append]
  exact startsFormula_toString_append _ _

/-- A row of texts is guarded in every field. -/
theorem harmless_texts {rows : List (List String)} : ∀ row ∈ rows.map (List.map Cell.text),
    ∀ cell ∈ row, startsFormula cell.shown = false := by
  intro row hrow cell hcell
  obtain ⟨texts, -, rfl⟩ := List.mem_map.mp hrow
  obtain ⟨s, -, rfl⟩ := List.mem_map.mp hcell
  exact startsFormula_csvSafe s

theorem harmless_inventoryRow {item : Item} (hscore : 0 ≤ item.asset.riskScore) :
    ∀ cell ∈ inventoryRow print item, startsFormula cell.shown = false := by
  simp only [inventoryRow, List.forall_mem_cons, Cell.shown, startsFormula_csvSafe,
    startsFormula_toString, startsFormula_scoreText hscore, true_and]
  exact fun _ h => absurd h List.not_mem_nil

/-- Each export is read back row by row, and no field of it begins a formula. -/
theorem exports_read (B : Backend) (db : Database) (order : NewestFirst)
    (alerts : List StoredAlert) (latest : LatestFirst) (entries : List AuditEntry) (limit : ℕ)
    (hscore : ∀ a ∈ db.assets.rows, 0 ≤ a.riskScore)
    (hinventory : Short (inventoryRows print B db limit))
    (halerts : Short ((newestAlerts print order alerts limit).map (List.map .text)))
    (haudit : Short ((newestEntries print latest entries limit).map (List.map .text))) :
    ReadsAs (exportInventory print B db limit) inventoryHeaders (inventoryRows print B db limit) ∧
    ReadsAs (exportAlerts print order alerts limit) alertHeaders
      ((newestAlerts print order alerts limit).map (List.map .text)) ∧
    ReadsAs (exportAudit print latest entries limit) auditHeaders
      ((newestEntries print latest entries limit).map (List.map .text)) := by
  refine ⟨⟨read_streamCsv (by decide) hinventory, ?_⟩, ⟨read_streamCsv (by decide) halerts,
    harmless_texts⟩, ⟨read_streamCsv (by decide) haudit, harmless_texts⟩⟩
  intro row hrow
  obtain ⟨item, hitem, rfl⟩ := List.mem_map.mp hrow
  obtain ⟨a, ha, rfl⟩ := List.mem_map.mp hitem
  have hstored : a ∈ db.assets.rows :=
    (B.unordered_perm _).mem_iff.mp (List.mem_of_mem_take ha)
  exact harmless_inventoryRow (hscore a hstored)

/-! ## What an export does not tell -/

/-- Lists agree element by element if their images are equal. -/
theorem forall₂_iff_map_eq {α β γ : Type*} {R : α → β → Prop} {f : α → γ} {g : β → γ}
    (h : ∀ a b, R a b ↔ f a = g b) {xs : List α} {ys : List β} :
    List.Forall₂ R xs ys ↔ xs.map f = ys.map g := by
  induction xs generalizing ys with
  | nil => cases ys <;> simp
  | cons x xs ih =>
    cases ys with
    | nil => simp
    | cons y ys => rw [List.forall₂_cons, h, ih, List.map_cons, List.map_cons, List.cons.injEq]

theorem alike_texts_iff (texts texts' : List String) : List.Forall₂ Alike texts texts' ↔
    (texts.map Cell.text).map Cell.shown = (texts'.map Cell.text).map Cell.shown := by
  rw [List.map_map, List.map_map]
  exact forall₂_iff_map_eq (R := Alike) fun s t => (csvSafe_eq_iff (s := s) (t := t)).symm

/-- Two lists of rows of texts give the same file exactly if they look alike field by field. -/
theorem streamCsv_texts_eq_iff {headers : List String} {rows rows' : List (List String)}
    (hheaders : ∀ s ∈ headers, s.length ≤ fieldSizeLimit)
    (hshort : Short (rows.map (List.map .text))) (hshort' : Short (rows'.map (List.map .text))) :
    streamCsv headers (rows.map (List.map .text)) = streamCsv headers (rows'.map (List.map .text)) ↔
      List.Forall₂ (List.Forall₂ Alike) rows rows' := by
  have hsame : List.Forall₂ (List.Forall₂ Alike) rows rows' ↔
      (rows.map (List.map Cell.text)).map (List.map Cell.shown) =
        (rows'.map (List.map Cell.text)).map (List.map Cell.shown) := by
    rw [List.map_map, List.map_map]
    exact forall₂_iff_map_eq alike_texts_iff
  rw [hsame]
  constructor
  · intro h
    have hread := read_streamCsv hheaders hshort
    rw [h, read_streamCsv hheaders hshort'] at hread
    exact (List.cons.inj (Except.ok.inj hread)).2.symm
  · intro h
    rw [streamCsv, streamCsv, h]

/-- Two tables give the same export of alerts, or of the audit log, exactly if their newest rows
look alike. -/
theorem exports_eq_iff (order order' : NewestFirst) (alerts alerts' : List StoredAlert)
    (latest latest' : LatestFirst) (entries entries' : List AuditEntry) (limit limit' : ℕ)
    (halerts : Short ((newestAlerts print order alerts limit).map (List.map .text)))
    (halerts' : Short ((newestAlerts print order' alerts' limit').map (List.map .text)))
    (haudit : Short ((newestEntries print latest entries limit).map (List.map .text)))
    (haudit' : Short ((newestEntries print latest' entries' limit').map (List.map .text))) :
    (exportAlerts print order alerts limit = exportAlerts print order' alerts' limit' ↔
      List.Forall₂ (List.Forall₂ Alike) (newestAlerts print order alerts limit)
        (newestAlerts print order' alerts' limit')) ∧
    (exportAudit print latest entries limit = exportAudit print latest' entries' limit' ↔
      List.Forall₂ (List.Forall₂ Alike) (newestEntries print latest entries limit)
        (newestEntries print latest' entries' limit')) :=
  ⟨streamCsv_texts_eq_iff (by decide) halerts halerts',
    streamCsv_texts_eq_iff (by decide) haudit haudit'⟩

def plainPrinting : Printing := ⟨fun n => toString n, fun _ => "now"⟩

/-- An alert whose title a spreadsheet would compute. -/
def titled (title : String) : StoredAlert :=
  { AlertLifecycle.inactiveUser.row 0 0 with title := title }

def exported (title : String) : List Char :=
  exportAlerts plainPrinting (GraphEvidence.inTableOrder _) [titled title] 10

/-- An inventory with one asset, which has a score and two CVEs. -/
def scoredDb : Database :=
  { RiskPaths.suppressedKev with
    assets := ⟨[{ Reconciler.newColumns 0 1 "manual" {} "@db" "Database" with
      riskScore := 320, riskTier := .high, sources := some ["manual", "csv_import"] }],
        by decide⟩ }

/-- An entry about a login that failed. -/
def failedLogin : AuditEntry where
  userId := none
  username := some "+root"
  action := "login_failed"
  ipAddress := some "10.0.0.9"
  userAgent := some "curl, \"8\"\r\n"
  severity := "warning"
  timestamp := 60

/-- The asset, the alert and the entry, whose texts hold formulas, commas, quotes and line ends. -/
theorem formula_exported :
    ReadsAs (exportInventory plainPrinting VulnerabilityCounts.plainBackend scoredDb 10)
      inventoryHeaders
      (inventoryRows plainPrinting VulnerabilityCounts.plainBackend scoredDb 10) ∧
    ReadsAs (exported "=1+1") alertHeaders
      [["0", "now", "medium", "inactive_user", "=1+1", "open", "", "", ""].map .text] ∧
    ReadsAs (exportAudit plainPrinting (GraphEvidence.inTableOrder _) [failedLogin] 10)
      auditHeaders
      [["now", "+root", "login_failed", "", "", "10.0.0.9", "warning",
        "curl, \"8\"\r\n"].map .text] :=
  exports_read VulnerabilityCounts.plainBackend scoredDb (GraphEvidence.inTableOrder _)
    [titled "=1+1"] (GraphEvidence.inTableOrder _) [failedLogin] 10 (by decide)
    (by unfold Short; decide +kernel) (by unfold Short; decide +kernel)
    (by unfold Short; decide +kernel)

/-- A formula and the guarded formula are exported alike. -/
theorem guarded_formula_exported : exported "=1+1" = exported "'=1+1" :=
  (exports_eq_iff (GraphEvidence.inTableOrder _) (GraphEvidence.inTableOrder _) [titled "=1+1"]
    [titled "'=1+1"] (GraphEvidence.inTableOrder _) (GraphEvidence.inTableOrder _) [] [] 10 10
    (by unfold Short; decide +kernel) (by unfold Short; decide +kernel)
    (fun _ hrow => absurd hrow List.not_mem_nil)
    (fun _ hrow => absurd hrow List.not_mem_nil)).1.mpr (by
      unfold Alike
      decide +kernel)

end Kepryx.CsvExports
