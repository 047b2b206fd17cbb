import Mathlib.Data.List.Sort
import Mathlib.Data.String.Basic
import Mathlib.Logic.Function.Basic
import Kepryx.ComplianceCatalog
import Kepryx.Results

/-!
# The compliance audit

An audit assesses every asset against every control of the catalog that the database knows in
an active framework. Each assessment leaves a result, an evidence item and the link between
them, writes the mapping of the asset to the control, and opens, refreshes or closes the alert
about a gap. All of it is one transaction.
-/
namespace Kepryx.ComplianceAudit
open Kepryx.Models Kepryx.Tables Kepryx.Results Kepryx.CompliancePercentages
open Kepryx.ComplianceCatalog

/-! ## The frameworks in the database -/

/-- A row of `framework_catalogs`. -/
structure FrameworkCatalog where
  id : ℕ
  code : String
  version : String
  active : Bool := true
  deriving DecidableEq, Repr

/-- A row of `framework_controls`. -/
structure FrameworkControl where
  id : ℕ
  catalogId : ℕ
  controlId : String
  sortOrder : ℤ := 0
  deriving DecidableEq, Repr

/-- Both tables, under their unique constraints and the foreign key between them. -/
structure CatalogRows where
  catalogs : Table fun c : FrameworkCatalog => c.id
  controls : Table fun c : FrameworkControl => c.id
  catalogs_unique : (catalogs.rows.map fun c => (c.code, c.version)).Nodup
  controls_unique : (controls.rows.map fun c => (c.catalogId, c.controlId)).Nodup
  references : ∀ c ∈ controls.rows, (catalogs.find c.catalogId).isSome = true

namespace CatalogRows
variable (rows : CatalogRows)

/-- The controls of the active catalogs. -/
def joined : List (FrameworkControl × FrameworkCatalog) :=
  rows.controls.rows.filterMap fun control =>
    ((rows.catalogs.find control.catalogId).filter FrameworkCatalog.active).map (control, ·)

/-- `order_by(FrameworkCatalog.code, FrameworkControl.sort_order)` -/
def precedes (p q : FrameworkControl × FrameworkCatalog) : Prop :=
  p.2.code < q.2.code ∨ p.2.code = q.2.code ∧ p.1.sortOrder ≤ q.1.sortOrder

instance : DecidableRel precedes := fun _ _ => inferInstanceAs (Decidable (_ ∨ _))

/-- The dictionary of the controls: the last row of a key stays. -/
def lookup (key : String × String) : Option (FrameworkControl × FrameworkCatalog) :=
  (rows.joined.insertionSort precedes).reverse.find? fun p => (p.2.code, p.1.controlId) = key

/-- The control is there, in an active catalog of the framework. -/
def Present (key : String × String) : Prop :=
  ∃ catalog ∈ rows.catalogs.rows, catalog.active = true ∧ catalog.code = key.1 ∧
    ∃ control ∈ rows.controls.rows, control.catalogId = catalog.id ∧ control.controlId = key.2

theorem mem_joined {p : FrameworkControl × FrameworkCatalog} :
    p ∈ rows.joined ↔ p.1 ∈ rows.controls.rows ∧ p.2 ∈ rows.catalogs.rows ∧
      p.2.active = true ∧ p.1.catalogId = p.2.id := by
  obtain ⟨control, catalog⟩ := p
  simp only [joined, List.mem_filterMap, Option.map_eq_some_iff, Option.filter_eq_some_iff]
  constructor
  · rintro ⟨x, hx, y, ⟨hfind, hactive⟩, heq⟩
    cases heq
    obtain ⟨hy, hid⟩ := Table.find_eq_some.mp hfind
    exact ⟨hx, hy, hactive, hid.symm⟩
  · rintro ⟨hcontrol, hcatalog, hactive, hid⟩
    exact ⟨control, hcontrol, catalog, ⟨Table.find_eq_some.mpr ⟨hcatalog, hid.symm⟩, hactive⟩, rfl⟩

theorem lookup_some {key : String × String} {p : FrameworkControl × FrameworkCatalog}
    (h : rows.lookup key = some p) :
    p ∈ rows.joined ∧ p.2.code = key.1 ∧ p.1.controlId = key.2 := by
  have hmem := List.mem_of_find?_eq_some h
  have hkey : (p.2.code, p.1.controlId) = key := by simpa using List.find?_some h
  refine ⟨(List.mem_insertionSort _).mp (List.mem_reverse.mp hmem), ?_, ?_⟩
  · rw [← hkey]
  · rw [← hkey]

/-- The dictionary has the controls that are present. -/
theorem lookup_isSome {key : String × String} : (rows.lookup key).isSome ↔ rows.Present key := by
  constructor
  · intro h
    obtain ⟨p, hp⟩ := Option.isSome_iff_exists.mp h
    obtain ⟨hmem, hcode, hcontrol⟩ := rows.lookup_some hp
    obtain ⟨hp₁, hp₂, hactive, hid⟩ := rows.mem_joined.mp hmem
    exact ⟨p.2, hp₂, hactive, hcode, p.1, hp₁, hid, hcontrol⟩
  · rintro ⟨catalog, hcatalog, hactive, hcode, control, hcontrol, hid, hkey⟩
    have hmem : (control, catalog) ∈ rows.joined :=
      rows.mem_joined.mpr ⟨hcontrol, hcatalog, hactive, hid⟩
    refine List.find?_isSome.mpr ⟨(control, catalog), ?_, ?_⟩
    · exact List.mem_reverse.mpr ((List.mem_insertionSort _).mpr hmem)
    · simp [hcode, hkey]

end CatalogRows

/-! ## The rows of an audit -/

/-- An identifier: the run that drew it, and which of its draws it was. -/
structure Id where
  run : ℕ
  draw : ℕ
  deriving DecidableEq, Repr

/-- A row of `evidence_items`; the framework and the control are its metadata. -/
structure EvidenceItem where
  id : Id
  sourceRef : String
  title : String
  description : String
  observed : Observed
  observedAt : Time
  integritySha256 : String
  framework : String
  controlId : String
  deriving DecidableEq, Repr

/-- A row of `assessment_results`. -/
structure AssessmentResult where
  id : Id
  runId : ℕ
  controlId : ℕ
  assetId : ℕ
  status : Status
  score : ℚ
  confidence : ℚ
  rationale : String
  ruleKey : String
  assessedAt : Time
  deriving DecidableEq, Repr

/-- A row of `assessment_evidence`. -/
structure AssessmentEvidence where
  resultId : Id
  evidenceId : Id
  deriving DecidableEq, Repr

/-- The evidence document of a mapping. -/
structure MappingEvidence where
  payload : EvidencePayload
  frameworkVersion : String
  assessmentRunId : ℕ
  assessmentResultId : Id
  evidenceId : Id
  integritySha256 : String
  deriving DecidableEq, Repr

/-- A row of `compliance_mappings`. -/
structure ComplianceMapping where
  id : Id
  framework : String
  controlId : String
  assetId : ℕ
  status : Status
  evidence : Option MappingEvidence
  assessedAt : Time
  deriving DecidableEq, Repr

/-- A framework, a control of it and an asset. -/
abbrev Key := String × String × ℕ

def ComplianceMapping.key (m : ComplianceMapping) : Key := (m.framework, m.controlId, m.assetId)

/-- The details of an alert about a gap. -/
structure GapDetails where
  framework : String
  frameworkVersion : String
  control : String
  status : Status
  assessmentRunId : ℕ
  assessmentResultId : Id
  evidenceId : Id
  evidence : EvidencePayload
  deriving DecidableEq, Repr

/-- A row of `alerts` whose type is `compliance_gap`. -/
structure GapAlert where
  id : Id
  severity : Severity := .medium
  title : String
  description : String
  assetId : Option ℕ
  details : GapDetails
  status : AlertStatus := .open
  resolvedAt : Option Time := none
  resolvedBy : Option String := none
  deriving DecidableEq, Repr

/-- What the alerts about a gap are told apart by. -/
def GapAlert.slot (x : GapAlert) : Option ℕ × String := (x.assetId, x.title)

/-- The summary of one framework. -/
structure FrameworkSummary where
  counts : Counts
  total : ℕ
  compliancePct : ℚ

structure Summary where
  assets : ℕ
  results : ℕ
  evidenceItems : ℕ
  noncompliantResults : ℕ
  statusCounts : Counts
  frameworks : List (String × FrameworkSummary)

/-- A completed row of `assessment_runs`. -/
structure AssessmentRun where
  id : ℕ
  initiatedBy : String
  startedAt : Time
  completedAt : Time
  summary : Summary

/-- The tables that an audit writes. -/
structure AuditDb where
  runs : List AssessmentRun
  results : List AssessmentResult
  evidenceItems : List EvidenceItem
  links : List AssessmentEvidence
  mappings : Table fun m : ComplianceMapping => m.id
  alerts : Table fun x : GapAlert => x.id

def AuditDb.empty : AuditDb := ⟨[], [], [], [], .empty, .empty⟩

/-- What an audit reads besides: the inventory and the frameworks, two clock readings, and who
asked for it. -/
structure Inputs where
  assets : Table fun a : AssessedAsset => a.id
  catalog : CatalogRows
  now : Time
  finished : Time
  initiatedBy : String

/-- What the standard library computes: the hash of the canonical JSON of the observed fields,
and rounding. -/
structure Primitives where
  integrityHash : Observed → String
  rounding : Rounding

/-! ## One turn of the loop -/

/-- An asset and a control of the catalog. -/
structure Turn where
  asset : AssessedAsset
  framework : String
  controlId : String
  rule : ControlRule

namespace Turn
variable (t : Turn)

def key : Key := (t.framework, t.controlId, t.asset.id)

def evidenceTitle : String := t.framework ++ " " ++ t.controlId ++ " evidence for " ++ t.asset.name

/-- `f"Compliance gap: {framework} {control_id} on {asset.name}"` -/
def gapTitle : String :=
  "Compliance gap: " ++ t.framework ++ " " ++ t.controlId ++ " on " ++ t.asset.name

/-- The slot of the alert about this gap. -/
def slot : Option ℕ × String := (some t.asset.id, t.gapTitle)

def assessment : Assessment := assess t.rule t.asset

/-- `asset.criticality in ("critical", "tier-1", "high")` -/
def highCriticality : Bool := t.asset.criticality ∈ ["critical", "tier-1", "high"]

end Turn

/-- The INSERT of a text into a column of 255 characters. -/
def bindTitle (title : String) : Except DbError Unit :=
  if 255 < title.length then .error .dataError else .ok ()

/-- The INSERT of a row under a primary key. -/
def insertRow {ρ κ : Type*} [DecidableEq κ] {key : ρ → κ} (t : Table key) (r : ρ) :
    Except DbError (Table key) :=
  match t.insert? r with
  | none => .error .uniqueViolation
  | some t => .ok t

/-- The three rows of an assessment. -/
structure Record where
  turn : Turn
  control : FrameworkControl
  catalog : FrameworkCatalog
  result : AssessmentResult
  evidence : EvidenceItem
  link : AssessmentEvidence

/-- The rows of the assessment whose identifiers are drawn from `draws` on. -/
def newRecord (P : Primitives) (runId draws : ℕ) (now : Time) (t : Turn)
    (control : FrameworkControl) (catalog : FrameworkCatalog) : Record where
  turn := t
  control := control
  catalog := catalog
  result :=
    { id := ⟨runId, draws⟩
      runId := runId
      controlId := control.id
      assetId := t.asset.id
      status := t.assessment.status
      score := t.assessment.score
      confidence := t.assessment.confidence
      rationale := t.assessment.rationale
      ruleKey := t.rule.ruleKey
      assessedAt := now }
  evidence :=
    { id := ⟨runId, draws + 1⟩
      sourceRef := "asset:" ++ toString t.asset.id
      title := t.evidenceTitle
      description := (evidence t.rule t.asset).description
      observed := (evidence t.rule t.asset).observed
      observedAt := t.asset.lastSeen
      integritySha256 := P.integrityHash (evidence t.rule t.asset).observed
      framework := t.framework
      controlId := t.controlId }
  link := ⟨⟨runId, draws⟩, ⟨runId, draws + 1⟩⟩

namespace Record
variable (r : Record)

/-- `mapping_evidence` -/
def mappingEvidence : MappingEvidence where
  payload := ComplianceCatalog.evidence r.turn.rule r.turn.asset
  frameworkVersion := r.catalog.version
  assessmentRunId := r.result.runId
  assessmentResultId := r.result.id
  evidenceId := r.evidence.id
  integritySha256 := r.evidence.integritySha256

/-- The assignments to a mapping. -/
def assign (m : ComplianceMapping) : ComplianceMapping :=
  { m with
    status := r.result.status
    evidence := some r.mappingEvidence
    assessedAt := r.result.assessedAt }

/-- The mapping that is added when there is none. -/
def newMapping (id : Id) : ComplianceMapping where
  id := id
  framework := r.turn.framework
  controlId := r.turn.controlId
  assetId := r.turn.asset.id
  status := r.result.status
  evidence := some r.mappingEvidence
  assessedAt := r.result.assessedAt

def gapDetails : GapDetails where
  framework := r.turn.framework
  frameworkVersion := r.catalog.version
  control := r.turn.controlId
  status := r.result.status
  assessmentRunId := r.result.runId
  assessmentResultId := r.result.id
  evidenceId := r.evidence.id
  evidence := ComplianceCatalog.evidence r.turn.rule r.turn.asset

/-- The text of a status. -/
def statusText : Status → String
  | .compliant => "compliant"
  | .partially => "partial"
  | .gap => "gap"
  | .exception => "exception"
  | .notAssessed => "not_assessed"
  | .notApplicable => "not_applicable"
  | .na => "na"
  | .unknown => "unknown"

def gapDescription : String := r.turn.rule.desc ++ " — " ++ statusText r.result.status

def newAlert (id : Id) : GapAlert where
  id := id
  title := r.turn.gapTitle
  description := r.gapDescription
  assetId := some r.turn.asset.id
  details := r.gapDetails

/-- The assignments that close an alert. -/
def close (x : GapAlert) : GapAlert :=
  { x with
    status := .resolved
    resolvedAt := some r.result.assessedAt
    resolvedBy := some "compliance_audit" }

/-- The assignments that bring an open alert up to date. -/
def refresh (x : GapAlert) : GapAlert :=
  { x with description := r.gapDescription, details := r.gapDetails }

end Record

/-- The mappings and their index after a record. -/
def writeMapping (mappings : Table fun m : ComplianceMapping => m.id) (index : Key → Option Id)
    (id : Id) (r : Record) :
    Except DbError ((Table fun m : ComplianceMapping => m.id) × (Key → Option Id)) :=
  match index r.turn.key with
  | some known =>
    .ok (mappings.mapRows (fun m => if m.id = known then r.assign m else m)
      fun m => by split <;> rfl, index)
  | none => do
    let mappings ← insertRow mappings (r.newMapping id)
    return (mappings, Function.update index r.turn.key (some id))

/-- The open alerts about the gap. -/
def openAt (alerts : Table fun x : GapAlert => x.id) (slot : Option ℕ × String) : List GapAlert :=
  alerts.rows.filter fun x => x.assetId = slot.1 && x.title = slot.2 && x.status = .open

/-- The alerts after a record: a compliant result closes what is open, a gap of an asset of high
criticality refreshes the first open one or opens one. -/
def writeAlert (alerts : Table fun x : GapAlert => x.id) (id : Id) (r : Record) :
    Except DbError (Table fun x : GapAlert => x.id) :=
  let found := openAt alerts r.turn.slot
  if r.result.status = .compliant then
    .ok (alerts.mapRows (fun x => if x ∈ found then r.close x else x) fun x => by split <;> rfl)
  else if r.turn.highCriticality then
    match found with
    | alert :: _ =>
      .ok (alerts.mapRows (fun x => if x.id = alert.id then r.refresh x else x)
        fun x => by split <;> rfl)
    | [] => do
      bindTitle r.turn.gapTitle
      insertRow alerts (r.newAlert id)
  else .ok alerts

/-! ## The loop -/

/-- The variables of the loop. -/
structure Loop where
  db : AuditDb
  mappingByKey : Key → Option Id
  draws : ℕ := 0
  statusCounts : Counts := emptyCounts
  frameworkCounts : List (String × Counts) := []
  noncompliantCount : ℕ := 0
  evidenceCount : ℕ := 0

/-- `counts[status] += 1` -/
def increment (counts : Counts) (status : Status) : Counts :=
  Function.update counts status (counts status + 1)

/-- `framework_counts[framework][status] += 1` -/
def incrementFramework (framework : String) (status : Status) :
    List (String × Counts) → List (String × Counts)
  | [] => [(framework, increment emptyCounts status)]
  | (f, counts) :: rest =>
    if f = framework then (f, increment counts status) :: rest
    else (f, counts) :: incrementFramework framework status rest

/-- The variables after a record. -/
def Loop.advance (st : Loop) (r : Record) (mappings : Table fun m : ComplianceMapping => m.id)
    (index : Key → Option Id) (alerts : Table fun x : GapAlert => x.id) : Loop where
  db :=
    { st.db with
      results := st.db.results ++ [r.result]
      evidenceItems := st.db.evidenceItems ++ [r.evidence]
      links := st.db.links ++ [r.link]
      mappings := mappings
      alerts := alerts }
  mappingByKey := index
  draws := st.draws + 4
  statusCounts := increment st.statusCounts r.result.status
  frameworkCounts := incrementFramework r.turn.framework r.result.status st.frameworkCounts
  noncompliantCount :=
    if r.result.status = .compliant then st.noncompliantCount else st.noncompliantCount + 1
  evidenceCount := st.evidenceCount + 1

/-- The body of the three loops. A control that the database does not have is logged only. -/
def assessControl (P : Primitives) (inputs : Inputs) (runId : ℕ) (st : Loop) (t : Turn) :
    Except DbError Loop :=
  match inputs.catalog.lookup (t.framework, t.controlId) with
  | none => .ok st
  | some (control, catalog) => do
    let r := newRecord P runId st.draws inputs.now t control catalog
    bindTitle r.evidence.title
    let (mappings, index) ← writeMapping st.db.mappings st.mappingByKey ⟨runId, st.draws + 2⟩ r
    let alerts ← writeAlert st.db.alerts ⟨runId, st.draws + 3⟩ r
    return st.advance r mappings index alerts

/-- The controls of `FRAMEWORK_CATALOGS` in their order. -/
def catalogControls : List (String × String × ControlRule) :=
  frameworkCatalogs.flatMap fun (framework, controls) =>
    controls.map fun (controlId, rule) => (framework, controlId, rule)

/-- The turns of the three loops. -/
def turns (assets : List AssessedAsset) : List Turn :=
  assets.flatMap fun a => catalogControls.map fun (framework, controlId, rule) =>
    ⟨a, framework, controlId, rule⟩

/-- `mapping_by_key`: the last mapping of a key stays. -/
def mappingIndex (mappings : Table fun m : ComplianceMapping => m.id) : Key → Option Id :=
  fun key => (mappings.rows.reverse.find? fun m => m.key = key).map fun m => m.id

/-- `sum(counts.values())` -/
def total (counts : Counts) : ℕ :=
  counts .compliant + counts .partially + counts .gap + counts .exception + counts .notAssessed +
    counts .notApplicable + counts .na + counts .unknown

/-- `_framework_summary` -/
def frameworkSummary (P : Primitives) (counts : Counts) : FrameworkSummary where
  counts := counts
  total := total counts
  compliancePct :=
    percentage P.rounding 2 (counts .compliant) (total counts - counts .notApplicable)

/-- `run.summary` -/
def summary (P : Primitives) (assets : ℕ) (st : Loop) : Summary where
  assets := assets
  results := total st.statusCounts
  evidenceItems := st.evidenceCount
  noncompliantResults := st.noncompliantCount
  statusCounts := st.statusCounts
  frameworks := st.frameworkCounts.map fun (framework, counts) =>
    (framework, frameworkSummary P counts)

/-- The loop of an audit over the rows that it read. -/
def auditLoop (P : Primitives) (inputs : Inputs) (runId : ℕ) (db : AuditDb) :
    Except DbError Loop :=
  (turns inputs.assets.rows).foldlM (assessControl P inputs runId)
    { db := db, mappingByKey := mappingIndex db.mappings }

/-- The row of the run. -/
def completedRun (P : Primitives) (inputs : Inputs) (runId : ℕ) (st : Loop) : AssessmentRun where
  id := runId
  initiatedBy := (inputs.initiatedBy.take 64).toString
  startedAt := inputs.now
  completedAt := inputs.finished
  summary := summary P inputs.assets.rows.length st

/-- `_run_audit`, up to its commit. -/
def runAudit (P : Primitives) (inputs : Inputs) (runId : ℕ) (db : AuditDb) :
    Except DbError AuditDb := do
  let st ← auditLoop P inputs runId db
  return { st.db with runs := st.db.runs ++ [completedRun P inputs runId st] }

end Kepryx.ComplianceAudit
