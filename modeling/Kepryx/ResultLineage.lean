import Kepryx.EvidenceIntegrity
import Kepryx.Accounts
import Kepryx.RunSummaries

/-!
# The lineage of a result

The lineage endpoint joins a result with its control, its run and the evidence that is linked to
it, the run endpoint lists the results of a run with the number of their evidence items. After any
history the chain from a result to its run and its only evidence item is complete.
-/
namespace Kepryx.ResultLineage
open Kepryx.Models Kepryx.Tables Kepryx.Results Kepryx.Runs Kepryx.Accounts
open Kepryx.CompliancePercentages Kepryx.ComplianceCatalog Kepryx.ComplianceAudit
open Kepryx.AuditLoop Kepryx.EvidenceIntegrity Kepryx.RunSummaries
open Kepryx.AuditRecord (runAudit_ok MadeBy Recorded recorded_init recorded_skip recorded_advance
  keepResults keepAssets)
open Kepryx.ConcurrentAudits (Pending commitAudit)
open Kepryx.EvidenceLineage (State Event step controlOf referencesHold evidenceOf evidenceOf_inj)

/-! ## The endpoints -/

/-- The answer of `assessment_result_lineage`. -/
structure Lineage where
  result : AssessmentResult
  framework : String
  frameworkVersion : String
  controlId : String
  assetName : Option String
  run : AssessmentRun
  evidence : List EvidenceItem

/-- A result in the answer of `assessment_run_detail`. -/
structure DetailRow where
  result : AssessmentResult
  framework : String
  frameworkVersion : String
  controlId : String
  assetName : Option String
  evidenceCount : ℕ

/-- How the database orders the rows of both answers. -/
structure RowOrder where
  evidence : List EvidenceItem → List EvidenceItem
  evidence_perm : ∀ items, (evidence items).Perm items
  evidence_newest : ∀ items, (evidence items).Pairwise fun i j => j.observedAt ≤ i.observedAt
  details : List DetailRow → List DetailRow
  details_perm : ∀ rows, (details rows).Perm rows

variable (order : RowOrder)

def assetName (s : State) (r : AssessmentResult) : Option String :=
  (s.assets.find r.assetId).map fun a => a.name

def findRun (s : State) (runId : ℕ) : Option AssessmentRun :=
  s.db.runs.find? fun run => run.id = runId

/-- The evidence that is linked to a result. -/
def linkedItems (s : State) (resultId : Id) : List EvidenceItem :=
  (s.db.links.filter fun l => l.resultId = resultId).filterMap fun l =>
    s.db.evidenceItems.find? fun item => item.id = l.evidenceId

/-- The answer about a stored result; the joins are inner ones but for the asset. -/
def lineageOf (s : State) (r : AssessmentResult) : Option Lineage :=
  (controlOf s r).bind fun (control, catalog) => (findRun s r.runId).map fun run =>
    { result := r
      framework := catalog.code
      frameworkVersion := catalog.version
      controlId := control.controlId
      assetName := assetName s r
      run := run
      evidence := order.evidence (linkedItems s r.id) }

/-- `assessment_result_lineage` -/
def assessmentResultLineage (s : State) (resultId : Id) : Except HttpError Lineage :=
  match ((s.db.results.filter fun r => r.id = resultId).filterMap (lineageOf order s)).head? with
  | some answer => .ok answer
  | none => .error ⟨404, "Assessment result not found"⟩

def detailRow (s : State) (r : AssessmentResult) : Option DetailRow :=
  (controlOf s r).map fun (control, catalog) =>
    { result := r
      framework := catalog.code
      frameworkVersion := catalog.version
      controlId := control.controlId
      assetName := assetName s r
      evidenceCount := s.db.links.countP fun l => l.resultId = r.id }

/-- `assessment_run_detail` -/
def assessmentRunDetail (s : State) (runId limit : ℕ) :
    Except HttpError (AssessmentRun × List DetailRow) :=
  match findRun s runId with
  | none => .error ⟨404, "Assessment run not found"⟩
  | some run =>
    .ok (run, (order.details ((runResults s.db runId).filterMap (detailRow s))).take limit)

/-! ## What an audit adds -/

/-- Every control keeps its framework and its name. -/
def Named (labelOf : ℕ → String × String) (rows : CatalogRows) : Prop :=
  ∀ control ∈ rows.controls.rows, ∀ catalog ∈ rows.catalogs.rows, control.catalogId = catalog.id →
    (catalog.code, control.controlId) = labelOf control.id

/-- The rows of a record belong together. -/
structure Made (labelOf : ℕ → String × String) (run : AssessmentRun) (r : Record) : Prop where
  idRun : r.result.id.run = run.id
  runId : r.result.runId = run.id
  time : r.result.assessedAt = run.startedAt
  evidence : r.evidence.id = evidenceOf r.result.id
  link : r.link = ⟨r.result.id, evidenceOf r.result.id⟩
  asset : r.evidence.sourceRef = "asset:" ++ toString r.result.assetId
  label : (r.evidence.framework, r.evidence.controlId) = labelOf r.result.controlId

/-- What an audit has for its commit, record by record. -/
structure Written (labelOf : ℕ → String × String) (read after : AuditDb) (run : AssessmentRun)
    (records : List Record) : Prop where
  runs : after.runs = read.runs ++ [run]
  results : after.results = read.results ++ records.map Record.result
  evidenceItems : after.evidenceItems = read.evidenceItems ++ records.map Record.evidence
  links : after.links = read.links ++ records.map Record.link
  made : ∀ r ∈ records, Made labelOf run r
  increasing : records.Pairwise fun r r' => r.result.id.draw < r'.result.id.draw

section Audit
variable {P : Primitives} {labelOf : ℕ → String × String} {inputs : Inputs} {runId : ℕ}
  {db : AuditDb}

theorem auditLoop_records {st : Loop} (h : auditLoop P inputs runId db = .ok st) :
    ∃ records, Recorded P inputs runId db (turns inputs.assets.rows) records st := by
  refine foldlM_invariant (fun before st => ∃ records,
    Recorded P inputs runId db before records st) ?_ ⟨[], recorded_init _⟩ h
  rintro before t after st st' - ⟨records, hrecorded⟩ hstep
  rcases assessControl_ok hstep with ⟨hnone, rfl⟩ |
    ⟨control, catalog, mappings, index, alerts, hsome, -, -, rfl⟩
  · exact ⟨records, recorded_skip hrecorded hnone⟩
  · exact ⟨_, recorded_advance hrecorded hsome⟩

theorem made_of_madeBy (hnamed : Named labelOf inputs.catalog) {st : Loop} {r : Record}
    (h : MadeBy P inputs runId r) : Made labelOf (completedRun P inputs runId st) r := by
  obtain ⟨⟨draws, hr⟩, hlookup⟩ := h
  obtain ⟨hjoined, hcode, hcontrolId⟩ := inputs.catalog.lookup_some hlookup
  obtain ⟨hcontrol, hcatalog, -, hid⟩ := inputs.catalog.mem_joined.mp hjoined
  have hlabel := hnamed r.control hcontrol r.catalog hcatalog hid
  rw [hcode, hcontrolId] at hlabel
  rw [hr]
  exact ⟨rfl, rfl, rfl, rfl, rfl, rfl, hlabel⟩

theorem runAudit_written (hnamed : Named labelOf inputs.catalog) {after : AuditDb}
    (h : runAudit P inputs runId db = .ok after) :
    ∃ run records, run.id = runId ∧ Written labelOf db after run records := by
  obtain ⟨st, hst, rfl⟩ := runAudit_ok h
  obtain ⟨records, hrecorded⟩ := auditLoop_records hst
  refine ⟨completedRun P inputs runId st, records, rfl, ?_, hrecorded.results,
    hrecorded.evidenceItems, hrecorded.links, ?_, hrecorded.increasing⟩
  · rw [hrecorded.runs]
  · exact fun r hr => made_of_madeBy hnamed (hrecorded.made r hr)

end Audit

/-! ## The chain in every state -/

/-- The item is the evidence of the result, about its asset and its control. -/
structure Proves (labelOf : ℕ → String × String) (item : EvidenceItem) (r : AssessmentResult) :
    Prop where
  id : item.id = evidenceOf r.id
  asset : item.sourceRef = "asset:" ++ toString r.assetId
  label : (item.framework, item.controlId) = labelOf r.controlId

/-- Identifiers are unique and tell the run, which is stored; every result has its item and the
time of its run. -/
structure Chained (labelOf : ℕ → String × String) (db : AuditDb) : Prop where
  runs : (db.runs.map AssessmentRun.id).Nodup
  results : (db.results.map AssessmentResult.id).Nodup
  links : (db.links.map AssessmentEvidence.resultId).Nodup
  items : (db.evidenceItems.map EvidenceItem.id).Nodup
  resultRun : ∀ r ∈ db.results, r.id.run = r.runId
  linkRun : ∀ l ∈ db.links, ∃ run ∈ db.runs, run.id = l.resultId.run
  itemRun : ∀ item ∈ db.evidenceItems, ∃ run ∈ db.runs, run.id = item.id.run
  proved : ∀ r ∈ db.results, ∃ item ∈ db.evidenceItems, Proves labelOf item r
  times : ∀ r ∈ db.results, ∀ run ∈ db.runs, run.id = r.runId → r.assessedAt = run.startedAt

section Chain
variable {P : Primitives} {labelOf : ℕ → String × String} {s : State}

theorem chained_empty : Chained labelOf .empty where
  runs := .nil
  results := .nil
  links := .nil
  items := .nil
  resultRun _ h := absurd h List.not_mem_nil
  linkRun _ h := absurd h List.not_mem_nil
  itemRun _ h := absurd h List.not_mem_nil
  proved _ h := absurd h List.not_mem_nil
  times _ h := absurd h List.not_mem_nil

/-- The identifiers of the records of an audit are distinct. -/
theorem Written.ids_nodup {read after : AuditDb} {run : AssessmentRun} {records : List Record}
    (h : Written labelOf read after run records) :
    (records.map fun r => r.result.id).Nodup := by
  refine List.pairwise_map.mpr (h.increasing.imp fun hlt heq => ?_)
  rw [heq] at hlt
  exact lt_irrefl _ hlt

theorem Written.link_ids {read after : AuditDb} {run : AssessmentRun} {records : List Record}
    (h : Written labelOf read after run records) :
    (records.map Record.link).map AssessmentEvidence.resultId =
      records.map fun r => r.result.id := by
  rw [List.map_map]
  refine List.map_congr_left fun r hr => ?_
  rw [Function.comp_apply, (h.made r hr).link]

theorem Written.item_ids {read after : AuditDb} {run : AssessmentRun} {records : List Record}
    (h : Written labelOf read after run records) :
    (records.map Record.evidence).map EvidenceItem.id =
      (records.map fun r => r.result.id).map evidenceOf := by
  rw [List.map_map, List.map_map]
  exact List.map_congr_left fun r hr => (h.made r hr).evidence

/-- Identifiers of stored runs and those of a new one are distinct. -/
theorem nodup_append_ids {db : AuditDb} {run : AssessmentRun} {ids new : List Id}
    (hids : ids.Nodup) (hnew : new.Nodup) (hstored : ∀ id ∈ ids, ∃ r ∈ db.runs, r.id = id.run)
    (hfresh : ∀ r ∈ db.runs, r.id ≠ run.id) (hrun : ∀ id ∈ new, id.run = run.id) :
    (ids ++ new).Nodup := by
  refine List.nodup_append.mpr ⟨hids, hnew, fun id hid id' hid' heq => ?_⟩
  obtain ⟨r, hr, hrid⟩ := hstored id hid
  exact hfresh r hr (hrid.trans (heq ▸ hrun id' hid'))

namespace Written

variable {db : AuditDb} {p : Pending} {run : AssessmentRun} {records : List Record}

theorem commit_runs (h : Written labelOf p.read p.after run records) :
    (commitAudit p db).runs = db.runs ++ [run] := by
  simp [commitAudit, h.runs]

theorem commit_results (h : Written labelOf p.read p.after run records) :
    (commitAudit p db).results = db.results ++ records.map Record.result := by
  simp [commitAudit, h.results]

theorem commit_items (h : Written labelOf p.read p.after run records) :
    (commitAudit p db).evidenceItems = db.evidenceItems ++ records.map Record.evidence := by
  simp [commitAudit, h.evidenceItems]

theorem commit_links (h : Written labelOf p.read p.after run records) :
    (commitAudit p db).links = db.links ++ records.map Record.link := by
  simp [commitAudit, h.links]

theorem run_of_mem_ids (h : Written labelOf p.read p.after run records) :
    ∀ id ∈ records.map (fun r => r.result.id), id.run = run.id := by
  intro id hid
  obtain ⟨r, hr, rfl⟩ := List.mem_map.mp hid
  exact (h.made r hr).idRun

/-- What names a stored run or the new one names a stored run after the commit. -/
theorem exists_run (h : Written labelOf p.read p.after run records) {n : ℕ}
    (hn : (∃ r ∈ db.runs, r.id = n) ∨ n = run.id) :
    ∃ r ∈ (commitAudit p db).runs, r.id = n := by
  rw [h.commit_runs]
  rcases hn with ⟨r, hr, hid⟩ | rfl
  · exact ⟨r, List.mem_append_left _ hr, hid⟩
  · exact ⟨run, List.mem_append_right _ (List.mem_singleton.mpr rfl), rfl⟩

end Written

section Commit
variable {db : AuditDb} {p : Pending} {run : AssessmentRun} {records : List Record}
  (hs : Chained labelOf db) (hw : Written labelOf p.read p.after run records)
include hs hw

theorem runs_commit (hfresh : ∀ r ∈ db.runs, r.id ≠ run.id) :
    ((commitAudit p db).runs.map AssessmentRun.id).Nodup := by
  rw [hw.commit_runs, List.map_append]
  refine List.nodup_append.mpr ⟨hs.runs, List.nodup_singleton _, fun id hid id' hid' => ?_⟩
  obtain ⟨r, hr, rfl⟩ := List.mem_map.mp hid
  rw [List.mem_singleton.mp hid']
  exact hfresh r hr

theorem results_commit (hfresh : ∀ r ∈ db.runs, r.id ≠ run.id)
    (howned : ∀ r ∈ db.results, ∃ run ∈ db.runs, run.id = r.runId) :
    ((commitAudit p db).results.map AssessmentResult.id).Nodup := by
  rw [hw.commit_results, List.map_append, List.map_map]
  refine nodup_append_ids hs.results hw.ids_nodup (fun id hid => ?_) hfresh hw.run_of_mem_ids
  obtain ⟨r, hr, rfl⟩ := List.mem_map.mp hid
  rw [hs.resultRun r hr]
  exact howned r hr

theorem links_commit (hfresh : ∀ r ∈ db.runs, r.id ≠ run.id) :
    ((commitAudit p db).links.map AssessmentEvidence.resultId).Nodup := by
  rw [hw.commit_links, List.map_append, hw.link_ids]
  refine nodup_append_ids hs.links hw.ids_nodup (fun id hid => ?_) hfresh hw.run_of_mem_ids
  obtain ⟨l, hl, rfl⟩ := List.mem_map.mp hid
  exact hs.linkRun l hl

theorem items_commit (hfresh : ∀ r ∈ db.runs, r.id ≠ run.id) :
    ((commitAudit p db).evidenceItems.map EvidenceItem.id).Nodup := by
  rw [hw.commit_items, List.map_append, hw.item_ids]
  refine nodup_append_ids hs.items (hw.ids_nodup.map fun _ _ => evidenceOf_inj)
    (fun id hid => ?_) hfresh fun id hid => ?_
  · obtain ⟨item, hitem, rfl⟩ := List.mem_map.mp hid
    exact hs.itemRun item hitem
  · obtain ⟨id', hid', rfl⟩ := List.mem_map.mp hid
    exact hw.run_of_mem_ids id' hid'

theorem resultRun_commit : ∀ r ∈ (commitAudit p db).results, r.id.run = r.runId := by
  rw [hw.commit_results]
  refine List.forall_mem_append.mpr ⟨hs.resultRun, List.forall_mem_map.mpr fun x hx => ?_⟩
  exact (hw.made x hx).idRun.trans (hw.made x hx).runId.symm

theorem linkRun_commit : ∀ l ∈ (commitAudit p db).links,
    ∃ run ∈ (commitAudit p db).runs, run.id = l.resultId.run := by
  rw [hw.commit_links]
  refine List.forall_mem_append.mpr ⟨fun l hl => hw.exists_run (.inl (hs.linkRun l hl)),
    List.forall_mem_map.mpr fun x hx => hw.exists_run (.inr ?_)⟩
  rw [(hw.made x hx).link, (hw.made x hx).idRun]

theorem itemRun_commit : ∀ item ∈ (commitAudit p db).evidenceItems,
    ∃ run ∈ (commitAudit p db).runs, run.id = item.id.run := by
  rw [hw.commit_items]
  refine List.forall_mem_append.mpr ⟨fun item hitem => hw.exists_run (.inl (hs.itemRun item hitem)),
    List.forall_mem_map.mpr fun x hx => hw.exists_run (.inr ?_)⟩
  rw [(hw.made x hx).evidence]
  exact (hw.made x hx).idRun

theorem proved_commit : ∀ r ∈ (commitAudit p db).results,
    ∃ item ∈ (commitAudit p db).evidenceItems, Proves labelOf item r := by
  rw [hw.commit_results, hw.commit_items]
  refine List.forall_mem_append.mpr ⟨fun r hr => ?_, List.forall_mem_map.mpr fun x hx => ?_⟩
  · obtain ⟨item, hitem, hproves⟩ := hs.proved r hr
    exact ⟨item, List.mem_append_left _ hitem, hproves⟩
  · have hmade := hw.made x hx
    exact ⟨x.evidence, List.mem_append_right _ (List.mem_map_of_mem hx),
      ⟨hmade.evidence, hmade.asset, hmade.label⟩⟩

theorem times_commit (hfresh : ∀ r ∈ db.runs, r.id ≠ run.id)
    (howned : ∀ r ∈ db.results, ∃ run ∈ db.runs, run.id = r.runId) :
    ∀ r ∈ (commitAudit p db).results, ∀ run ∈ (commitAudit p db).runs, run.id = r.runId →
      r.assessedAt = run.startedAt := by
  rw [hw.commit_results, hw.commit_runs]
  refine List.forall_mem_append.mpr ⟨fun r hr => ?_, List.forall_mem_map.mpr fun x hx => ?_⟩
  · refine List.forall_mem_append.mpr ⟨hs.times r hr, List.forall_mem_singleton.mpr fun hid => ?_⟩
    -- a stored result is not of the new run
    obtain ⟨owner, howner, hownerId⟩ := howned r hr
    exact absurd (hownerId.trans hid.symm) (hfresh owner howner)
  · refine List.forall_mem_append.mpr ⟨fun run' hrun' hid => ?_,
      List.forall_mem_singleton.mpr fun _ => (hw.made x hx).time⟩
    exact absurd (hid.trans (hw.made x hx).runId) (hfresh run' hrun')

theorem chained_commit (hfresh : ∀ r ∈ db.runs, r.id ≠ run.id)
    (howned : ∀ r ∈ db.results, ∃ run ∈ db.runs, run.id = r.runId) :
    Chained labelOf (commitAudit p db) where
  runs := runs_commit hs hw hfresh
  results := results_commit hs hw hfresh howned
  links := links_commit hs hw hfresh
  items := items_commit hs hw hfresh
  resultRun := resultRun_commit hs hw
  linkRun := linkRun_commit hs hw
  itemRun := itemRun_commit hs hw
  proved := proved_commit hs hw
  times := times_commit hs hw hfresh howned

end Commit

/-- The tables after results and their links were deleted. -/
theorem chained_delete {db db' : AuditDb} (hs : Chained labelOf db) (hruns : db'.runs = db.runs)
    (hitems : db'.evidenceItems = db.evidenceItems) (hresults : db'.results.Sublist db.results)
    (hlinks : db'.links.Sublist db.links) : Chained labelOf db' where
  runs := hruns ▸ hs.runs
  results := (hresults.map _).nodup hs.results
  links := (hlinks.map _).nodup hs.links
  items := hitems ▸ hs.items
  resultRun r hr := hs.resultRun r (hresults.subset hr)
  linkRun l hl := hruns ▸ hs.linkRun l (hlinks.subset hl)
  itemRun item hitem := hruns ▸ hs.itemRun item (hitems ▸ hitem)
  proved r hr := hitems ▸ hs.proved r (hresults.subset hr)
  times r hr run hrun := hs.times r (hresults.subset hr) run (hruns ▸ hrun)

end Chain

/-! ## Histories -/

/-- No change of the frameworks gives a control another framework or name. -/
def Keeps (labelOf : ℕ → String × String) : Event → Prop
  | .frameworks catalog => Named labelOf catalog
  | _ => True

/-- The tables are chained, and so is what the audits in flight will add. -/
structure Linked (labelOf : ℕ → String × String) (s : State) : Prop where
  named : Named labelOf s.catalog
  chained : Chained labelOf s.db
  inflight : ∀ p ∈ s.inflight, ∃ run records, run.id = p.runId ∧
    Written labelOf p.read p.after run records

section Histories
variable {P : Primitives} {labelOf : ℕ → String × String} {s : State}

/-- The framework of each control. -/
def codeOf (labelOf : ℕ → String × String) (controlId : ℕ) : String := (labelOf controlId).1

theorem Keeps.stays {e : Event} (h : Keeps labelOf e) : Stays (codeOf labelOf) e := by
  cases e with
  | frameworks catalog =>
    exact fun control hcontrol c hc hid => congrArg Prod.fst (h control hcontrol c hc hid)
  | _ => trivial

theorem linked_start : Linked labelOf .start where
  named _ h := absurd h List.not_mem_nil
  chained := chained_empty
  inflight _ h := absurd h List.not_mem_nil

theorem linked_step (htold : Told P (codeOf labelOf) s) (hs : Linked labelOf s) {e : Event}
    (he : Keeps labelOf e) : Linked labelOf (step P s e) := by
  cases e with
  | read now finished initiatedBy =>
    unfold step
    dsimp only
    split
    · rename_i after hrun
      refine ⟨hs.named, hs.chained, fun p hp => ?_⟩
      rcases List.mem_append.mp hp with hp | hp
      · exact hs.inflight p hp
      · rw [List.mem_singleton.mp hp]
        exact runAudit_written hs.named hrun
    · exact ⟨hs.named, hs.chained, hs.inflight⟩
  | commit n =>
    unfold step
    dsimp only
    split
    · exact hs
    · rename_i p hp
      have hmem : p ∈ s.inflight := List.mem_of_getElem? hp
      refine ⟨hs.named, ?_, fun q hq => hs.inflight q (List.mem_of_mem_eraseIdx hq)⟩
      dsimp only
      split
      · obtain ⟨run, records, hid, hwritten⟩ := hs.inflight p hmem
        exact chained_commit hs.chained hwritten (fun r hr => hid ▸ htold.new r hr p hmem)
          htold.owned
      · exact hs.chained
  | inventory assets =>
    exact ⟨hs.named, chained_delete hs.chained rfl rfl List.filter_sublist List.filter_sublist,
      hs.inflight⟩
  | frameworks catalog =>
    exact ⟨he, chained_delete hs.chained rfl rfl List.filter_sublist List.filter_sublist,
      hs.inflight⟩

/-- Every stored result is about a stored control, since the foreign keys hold. -/
def Referenced (s : State) : Prop :=
  ∀ r ∈ s.db.results, (s.catalog.controls.find r.controlId).isSome = true

theorem referenced_step (hs : Referenced s) (e : Event) : Referenced (step P s e) := by
  cases e with
  | read now finished initiatedBy =>
    unfold step
    dsimp only
    split
    · exact hs
    · exact hs
  | commit n =>
    unfold step
    dsimp only
    split
    · exact hs
    · dsimp only [Referenced]
      split
      · rename_i p _ hholds
        refine List.forall_mem_append.mpr ⟨hs, fun r hr => ?_⟩
        exact (Bool.and_eq_true_iff.mp (List.all_eq_true.mp hholds r hr)).2
      · exact hs
  | inventory assets => exact fun r hr => hs r (List.mem_of_mem_filter hr)
  | frameworks catalog =>
    intro r hr
    have hid := of_decide_eq_true (List.mem_filter.mp hr).2
    obtain ⟨control, hcontrol, hid⟩ := List.mem_map.mp hid
    exact Option.isSome_iff_exists.mpr ⟨control, Table.find_eq_some.mpr ⟨hcontrol, hid⟩⟩

theorem referenced_start : Referenced .start := fun _ h => absurd h List.not_mem_nil

theorem referenced_run (events : List Event) : Referenced (run (step P) .start events) :=
  run_invariant Referenced (fun _ e hs => referenced_step hs e) referenced_start events

/-- The control of a stored result and the catalog of that control are stored. -/
theorem Referenced.exists_control (hs : Referenced s) {r : AssessmentResult}
    (hr : r ∈ s.db.results) : ∃ control catalog, controlOf s r = some (control, catalog) := by
  obtain ⟨control, hcontrol⟩ := Option.isSome_iff_exists.mp (hs r hr)
  obtain ⟨catalog, hcatalog⟩ := Option.isSome_iff_exists.mp
    (s.catalog.references control (Table.find_eq_some.mp hcontrol).1)
  exact ⟨control, catalog, by rw [controlOf, hcontrol, Option.bind_some, hcatalog]; rfl⟩

theorem linked_run {events : List Event} (hkeeps : ∀ e ∈ events, Keeps labelOf e) :
    Told P (codeOf labelOf) (run (step P) .start events) ∧
      Linked labelOf (run (step P) .start events) :=
  run_invariant_along (fun s => Told P (codeOf labelOf) s ∧ Linked labelOf s)
    (fun _ _ hs he => ⟨told_step hs.1 he.stays, linked_step hs.1 hs.2 he⟩)
    ⟨told_start, linked_start⟩ (along_of_forall fun e he _ => hkeeps e he)

end Histories

/-! ## The answers -/

/-- What the answer about a result says of its run and its evidence. -/
structure Explained (P : Primitives) (s : State) (r : AssessmentResult)
    (control : FrameworkControl) (catalog : FrameworkCatalog) (run : AssessmentRun)
    (item : EvidenceItem) : Prop where
  stored : run ∈ s.db.runs ∧ item ∈ s.db.evidenceItems
  runId : run.id = r.runId
  time : r.assessedAt = run.startedAt
  asset : item.sourceRef = "asset:" ++ toString r.assetId
  framework : item.framework = catalog.code
  controlId : item.controlId = control.controlId
  observed : Observes P item

section Answers
variable {order : RowOrder} {P : Primitives} {labelOf : ℕ → String × String} {s : State}

/-- Under a unique key a filter finds the one row. -/
theorem filter_key {α κ : Type} [DecidableEq κ] {key : α → κ} {xs : List α}
    (h : (xs.map key).Nodup) {x : α} (hx : x ∈ xs) :
    (xs.filter fun y => key y = key x) = [x] :=
  Table.filter_eq_singleton (t := ⟨xs, h⟩) hx (decide_eq_true rfl) fun _ hy hkey =>
    List.inj_on_of_nodup_map h hy hx (of_decide_eq_true hkey)

theorem find_key {α κ : Type} [DecidableEq κ] {key : α → κ} {xs : List α}
    (h : (xs.map key).Nodup) {x : α} (hx : x ∈ xs) :
    (xs.find? fun y => key y = key x) = some x :=
  Table.find_key (t := ⟨xs, h⟩) hx

/-- The one link of a result leads to its one item. -/
theorem linkedItems_eq (hs : Linked labelOf s) (hpaired : EvidenceLineage.Paired s.db)
    {r : AssessmentResult} (hr : r ∈ s.db.results) {item : EvidenceItem}
    (hitem : item ∈ s.db.evidenceItems) (hproves : Proves labelOf item r) :
    linkedItems s r.id = [item] := by
  have hlink : (s.db.links.filter fun l => l.resultId = r.id) = [⟨r.id, evidenceOf r.id⟩] :=
    filter_key hs.chained.links (hpaired.results r hr)
  have hfind : (s.db.evidenceItems.find? fun x => x.id = evidenceOf r.id) = some item := by
    rw [← hproves.id]
    exact find_key hs.chained.items hitem
  rw [linkedItems, hlink]
  simp [hfind]

theorem lineage_stored (htold : Told P (codeOf labelOf) s) (hs : Linked labelOf s)
    (hpaired : EvidenceLineage.Paired s.db) (hdoc : Documented P s.db) {r : AssessmentResult}
    (hr : r ∈ s.db.results) {control : FrameworkControl} {catalog : FrameworkCatalog}
    (hcontrol : controlOf s r = some (control, catalog)) :
    ∃ run item, assessmentResultLineage order s r.id = .ok
      ⟨r, catalog.code, catalog.version, control.controlId, assetName s r, run, [item]⟩ ∧
        Explained P s r control catalog run item := by
  obtain ⟨run, hrun, hid⟩ := htold.owned r hr
  obtain ⟨item, hitem, hproves⟩ := hs.chained.proved r hr
  have hjoined := controlOf_spec hcontrol
  have hlabel := hs.named control hjoined.control catalog hjoined.catalog hjoined.owner.symm
  rw [hjoined.result, ← hproves.label] at hlabel
  obtain ⟨hcode, hname⟩ := Prod.mk.inj hlabel
  have hfind : findRun s r.runId = some run := by
    rw [findRun, ← hid]
    exact find_key hs.chained.runs hrun
  have horder : order.evidence [item] = [item] := List.perm_singleton.mp (order.evidence_perm _)
  have hrow : lineageOf order s r = some
      ⟨r, catalog.code, catalog.version, control.controlId, assetName s r, run, [item]⟩ := by
    rw [lineageOf, hcontrol, Option.bind_some, hfind]
    dsimp only
    rw [Option.map_some, linkedItems_eq hs hpaired hr hitem hproves, horder]
  refine ⟨run, item, ?_, ⟨hrun, hitem⟩, hid, hs.chained.times r hr run hrun hid, hproves.asset,
    hcode.symm, hname.symm, hdoc.items item hitem⟩
  rw [assessmentResultLineage, filter_key hs.chained.results hr]
  simp [hrow]

theorem lineage_missing {resultId : Id} (h : ∀ r ∈ s.db.results, r.id ≠ resultId) :
    assessmentResultLineage order s resultId = .error ⟨404, "Assessment result not found"⟩ := by
  have hnone : (s.db.results.filter fun r => r.id = resultId) = [] :=
    List.filter_eq_nil_iff.mpr fun r hr heq => h r hr (of_decide_eq_true heq)
  rw [assessmentResultLineage, hnone]
  rfl

/-- The rows of a run are its stored results with the number of their evidence items. -/
theorem runDetail_stored (hs : Linked labelOf s) (hpaired : EvidenceLineage.Paired s.db)
    (hreferenced : Referenced s) {run : AssessmentRun} (hrun : run ∈ s.db.runs) (limit : ℕ) :
    ∃ rows, assessmentRunDetail order s run.id limit = .ok (run, rows) ∧
      (rows.map fun x => x.result.id).Nodup ∧
      (∀ x ∈ rows, x.result ∈ runResults s.db run.id ∧ x.evidenceCount = 1) ∧
      ((runResults s.db run.id).length ≤ limit →
        ∀ r ∈ runResults s.db run.id, ∃ x ∈ rows, x.result = r) := by
  have hfind : findRun s run.id = some run := find_key hs.chained.runs hrun
  set details := (runResults s.db run.id).filterMap (detailRow s) with hdetails
  have hperm := order.details_perm details
  have hrow : ∀ {r x}, detailRow s r = some x → x.result = r ∧
      x.evidenceCount = s.db.links.countP fun l => l.resultId = r.id := by
    intro r x hx
    obtain ⟨p, -, rfl⟩ := Option.map_eq_some_iff.mp hx
    exact ⟨rfl, rfl⟩
  have hids : (details.map fun x => x.result.id).Sublist
      ((runResults s.db run.id).map AssessmentResult.id) := by
    rw [hdetails]
    induction runResults s.db run.id with
    | nil => exact List.Sublist.refl _
    | cons r rs ih =>
      cases hx : detailRow s r with
      | none =>
        rw [List.filterMap_cons_none hx, List.map_cons]
        exact ih.cons _
      | some x =>
        rw [List.filterMap_cons_some hx, List.map_cons, List.map_cons, (hrow hx).1]
        exact ih.cons_cons _
  refine ⟨(order.details details).take limit, ?_, ?_, fun x hx => ?_, fun hlimit r hr => ?_⟩
  · rw [assessmentRunDetail, hfind]
  · have hnodup : (details.map fun x => x.result.id).Nodup :=
      hids.nodup ((List.filter_sublist.map _).nodup hs.chained.results)
    rw [List.map_take]
    exact (List.take_sublist _ _).nodup ((hperm.map _).nodup_iff.mpr hnodup)
  · obtain ⟨r, hr, hx⟩ := List.mem_filterMap.mp (hperm.mem_iff.mp (List.mem_of_mem_take hx))
    obtain ⟨hresult, hcount⟩ := hrow hx
    refine ⟨hresult.symm ▸ hr, ?_⟩
    have hstored : r ∈ s.db.results := (List.mem_filter.mp hr).1
    rw [hcount, List.countP_eq_length_filter]
    exact congrArg List.length (filter_key hs.chained.links (hpaired.results r hstored))
  · have hlength : (order.details details).length ≤ limit :=
      (hperm.length_eq.trans_le (List.length_filterMap_le _ _)).trans hlimit
    obtain ⟨control, catalog, hcontrol⟩ :=
      hreferenced.exists_control (List.mem_of_mem_filter hr)
    obtain ⟨x, hx⟩ : ∃ x, detailRow s r = some x := by
      rw [detailRow, hcontrol]
      exact ⟨_, rfl⟩
    refine ⟨x, ?_, (hrow hx).1⟩
    rw [List.take_of_length_le hlength]
    exact hperm.mem_iff.mpr (List.mem_filterMap.mpr ⟨r, hr, hx⟩)

/-- After any history of audits that overlap and of changes of the inventory and the frameworks,
the lineage endpoint answers for every stored result with the run that made it and with one evidence
item, which is about its asset, framework and control; and the run endpoint lists the stored results
of a run once each, with one evidence item. -/
theorem result_lineage (order : RowOrder) {events : List Event}
    (hkeeps : ∀ e ∈ events, Keeps labelOf e) :
    let s := run (step P) .start events
    (∀ r ∈ s.db.results, ∃ control catalog run item, controlOf s r = some (control, catalog) ∧
      assessmentResultLineage order s r.id = .ok
        ⟨r, catalog.code, catalog.version, control.controlId, assetName s r, run, [item]⟩ ∧
          Explained P s r control catalog run item) ∧
    (∀ id, (∀ r ∈ s.db.results, r.id ≠ id) →
      assessmentResultLineage order s id = .error ⟨404, "Assessment result not found"⟩) ∧
    ∀ run ∈ s.db.runs, ∀ limit, ∃ rows,
      assessmentRunDetail order s run.id limit = .ok (run, rows) ∧
        (rows.map fun x => x.result.id).Nodup ∧
        (∀ x ∈ rows, x.result ∈ runResults s.db run.id ∧ x.evidenceCount = 1) ∧
        ((runResults s.db run.id).length ≤ limit →
          ∀ r ∈ runResults s.db run.id, ∃ x ∈ rows, x.result = r) := by
  intro s
  obtain ⟨htold, hlinked⟩ := linked_run (P := P) hkeeps
  have hpaired : EvidenceLineage.Paired s.db := (EvidenceLineage.sound_run P events).db
  have hdoc : Documented P s.db := documented_run P events
  have hreferenced : Referenced s := referenced_run events
  refine ⟨fun r hr => ?_, fun _ h => lineage_missing h,
    fun _ hrun limit => runDetail_stored hlinked hpaired hreferenced hrun limit⟩
  obtain ⟨control, catalog, hcontrol⟩ := hreferenced.exists_control hr
  obtain ⟨run, item, hanswer⟩ := lineage_stored htold hlinked hpaired hdoc hr hcontrol
  exact ⟨control, catalog, run, item, hcontrol, hanswer⟩

end Answers

/-- The items with the newest observation first, the results as they are stored. -/
def plainOrder : RowOrder where
  evidence items := items.insertionSort fun i j => j.observedAt ≤ i.observedAt
  evidence_perm items := List.perm_insertionSort _ items
  evidence_newest items := by
    have : Std.Total fun i j : EvidenceItem => j.observedAt ≤ i.observedAt :=
      ⟨fun i j => le_total j.observedAt i.observedAt⟩
    have : IsTrans EvidenceItem fun i j => j.observedAt ≤ i.observedAt :=
      ⟨fun _ _ _ h h' => le_trans h' h⟩
    exact List.pairwise_insertionSort _ items
  details rows := rows
  details_perm rows := List.Perm.refl rows

/-- A server is audited by two audits that overlap. -/
def auditedTwice : List Event :=
  [.inventory AuditRecord.inventory, .frameworks AuditRecord.frameworks, .read 5 6 "scheduler",
    .read 7 8 "admin", .commit 1, .commit 0]

/-- The result of the second audit has the run and the evidence of the second audit. -/
theorem second_audit_lineage : ∃ answer, assessmentResultLineage plainOrder
    (run (step AuditRecord.Primitives.plain) .start auditedTwice) ⟨1, 0⟩ = .ok answer ∧
      answer.run.id = 1 ∧ answer.evidence.length = 1 := by
  have hkeeps : ∀ e ∈ auditedTwice, Keeps (fun _ => ("cis-v8", "2.1")) e := by
    have hnamed : Named (fun _ => ("cis-v8", "2.1")) AuditRecord.frameworks := by
      unfold Named
      decide
    simp [auditedTwice, Keeps, hnamed]
  have hresult : ∃ r ∈ (run (step AuditRecord.Primitives.plain) .start auditedTwice).db.results,
      r.id = ⟨1, 0⟩ ∧ r.runId = 1 := by
    decide +kernel
  obtain ⟨r, hr, hid, hrunId⟩ := hresult
  obtain ⟨control, catalog, run, item, -, hanswer, hexplained⟩ :=
    (result_lineage plainOrder hkeeps).1 r hr
  rw [hid] at hanswer
  exact ⟨_, hanswer, hexplained.runId.trans hrunId, rfl⟩

end Kepryx.ResultLineage
