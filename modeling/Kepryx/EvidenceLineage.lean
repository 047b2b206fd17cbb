import Kepryx.ConcurrentAudits

/-!
# The lineage that the compliance list reports

The list joins every assessment result with its evidence, newest first, and folds the rows into
one record for each asset, framework and control. The first row of a key fixes the result; the
rows of its older results add their evidence to the same record.
-/
namespace Kepryx.EvidenceLineage
open Kepryx.Models Kepryx.Tables Kepryx.Results Kepryx.Runs Kepryx.UnitOfWork
open Kepryx.SnapshotCommits Kepryx.CompliancePercentages Kepryx.ComplianceCatalog
open Kepryx.ComplianceAudit Kepryx.AuditLoop Kepryx.AuditRecord
open Kepryx.ConcurrentAudits (Pending commitAudit)

/-! ## Histories of audits -/

/-- The inventory, the frameworks, the tables of the audits, and the audits that have read and
not yet committed. -/
structure State where
  assets : Table fun a : AssessedAsset => a.id
  catalog : CatalogRows
  db : AuditDb
  nextRun : ℕ
  inflight : List Pending

/-- An audit reads, the audit at a position commits, or the inventory or the frameworks change. -/
inductive Event where
  | read (now finished : Time) (initiatedBy : String)
  | commit (n : ℕ)
  | inventory (assets : Table fun a : AssessedAsset => a.id)
  | frameworks (catalog : CatalogRows)

/-- The foreign keys of the results that an audit inserts. -/
def referencesHold (s : State) (p : Pending) : Bool :=
  (p.after.results.drop p.read.results.length).all fun r =>
    (s.assets.find r.assetId).isSome && (s.catalog.controls.find r.controlId).isSome

/-- One event. An audit that raises is rolled back. -/
def step (P : Primitives) (s : State) : Event → State
  | .read now finished initiatedBy =>
    match runAudit P ⟨s.assets, s.catalog, now, finished, initiatedBy⟩ s.nextRun s.db with
    | .ok after =>
      { s with
        nextRun := s.nextRun + 1
        inflight := s.inflight ++
          [⟨s.nextRun, ⟨s.assets, s.catalog, now, finished, initiatedBy⟩, s.db, after⟩] }
    | .error _ => { s with nextRun := s.nextRun + 1 }
  | .commit n =>
    match s.inflight[n]? with
    | none => s
    | some p =>
      { s with
        db := if referencesHold s p then commitAudit p s.db else s.db
        inflight := s.inflight.eraseIdx n }
  | .inventory assets =>
    { s with assets := assets, db := keepAssets s.db (assets.rows.map fun a => a.id) }
  | .frameworks catalog =>
    let ids := catalog.controls.rows.map fun c => c.id
    { s with catalog := catalog, db := keepResults s.db fun r => r.controlId ∈ ids }

def State.start : State where
  assets := .empty
  catalog := AuditRecord.System.empty.catalog
  db := .empty
  nextRun := 0
  inflight := []

/-! ## `list_compliance` -/

/-- A row of the second query: a result with its control, its catalog and one of its evidence
items, or none. -/
structure JoinedRow where
  result : AssessmentResult
  controlId : String
  code : String
  version : String
  evidenceId : Option Id
  deriving DecidableEq

def JoinedRow.key (x : JoinedRow) : Key := (x.code, x.controlId, x.result.assetId)

/-- The control of a result and its catalog. -/
def controlOf (s : State) (r : AssessmentResult) : Option (FrameworkControl × FrameworkCatalog) :=
  (s.catalog.controls.find r.controlId).bind fun control =>
    (s.catalog.catalogs.find control.catalogId).map fun catalog => (control, catalog)

/-- The evidence that `assessment_evidence` links to a result. -/
def linkedEvidence (s : State) (resultId : Id) : List Id :=
  (s.db.links.filter fun l => l.resultId = resultId).map fun l => l.evidenceId

/-- The rows of the join of one result; the last join is an outer one. -/
def rowsOf (s : State) (r : AssessmentResult) : List JoinedRow :=
  match controlOf s r with
  | none => []
  | some (control, catalog) =>
    (match linkedEvidence s r.id with
      | [] => [none]
      | ids => ids.map some).map fun evidenceId =>
        ⟨r, control.controlId, catalog.code, catalog.version, evidenceId⟩

def joinedRows (s : State) : List JoinedRow := s.db.results.flatMap (rowsOf s)

/-- How PostgreSQL orders the rows of both queries: the second by time, the newest first. -/
structure QueryOrder where
  rows : List JoinedRow → List JoinedRow
  rows_perm : ∀ xs, (rows xs).Perm xs
  rows_newest : ∀ xs, (rows xs).Pairwise fun x y => y.result.assessedAt ≤ x.result.assessedAt
  mappings : List ComplianceMapping → List ComplianceMapping
  mappings_perm : ∀ ms, (mappings ms).Perm ms

/-- The rows that the second query returns. -/
def latestRows (order : QueryOrder) (s : State) : List JoinedRow :=
  (order.rows (joinedRows s)).take 10000

/-- A value of `latest_by_key`. -/
structure LineageRecord where
  resultId : Id
  runId : ℕ
  frameworkVersion : String
  status : Status
  score : ℚ
  confidence : ℚ
  rationale : String
  evidenceIds : List Id
  deriving DecidableEq

/-- The record that the first row of a key sets. -/
def firstRecord (x : JoinedRow) : LineageRecord where
  resultId := x.result.id
  runId := x.result.runId
  frameworkVersion := x.version
  status := x.result.status
  score := x.result.score
  confidence := x.result.confidence
  rationale := x.result.rationale
  evidenceIds := []

/-- The record with one more evidence item, unless it is there. -/
def addEvidence (record : LineageRecord) : Option Id → LineageRecord
  | none => record
  | some e =>
    if e ∈ record.evidenceIds then record
    else { record with evidenceIds := record.evidenceIds ++ [e] }

/-- One turn of the loop over the rows. -/
def addRow (latest : Key → Option LineageRecord) (x : JoinedRow) : Key → Option LineageRecord :=
  Function.update latest x.key
    (some (addEvidence ((latest x.key).getD (firstRecord x)) x.evidenceId))

/-- `latest_by_key` -/
def latestByKey (order : QueryOrder) (s : State) : Key → Option LineageRecord :=
  (latestRows order s).foldl addRow fun _ => none

/-- An item of the answer. -/
structure Item where
  id : Id
  framework : String
  frameworkVersion : Option String
  controlId : String
  assetId : ℕ
  assetName : String
  status : Status
  score : Option ℚ
  confidence : Option ℚ
  rationale : Option String
  runId : Option ℕ
  resultId : Option Id
  evidenceIds : List (Option Id)
  evidence : Option MappingEvidence
  assessedAt : Time

def Item.key (i : Item) : Key := (i.framework, i.controlId, i.assetId)

/-- The item of a mapping: without a record the entries come from its own document. -/
def itemOf (latest : Key → Option LineageRecord) (m : ComplianceMapping) (assetName : String) :
    Item where
  id := m.id
  framework := m.framework
  frameworkVersion := ((latest m.key).map (·.frameworkVersion)).or
    (m.evidence.map (·.frameworkVersion))
  controlId := m.controlId
  assetId := m.assetId
  assetName := assetName
  status := m.status
  score := (latest m.key).map (·.score)
  confidence := (latest m.key).map (·.confidence)
  rationale := (latest m.key).map (·.rationale)
  runId := ((latest m.key).map (·.runId)).or (m.evidence.map (·.assessmentRunId))
  resultId := ((latest m.key).map (·.resultId)).or (m.evidence.map (·.assessmentResultId))
  evidenceIds := ((latest m.key).map fun x => x.evidenceIds.map some).getD
    [m.evidence.map (·.evidenceId)]
  evidence := m.evidence
  assessedAt := m.assessedAt

/-- The rows of the first query: the mappings that the filters leave, with their assets. -/
def listed (order : QueryOrder) (s : State) (framework status : Option String) :
    List (ComplianceMapping × String) :=
  ((order.mappings (s.db.mappings.rows.filter fun m =>
      (framework.filter (· ≠ "")).all (· = m.framework) &&
        (status.filter (· ≠ "")).all (· = Record.statusText m.status))).filterMap fun m =>
    (s.assets.find m.assetId).map fun a => (m, a.name)).take 1000

/-- `list_compliance` -/
def listCompliance (order : QueryOrder) (s : State) (framework status : Option String) :
    List Item :=
  (listed order s framework status).map fun (m, name) => itemOf (latestByKey order s) m name

/-! ## What an item promises -/

/-- The assessment results of an asset, a framework and a control. -/
def resultsOf (s : State) (key : Key) : List AssessmentResult :=
  s.db.results.filter fun r =>
    (controlOf s r).any fun (control, catalog) => (catalog.code, control.controlId, r.assetId) = key

/-- The identifier is that of a newest result for the key. -/
def Newest (s : State) (key : Key) (id : Id) : Prop :=
  ∃ r ∈ resultsOf s key, r.id = id ∧ ∀ r' ∈ resultsOf s key, r'.assessedAt ≤ r.assessedAt

/-- The item reports a newest result, and exactly the evidence that is linked to it. -/
def EvidenceBelongs (s : State) (i : Item) : Prop :=
  ∃ id, i.resultId = some id ∧ Newest s i.key id ∧
    ∀ e, e ∈ i.evidenceIds ↔ ∃ x ∈ linkedEvidence s id, e = some x

/-- There is a result for the key of the item, or the item names one. -/
def HasResult (s : State) (i : Item) : Prop := resultsOf s i.key ≠ [] ∨ i.resultId ≠ none

/-- The rows that the query returns for the key are those of one result; if it returns none, the
document of the mapping names a newest result. -/
def OneResult (order : QueryOrder) (s : State) (m : ComplianceMapping) : Prop :=
  (∀ x ∈ latestRows order s, ∀ y ∈ latestRows order s, x.key = m.key → y.key = m.key →
    x.result.id = y.result.id) ∧
  ((∀ x ∈ latestRows order s, x.key ≠ m.key) →
    ∃ e, m.evidence = some e ∧ Newest s m.key e.assessmentResultId)

/-! ## Every result has one evidence item -/

/-- The identifier that the evidence of a result gets: the draw after its own. -/
def evidenceOf (id : Id) : Id := ⟨id.run, id.draw + 1⟩

theorem evidenceOf_inj {id id' : Id} (h : evidenceOf id = evidenceOf id') : id = id' := by
  obtain ⟨run, draw⟩ := id
  obtain ⟨run', draw'⟩ := id'
  simpa [evidenceOf] using h

/-- The document of a mapping names a result and its evidence. -/
def Names (m : ComplianceMapping) : Prop :=
  ∀ e, m.evidence = some e → e.evidenceId = evidenceOf e.assessmentResultId

/-- Every link is that of a result and its evidence, and every result has its link. -/
structure Paired (db : AuditDb) : Prop where
  links : ∀ l ∈ db.links, l.evidenceId = evidenceOf l.resultId
  results : ∀ r ∈ db.results, ⟨r.id, evidenceOf r.id⟩ ∈ db.links
  mappings : ∀ m ∈ db.mappings.rows, Names m

/-- What an audit added to the tables that it read is paired. -/
structure AddsPaired (read after : AuditDb) : Prop where
  added : ∃ results links, after.results = read.results ++ results ∧
    after.links = read.links ++ links ∧ (∀ l ∈ links, l.evidenceId = evidenceOf l.resultId) ∧
    ∀ r ∈ results, ⟨r.id, evidenceOf r.id⟩ ∈ links
  mappings : ∀ m ∈ after.mappings.rows, Names m

theorem names_record {P : Primitives} {runId draws : ℕ} {now : Time} {t : Turn}
    {control : FrameworkControl} {catalog : FrameworkCatalog} {e : MappingEvidence}
    (h : e = (newRecord P runId draws now t control catalog).mappingEvidence) :
    e.evidenceId = evidenceOf e.assessmentResultId := by
  rw [h]
  rfl

theorem writeMapping_names {P : Primitives} {runId draws : ℕ} {now : Time} {t : Turn}
    {control : FrameworkControl} {catalog : FrameworkCatalog} {mappings mappings' : Mappings}
    {index index' : Key → Option Id} {id : Id} (hold : ∀ m ∈ mappings.rows, Names m)
    (h : writeMapping mappings index id (newRecord P runId draws now t control catalog) =
      .ok (mappings', index')) : ∀ m ∈ mappings'.rows, Names m := by
  intro m hm
  rcases writeMapping_cases h with ⟨known, -, -, hrows⟩ | ⟨-, -, hrows⟩
  · rw [hrows] at hm
    obtain ⟨m₀, hm₀, rfl⟩ := List.mem_map.mp hm
    split
    · intro e he
      exact names_record (Option.some.inj he).symm
    · exact hold m₀ hm₀
  · rw [hrows] at hm
    rcases List.mem_append.mp hm with hm | hm
    · exact hold m hm
    · rw [List.mem_singleton.mp hm]
      intro e he
      exact names_record (Option.some.inj he).symm

theorem auditLoop_addsPaired {P : Primitives} {inputs : Inputs} {runId : ℕ} {db : AuditDb}
    (hdb : Paired db) {st : Loop} (h : auditLoop P inputs runId db = .ok st) :
    AddsPaired db st.db := by
  refine foldlM_invariant (fun _ st => AddsPaired db st.db) ?_ ?_ h
  · rintro before t after st st' - ⟨⟨results, links, hresults, hlinks, hpaired, hlinked⟩, hmaps⟩
      hstep
    rcases assessControl_ok hstep with ⟨-, rfl⟩ |
      ⟨control, catalog, mappings, index, alerts, -, hwrite, -, rfl⟩
    · exact ⟨⟨results, links, hresults, hlinks, hpaired, hlinked⟩, hmaps⟩
    · set r := newRecord P runId st.draws inputs.now t control catalog with hr
      refine ⟨⟨results ++ [r.result], links ++ [r.link], ?_, ?_, ?_, ?_⟩, ?_⟩
      · simp [Loop.advance, hresults]
      · simp [Loop.advance, hlinks]
      · intro l hl
        rcases List.mem_append.mp hl with hl | hl
        · exact hpaired l hl
        · rw [List.mem_singleton.mp hl]
          rfl
      · intro x hx
        rcases List.mem_append.mp hx with hx | hx
        · exact List.mem_append_left _ (hlinked x hx)
        · rw [List.mem_singleton.mp hx]
          exact List.mem_append_right _ (List.mem_singleton.mpr rfl)
      · exact writeMapping_names hmaps hwrite
  · exact ⟨⟨[], [], (List.append_nil _).symm, (List.append_nil _).symm, by simp, by simp⟩,
      hdb.mappings⟩

theorem runAudit_addsPaired {P : Primitives} {inputs : Inputs} {runId : ℕ} {db after : AuditDb}
    (hdb : Paired db) (h : runAudit P inputs runId db = .ok after) : AddsPaired db after := by
  obtain ⟨st, hst, rfl⟩ := runAudit_ok h
  have hadds := auditLoop_addsPaired hdb hst
  exact ⟨hadds.added, hadds.mappings⟩

/-- A commit of paired rows keeps the tables paired. -/
theorem paired_commit {p : Pending} {db : AuditDb} (hp : AddsPaired p.read p.after)
    (hdb : Paired db) : Paired (commitAudit p db) := by
  obtain ⟨results, links, hresults, hlinks, hpaired, hlinked⟩ := hp.added
  have hr : (commitAudit p db).results = db.results ++ results := by
    simp [commitAudit, hresults]
  have hl : (commitAudit p db).links = db.links ++ links := by
    simp [commitAudit, hlinks]
  refine ⟨fun l hmem => ?_, fun r hmem => ?_, fun m hmem => ?_⟩
  · rw [hl] at hmem
    rcases List.mem_append.mp hmem with hmem | hmem
    · exact hdb.links l hmem
    · exact hpaired l hmem
  · rw [hr] at hmem
    rw [hl]
    rcases List.mem_append.mp hmem with hmem | hmem
    · exact List.mem_append_left _ (hdb.results r hmem)
    · exact List.mem_append_right _ (hlinked r hmem)
  · rcases (mem_commit ConcurrentAudits.mergeMapping_id).mp hmem with ⟨a, ha, rfl⟩ | hadded
    · unfold updated
      split
      · rename_i loaded current _ hcurrent
        intro e he
        have heither : a.evidence = some e ∨ current.evidence = some e := by
          simp only [ConcurrentAudits.mergeMapping, writeBack] at he
          split at he
          · exact .inl he
          · exact .inr he
        rcases heither with he | he
        · exact hdb.mappings a ha e he
        · exact hp.mappings current (Table.find_eq_some.mp hcurrent).1 e he
      · exact hdb.mappings a ha
    · exact hp.mappings m (mem_added.mp hadded).1

theorem paired_keepResults {db : AuditDb} (h : Paired db) (p : AssessmentResult → Bool) :
    Paired (keepResults db p) where
  links l hl := h.links l (List.mem_filter.mp hl).1
  results r hr := by
    refine List.mem_filter.mpr ⟨h.results r (List.mem_filter.mp hr).1, ?_⟩
    exact List.any_eq_true.mpr ⟨r, hr, by simp⟩
  mappings := h.mappings

theorem paired_keepAssets {db : AuditDb} (h : Paired db) (ids : List ℕ) :
    Paired (keepAssets db ids) where
  links := (paired_keepResults h _).links
  results := (paired_keepResults h _).results
  mappings m hm := h.mappings m (Table.mem_delete.mp hm).1

/-- The tables are paired, and so is what the audits in flight will add. -/
structure Sound (s : State) : Prop where
  db : Paired s.db
  inflight : ∀ p ∈ s.inflight, AddsPaired p.read p.after

theorem sound_start : Sound .start where
  db := ⟨fun _ h => absurd h List.not_mem_nil, fun _ h => absurd h List.not_mem_nil,
    fun _ h => absurd h List.not_mem_nil⟩
  inflight _ h := absurd h List.not_mem_nil

theorem sound_step (P : Primitives) (s : State) (e : Event) (h : Sound s) : Sound (step P s e) := by
  cases e with
  | read now finished initiatedBy =>
    unfold step
    dsimp only
    split
    · rename_i after hrun
      refine ⟨h.db, fun p hp => ?_⟩
      rcases List.mem_append.mp hp with hp | hp
      · exact h.inflight p hp
      · rw [List.mem_singleton.mp hp]
        exact runAudit_addsPaired h.db hrun
    · exact ⟨h.db, h.inflight⟩
  | commit n =>
    unfold step
    dsimp only
    split
    · exact h
    · rename_i p hp
      refine ⟨?_, fun q hq => h.inflight q (List.mem_of_mem_eraseIdx hq)⟩
      dsimp only
      split
      · exact paired_commit (h.inflight p (List.mem_of_getElem? hp)) h.db
      · exact h.db
  | inventory assets => exact ⟨paired_keepAssets h.db _, h.inflight⟩
  | frameworks catalog => exact ⟨paired_keepResults h.db _, h.inflight⟩

/-! ## The rows of the join -/

section Rows
variable {s : State}

theorem mem_linkedEvidence (hs : Sound s) {r : AssessmentResult} (hr : r ∈ s.db.results) (e : Id) :
    e ∈ linkedEvidence s r.id ↔ e = evidenceOf r.id := by
  simp only [linkedEvidence, List.mem_map, List.mem_filter, decide_eq_true_eq]
  constructor
  · rintro ⟨l, ⟨hl, hid⟩, rfl⟩
    rw [hs.db.links l hl, hid]
  · rintro rfl
    exact ⟨_, ⟨hs.db.results r hr, rfl⟩, rfl⟩

/-- A row of the join is one of a result of its key, with the evidence of that result. -/
theorem joinedRow_spec (hs : Sound s) {x : JoinedRow} (hx : x ∈ joinedRows s) :
    x.result ∈ resultsOf s x.key ∧ x.evidenceId = some (evidenceOf x.result.id) := by
  obtain ⟨r, hr, hx⟩ := List.mem_flatMap.mp hx
  unfold rowsOf at hx
  split at hx
  · cases hx
  · rename_i control catalog hcontrol
    obtain ⟨e, he, rfl⟩ := List.mem_map.mp hx
    have hmem : evidenceOf r.id ∈ linkedEvidence s r.id := (mem_linkedEvidence hs hr _).mpr rfl
    refine ⟨List.mem_filter.mpr ⟨hr, by simp [hcontrol, JoinedRow.key]⟩, ?_⟩
    split at he
    · rename_i hnil
      rw [hnil] at hmem
      cases hmem
    · obtain ⟨id, hid, rfl⟩ := List.mem_map.mp he
      exact congrArg some ((mem_linkedEvidence hs hr id).mp hid)

/-- Every result of a key has a row in the join. -/
theorem exists_joinedRow {key : Key} {r : AssessmentResult} (hr : r ∈ resultsOf s key) :
    ∃ x ∈ joinedRows s, x.key = key ∧ x.result = r := by
  obtain ⟨hr, hkey⟩ := List.mem_filter.mp hr
  obtain ⟨⟨control, catalog⟩, hcontrol, hkey⟩ := (Option.any_eq_true _ _).mp hkey
  have hrow : ∃ e, (⟨r, control.controlId, catalog.code, catalog.version, e⟩ : JoinedRow) ∈
      rowsOf s r := by
    unfold rowsOf
    rw [hcontrol]
    cases hids : linkedEvidence s r.id with
    | nil => exact ⟨none, List.mem_map.mpr ⟨none, List.mem_singleton.mpr rfl, rfl⟩⟩
    | cons id ids => exact ⟨some id, List.mem_map.mpr ⟨some id, List.mem_cons_self, rfl⟩⟩
  obtain ⟨e, he⟩ := hrow
  exact ⟨_, List.mem_flatMap.mpr ⟨r, hr, he⟩, of_decide_eq_true hkey, rfl⟩

end Rows

/-! ## The fold over the rows -/

/-- The rows of a key that the second query returns. -/
def rowsOfKey (order : QueryOrder) (s : State) (key : Key) : List JoinedRow :=
  (latestRows order s).filter fun x => x.key = key

/-- The record of a key whose first row is given and whose rows are given. -/
def gather (record : LineageRecord) (rows : List JoinedRow) : LineageRecord :=
  rows.foldl (fun record x => addEvidence record x.evidenceId) record

@[simp] theorem addEvidence_resultId (record : LineageRecord) (e : Option Id) :
    (addEvidence record e).resultId = record.resultId := by
  unfold addEvidence
  split
  · rfl
  · split <;> rfl

theorem mem_addEvidence (record : LineageRecord) (e : Option Id) (id : Id) :
    id ∈ (addEvidence record e).evidenceIds ↔ id ∈ record.evidenceIds ∨ e = some id := by
  cases e with
  | none => simp [addEvidence]
  | some new =>
    by_cases hmem : new ∈ record.evidenceIds
    · simp only [addEvidence, if_pos hmem, Option.some.injEq]
      refine ⟨.inl, ?_⟩
      rintro (h | rfl)
      · exact h
      · exact hmem
    · simp only [addEvidence, if_neg hmem, List.mem_append, List.mem_singleton, Option.some.injEq,
        eq_comm (a := id)]

@[simp] theorem gather_resultId (rows : List JoinedRow) (record : LineageRecord) :
    (gather record rows).resultId = record.resultId := by
  induction rows generalizing record with
  | nil => rfl
  | cons x rows ih => exact (ih _).trans (addEvidence_resultId _ _)

theorem mem_gather (rows : List JoinedRow) (record : LineageRecord) (id : Id) :
    id ∈ (gather record rows).evidenceIds ↔
      id ∈ record.evidenceIds ∨ ∃ x ∈ rows, x.evidenceId = some id := by
  induction rows generalizing record with
  | nil => simp [gather]
  | cons x rows ih =>
    have hstep : gather record (x :: rows) = gather (addEvidence record x.evidenceId) rows := rfl
    rw [hstep, ih, mem_addEvidence, List.exists_mem_cons_iff, or_assoc]

/-- The rows of the other keys leave a record as it is. -/
theorem foldl_addRow_some (rows : List JoinedRow) (latest : Key → Option LineageRecord) {key : Key}
    {record : LineageRecord} (h : latest key = some record) :
    rows.foldl addRow latest key = some (gather record (rows.filter fun x => x.key = key)) := by
  induction rows generalizing latest record with
  | nil => exact h
  | cons x rows ih =>
    rw [List.foldl_cons]
    by_cases hkey : x.key = key
    · rw [List.filter_cons_of_pos (by simpa using hkey)]
      refine ih _ ?_
      simp only [addRow, hkey, Function.update_self, h, Option.getD_some]
    · rw [List.filter_cons_of_neg (by simpa using hkey)]
      refine ih _ ?_
      simp only [addRow, Function.update_of_ne (Ne.symm hkey), h]

theorem foldl_addRow_none (rows : List JoinedRow) (latest : Key → Option LineageRecord) {key : Key}
    (h : latest key = none) :
    rows.foldl addRow latest key = (rows.filter fun x => x.key = key).head?.map fun x =>
      gather (firstRecord x) (rows.filter fun x => x.key = key) := by
  induction rows generalizing latest with
  | nil => exact h
  | cons x rows ih =>
    rw [List.foldl_cons]
    by_cases hkey : x.key = key
    · rw [List.filter_cons_of_pos (by simpa using hkey)]
      refine foldl_addRow_some rows _ ?_
      simp only [addRow, hkey, Function.update_self, h, Option.getD_none]
    · rw [List.filter_cons_of_neg (by simpa using hkey)]
      refine ih _ ?_
      simp only [addRow, Function.update_of_ne (Ne.symm hkey), h]

/-- A record comes from the rows of its key alone. -/
theorem latestByKey_eq (order : QueryOrder) (s : State) (key : Key) :
    latestByKey order s key = (rowsOfKey order s key).head?.map fun x =>
      gather (firstRecord x) (rowsOfKey order s key) :=
  foldl_addRow_none _ _ rfl

section Page
variable {order : QueryOrder} {s : State} {key : Key}

theorem mem_rowsOfKey {x : JoinedRow} :
    x ∈ rowsOfKey order s key ↔ x ∈ latestRows order s ∧ x.key = key := by
  simp [rowsOfKey]

theorem rowsOfKey_spec (hs : Sound s) {x : JoinedRow} (hx : x ∈ rowsOfKey order s key) :
    x.result ∈ resultsOf s key ∧ x.evidenceId = some (evidenceOf x.result.id) := by
  obtain ⟨hpage, rfl⟩ := mem_rowsOfKey.mp hx
  exact joinedRow_spec hs ((order.rows_perm _).mem_iff.mp (List.mem_of_mem_take hpage))

/-- The first row of a key is that of a newest result: the limit cuts the oldest rows. -/
theorem newest_first (hs : Sound s) {x : JoinedRow} {rows : List JoinedRow}
    (h : rowsOfKey order s key = x :: rows) : Newest s key x.result.id := by
  have hmem : x ∈ rowsOfKey order s key := h ▸ List.mem_cons_self
  refine ⟨x.result, (rowsOfKey_spec hs hmem).1, rfl, fun r hr => ?_⟩
  obtain ⟨y, hy, hkey, rfl⟩ := exists_joinedRow hr
  have hall : (order.rows (joinedRows s)).filter (fun x => x.key = key) =
      x :: (rows ++ ((order.rows (joinedRows s)).drop 10000).filter fun x => x.key = key) := by
    rw [← List.cons_append, ← h, rowsOfKey, latestRows, ← List.filter_append,
      List.take_append_drop]
  have hpairs := (order.rows_newest (joinedRows s)).filter fun x => decide (x.key = key)
  have hin : y ∈ (order.rows (joinedRows s)).filter fun x => x.key = key :=
    List.mem_filter.mpr ⟨(order.rows_perm _).mem_iff.mpr hy, by simpa using hkey⟩
  rw [hall] at hpairs hin
  rcases List.mem_cons.mp hin with rfl | hin
  · exact le_rfl
  · exact (List.pairwise_cons.mp hpairs).1 y hin

theorem latestByKey_nil (h : rowsOfKey order s key = []) : latestByKey order s key = none := by
  rw [latestByKey_eq, h]
  rfl

theorem latestByKey_cons {x : JoinedRow} {rows : List JoinedRow}
    (h : rowsOfKey order s key = x :: rows) :
    latestByKey order s key = some (gather (firstRecord x) (x :: rows)) := by
  rw [latestByKey_eq, h]
  rfl

/-- Without rows of its key an item repeats what the document of its mapping names. -/
theorem itemOf_nil {m : ComplianceMapping} (name : String) (h : rowsOfKey order s m.key = []) :
    (itemOf (latestByKey order s) m name).resultId = m.evidence.map (·.assessmentResultId) ∧
      (itemOf (latestByKey order s) m name).evidenceIds = [m.evidence.map (·.evidenceId)] := by
  constructor
  · simp only [itemOf, latestByKey_nil h, Option.map_none, Option.none_or]
  · simp only [itemOf, latestByKey_nil h, Option.map_none, Option.getD_none]

/-- With rows of its key an item reports the first one's result. -/
theorem resultId_itemOf {m : ComplianceMapping} (name : String) {x : JoinedRow}
    {rows : List JoinedRow} (h : rowsOfKey order s m.key = x :: rows) :
    (itemOf (latestByKey order s) m name).resultId = some x.result.id := by
  simp only [itemOf, latestByKey_cons h, Option.map_some, Option.some_or, gather_resultId,
    firstRecord]

/-- With rows of its key an item reports the evidence of all their results. -/
theorem mem_evidenceIds_itemOf (hs : Sound s) {m : ComplianceMapping} (name : String)
    {x : JoinedRow} {rows : List JoinedRow} (h : rowsOfKey order s m.key = x :: rows)
    (e : Option Id) :
    e ∈ (itemOf (latestByKey order s) m name).evidenceIds ↔
      ∃ y ∈ rowsOfKey order s m.key, e = some (evidenceOf y.result.id) := by
  simp only [itemOf, latestByKey_cons h, Option.map_some, Option.getD_some, List.mem_map,
    mem_gather, firstRecord, List.not_mem_nil, false_or, h]
  constructor
  · rintro ⟨id, ⟨y, hy, hyid⟩, rfl⟩
    exact ⟨y, hy, hyid ▸ (rowsOfKey_spec hs (h ▸ hy)).2⟩
  · rintro ⟨y, hy, rfl⟩
    exact ⟨_, ⟨y, hy, (rowsOfKey_spec hs (h ▸ hy)).2⟩, rfl⟩

/-- The item of a stored mapping reports a newest result with its own evidence if and only if the
rows of its key are those of one result. -/
theorem evidenceBelongs_itemOf (hs : Sound s) {m : ComplianceMapping}
    (hm : m ∈ s.db.mappings.rows) (name : String) :
    EvidenceBelongs s (itemOf (latestByKey order s) m name) ↔ OneResult order s m := by
  cases hrows : rowsOfKey order s m.key with
  | nil =>
    have hpage : ∀ x ∈ latestRows order s, x.key ≠ m.key := by
      intro x hx hkey
      exact List.not_mem_nil (hrows ▸ mem_rowsOfKey.mpr ⟨hx, hkey⟩)
    obtain ⟨hid, hev⟩ := itemOf_nil name hrows
    constructor
    · rintro ⟨id, hitem, hnewest, -⟩
      refine ⟨fun x hx _ _ hkey => absurd hkey (hpage x hx), fun _ => ?_⟩
      obtain ⟨e, he, rfl⟩ := Option.map_eq_some_iff.mp (hid.symm.trans hitem)
      exact ⟨e, he, hnewest⟩
    · rintro ⟨-, hdoc⟩
      obtain ⟨e, he, hnewest⟩ := hdoc hpage
      refine ⟨e.assessmentResultId, by rw [hid, he]; rfl, hnewest, fun x => ?_⟩
      obtain ⟨r, hr, hrid, -⟩ := hnewest
      rw [hev, he, ← hrid, List.mem_singleton]
      simp only [mem_linkedEvidence hs (List.mem_filter.mp hr).1, exists_eq_left]
      rw [hrid, ← hs.db.mappings m hm e he]
      rfl
  | cons x rows =>
    have hfirst : x ∈ rowsOfKey order s m.key := hrows ▸ List.mem_cons_self
    have hid := resultId_itemOf name hrows
    have hev := mem_evidenceIds_itemOf hs name hrows
    have hown := mem_linkedEvidence hs (List.mem_filter.mp (rowsOfKey_spec hs hfirst).1).1
    constructor
    · rintro ⟨id, hitem, -, hmem⟩
      obtain rfl : x.result.id = id := Option.some.inj (hid.symm.trans hitem)
      have hsame : ∀ y ∈ rowsOfKey order s m.key, y.result.id = x.result.id := by
        intro y hy
        obtain ⟨e, he, heq⟩ := (hmem _).mp ((hev _).mpr ⟨y, hy, rfl⟩)
        exact evidenceOf_inj ((Option.some.inj heq).trans ((hown e).mp he))
      refine ⟨fun y hy z hz hykey hzkey => ?_, fun hpage => ?_⟩
      · rw [hsame y (mem_rowsOfKey.mpr ⟨hy, hykey⟩), hsame z (mem_rowsOfKey.mpr ⟨hz, hzkey⟩)]
      · exact absurd (mem_rowsOfKey.mp hfirst).2 (hpage x (mem_rowsOfKey.mp hfirst).1)
    · rintro ⟨hone, -⟩
      refine ⟨x.result.id, hid, newest_first hs hrows, fun e => ?_⟩
      rw [hev]
      simp only [hown, exists_eq_left]
      constructor
      · rintro ⟨y, hy, rfl⟩
        obtain ⟨hypage, hykey⟩ := mem_rowsOfKey.mp hy
        obtain ⟨hxpage, hxkey⟩ := mem_rowsOfKey.mp hfirst
        rw [hone y hypage x hxpage hykey hxkey]
      · rintro rfl
        exact ⟨x, hfirst, rfl⟩

/-- An item names a result if and only if its mapping does or the query returns a row of its
key. -/
theorem hasResult_itemOf (hs : Sound s) (m : ComplianceMapping) (name : String) :
    HasResult s (itemOf (latestByKey order s) m name) ↔
      resultsOf s m.key ≠ [] ∨ m.evidence ≠ none := by
  have hkey : (itemOf (latestByKey order s) m name).key = m.key := rfl
  unfold HasResult
  rw [hkey]
  cases hrows : rowsOfKey order s m.key with
  | nil => simp only [(itemOf_nil name hrows).1, ne_eq, Option.map_eq_none_iff]
  | cons x rows =>
    have hfirst : x ∈ rowsOfKey order s m.key := hrows ▸ List.mem_cons_self
    have hne : resultsOf s m.key ≠ [] := List.ne_nil_of_mem (rowsOfKey_spec hs hfirst).1
    exact ⟨fun _ => .inl hne, fun _ => .inl hne⟩

theorem mem_listed {framework status : Option String} {p : ComplianceMapping × String}
    (h : p ∈ listed order s framework status) : p.1 ∈ s.db.mappings.rows := by
  obtain ⟨m, hm, hp⟩ := List.mem_filterMap.mp (List.mem_of_mem_take h)
  obtain ⟨a, -, rfl⟩ := Option.map_eq_some_iff.mp hp
  exact (List.mem_filter.mp ((order.mappings_perm _).mem_iff.mp hm)).1

end Page

theorem sound_run (P : Primitives) (events : List Event) : Sound (run (step P) .start events) :=
  run_invariant Sound (sound_step P) sound_start events

/-- After any history, every listed item that has a result reports a newest one with exactly its
evidence if and only if the rows that the query returns for each of their keys are those of one
result, or there are none and the document of the mapping names a newest result. -/
theorem evidence_belongs_iff (P : Primitives) (events : List Event) (order : QueryOrder)
    (framework status : Option String) :
    (∀ i ∈ listCompliance order (run (step P) .start events) framework status,
      HasResult (run (step P) .start events) i →
        EvidenceBelongs (run (step P) .start events) i) ↔
    ∀ p ∈ listed order (run (step P) .start events) framework status,
      (resultsOf (run (step P) .start events) p.1.key ≠ [] ∨ p.1.evidence ≠ none) →
        OneResult order (run (step P) .start events) p.1 := by
  have hs := sound_run P events
  generalize run (step P) .start events = s at hs
  simp only [listCompliance, List.forall_mem_map]
  refine forall₂_congr fun p hp => ?_
  rw [hasResult_itemOf hs, evidenceBelongs_itemOf hs (mem_listed hp)]

/-! ## Two audits of one server -/

/-- The rows sorted by time, and the mappings as they are stored. -/
def sortedOrder : QueryOrder where
  rows xs := xs.insertionSort fun x y => y.result.assessedAt ≤ x.result.assessedAt
  rows_perm xs := List.perm_insertionSort _ xs
  rows_newest xs := by
    have : Std.Total fun x y : JoinedRow => y.result.assessedAt ≤ x.result.assessedAt :=
      ⟨fun x y => le_total y.result.assessedAt x.result.assessedAt⟩
    have : IsTrans JoinedRow fun x y => y.result.assessedAt ≤ x.result.assessedAt :=
      ⟨fun _ _ _ h h' => le_trans h' h⟩
    exact List.pairwise_insertionSort _ xs
  mappings ms := ms
  mappings_perm ms := List.Perm.refl ms

/-- One server is audited twice, one audit after the other. -/
def twiceAudited : State :=
  run (step Primitives.plain) .start
    [.inventory AuditRecord.inventory, .frameworks AuditRecord.frameworks,
      .read 5 6 "scheduler", .commit 0, .read 7 8 "scheduler", .commit 0]

/-- The item lists the evidence of the first audit beside that of the second. -/
theorem older_evidence_reported :
    ¬ ∀ i ∈ listCompliance sortedOrder twiceAudited none none,
      HasResult twiceAudited i → EvidenceBelongs twiceAudited i := by
  have hreported : ∃ i ∈ listCompliance sortedOrder twiceAudited none none,
      i.resultId = some ⟨1, 0⟩ ∧ some ⟨0, 1⟩ ∈ i.evidenceIds ∧
        ⟨0, 1⟩ ∉ linkedEvidence twiceAudited ⟨1, 0⟩ := by
    decide +kernel
  intro h
  obtain ⟨i, hi, hid, hmem, hnot⟩ := hreported
  have hhas : HasResult twiceAudited i := .inr (by rw [hid]; exact Option.some_ne_none _)
  obtain ⟨id, hitem, -, hev⟩ := h i hi hhas
  obtain rfl : (⟨1, 0⟩ : Id) = id := Option.some.inj (hid.symm.trans hitem)
  obtain ⟨e, he, heq⟩ := (hev _).mp hmem
  exact hnot (Option.some.inj heq ▸ he)

end Kepryx.EvidenceLineage
