import Kepryx.EvidenceLineage

/-!
# The two summaries of an audit

An audit stores a summary of its results when it completes. The summary endpoint counts the stored
results of the latest completed audit again. In between assets are deleted, and with them results.
After any history of audits and changes the endpoint shows no more than the audit stored, and the
same for each framework that lost no result.
-/
namespace Kepryx.RunSummaries
open Kepryx.Models Kepryx.Tables Kepryx.Results Kepryx.Runs Kepryx.GroupedFold
open Kepryx.CompliancePercentages Kepryx.ComplianceCatalog Kepryx.ComplianceAudit
open Kepryx.AuditLoop
open Kepryx.AuditRecord (runAudit_ok total_increment)
open Kepryx.ConcurrentAudits (Pending commitAudit)
open Kepryx.EvidenceLineage (State Event step controlOf referencesHold)

/-! ## The endpoint -/

/-- A row of the query of `_new_summary`. -/
structure SummaryRow where
  framework : String
  name : String
  version : String
  status : Status
  count : ℕ
  deriving DecidableEq, Repr

def SummaryRow.toRow (x : SummaryRow) : Row := ⟨x.framework, x.status, x.count⟩

/-- What a summary says of a framework besides its counts. -/
structure Labels where
  name : String
  version : String
  lastAssessedAt : String
  deriving DecidableEq, Repr

/-- A framework in the answer; without a completed audit it has no labels. -/
structure SummaryEntry extends Entry where
  labels : Option Labels

/-- How the database answers: the latest completed run, rows in some order, the names of the
catalogs, and the texts of times. -/
structure Answers where
  latest : List AssessmentRun → Option AssessmentRun
  latest_newest : ∀ runs run, latest runs = some run →
    run ∈ runs ∧ ∀ r ∈ runs, r.completedAt ≤ run.completedAt
  latest_none : ∀ runs, latest runs = none → runs = []
  groups : List SummaryRow → List SummaryRow
  groups_perm : ∀ xs, (groups xs).Perm xs
  mappingGroups : List Row → List Row
  mappingGroups_perm : ∀ xs, (mappingGroups xs).Perm xs
  name : FrameworkCatalog → String
  isoformat : Time → String

variable (A : Answers) (P : Primitives)

/-- The stored results of a run. -/
def runResults (db : AuditDb) (runId : ℕ) : List AssessmentResult :=
  db.results.filter fun r => r.runId = runId

/-- The columns that `_new_summary` groups by. -/
def groupKey (s : State) (r : AssessmentResult) : Option (String × String × String × Status) :=
  (controlOf s r).map fun (_, catalog) => (catalog.code, A.name catalog, catalog.version, r.status)

/-- The rows that `_new_summary` reads. -/
def summaryRows (s : State) (runId : ℕ) : List SummaryRow :=
  (counted ((runResults s.db runId).filterMap (groupKey A s))).map
    fun ((framework, name, version, status), count) => ⟨framework, name, version, status, count⟩

/-- `_new_summary` -/
def newSummary (s : State) (run : AssessmentRun) : Dict String SummaryEntry := fun framework =>
  (groupEach SummaryRow.framework
    (fun x => (emptyCounts, ⟨x.name, x.version, A.isoformat run.completedAt⟩))
    (fun (v : Counts × Labels) x => (addCount v.1 x.toRow, v.2))
    (A.groups (summaryRows A s run.id)) framework).map fun v =>
      ⟨finalizeCounts P.rounding v.1, some v.2⟩

/-- The rows that `_legacy_summary` reads. -/
def mappingRows (s : State) : List Row :=
  (counted (s.db.mappings.rows.map fun m => (m.framework, m.status))).map
    fun ((framework, status), count) => ⟨framework, status, count⟩

/-- `compliance_summary` -/
def complianceSummary (s : State) : Dict String SummaryEntry :=
  match A.latest s.db.runs with
  | some run => newSummary A P s run
  | none => fun framework =>
    (legacySummary P.rounding (A.mappingGroups (mappingRows s)) framework).map
      fun e => ⟨e, none⟩

/-! ## What the endpoint counts -/

/-- The results of a run whose controls are in a catalog of the framework. -/
def shownResults (s : State) (runId : ℕ) (framework : String) : List AssessmentResult :=
  (runResults s.db runId).filter fun r =>
    (controlOf s r).any fun (_, catalog) => catalog.code = framework

/-- The number of results with a status. -/
def tally (results : List AssessmentResult) : Counts := fun status =>
  results.countP fun r => r.status = status

/-- An audit gives no other status. -/
def Determined (r : AssessmentResult) : Prop := r.status ∈ [.compliant, .partially, .gap]

theorem foldl_addCount {xs : List SummaryRow} (hna : ∀ x ∈ xs, x.status ≠ .na) (c : Counts)
    (labels : Labels) : xs.foldl (fun (v : Counts × Labels) x => (addCount v.1 x.toRow, v.2))
      (c, labels) =
        (fun status => c status + ((xs.filter fun x => x.status = status).map
          SummaryRow.count).sum, labels) := by
  induction xs generalizing c with
  | nil => simp
  | cons x xs ih =>
    obtain ⟨hx, hxs⟩ := List.forall_mem_cons.mp hna
    rw [List.foldl_cons, ih hxs]
    refine Prod.ext (funext fun status => ?_) rfl
    by_cases hstatus : x.status = status
    · subst hstatus
      simp [addCount, SummaryRow.toRow, hx, Nat.add_assoc]
    · simp [addCount, SummaryRow.toRow, hx, hstatus, Function.update_of_ne (Ne.symm hstatus)]

section Endpoint
variable {A P} {s : State} {run : AssessmentRun} {framework : String}

/-- The control of a result and its catalog are stored. -/
structure Joined (s : State) (r : AssessmentResult) (p : FrameworkControl × FrameworkCatalog) :
    Prop where
  control : p.1 ∈ s.catalog.controls.rows
  catalog : p.2 ∈ s.catalog.catalogs.rows
  result : p.1.id = r.controlId
  owner : p.2.id = p.1.catalogId

theorem controlOf_spec {r : AssessmentResult} {p : FrameworkControl × FrameworkCatalog}
    (h : controlOf s r = some p) : Joined s r p := by
  obtain ⟨control, hcontrol, h⟩ := Option.bind_eq_some_iff.mp h
  obtain ⟨catalog, hcatalog, rfl⟩ := Option.map_eq_some_iff.mp h
  obtain ⟨hcontrol, hid⟩ := Table.find_eq_some.mp hcontrol
  obtain ⟨hcatalog, howner⟩ := Table.find_eq_some.mp hcatalog
  exact ⟨hcontrol, hcatalog, hid, howner⟩

theorem mem_summaryRows {runId : ℕ} {x : SummaryRow} (hx : x ∈ summaryRows A s runId) :
    ∃ r ∈ runResults s.db runId, ∃ p, controlOf s r = some p ∧ x.framework = p.2.code ∧
      x.name = A.name p.2 ∧ x.version = p.2.version ∧ x.status = r.status := by
  obtain ⟨⟨key, count⟩, hkey, rfl⟩ := List.mem_map.mp hx
  obtain ⟨k, hk, hpair⟩ := List.mem_map.mp hkey
  obtain ⟨rfl, -⟩ := Prod.mk.inj hpair
  obtain ⟨r, hr, hgroup⟩ := List.mem_filterMap.mp (List.mem_dedup.mp hk)
  obtain ⟨p, hp, rfl⟩ := Option.map_eq_some_iff.mp hgroup
  exact ⟨r, hr, p, hp, rfl, rfl, rfl, rfl⟩

/-- The groups of a framework and a status count its results with that status. -/
theorem sum_summaryRows (s : State) (runId : ℕ) (framework : String) (status : Status) :
    ((((A.groups (summaryRows A s runId)).filter fun x => x.framework = framework).filter
      fun x => x.status = status).map SummaryRow.count).sum =
        tally (shownResults s runId framework) status := by
  have hperm := (((A.groups_perm (summaryRows A s runId)).filter
    fun x => x.framework = framework).filter fun x => x.status = status).map SummaryRow.count
  rw [hperm.sum_eq, List.filter_filter, summaryRows, List.filter_map, List.map_map]
  have hsum := sum_counted (fun k : String × String × String × Status =>
    decide (k.2.2.2 = status) && decide (k.1 = framework))
    ((runResults s.db runId).filterMap (groupKey A s))
  refine Eq.trans hsum ?_
  rw [List.countP_filterMap, tally, shownResults, List.countP_filter]
  refine List.countP_congr fun r _ => ?_
  unfold groupKey
  cases controlOf s r with
  | none => simp
  | some p => simp

theorem shown_of_row {runId : ℕ} {x : SummaryRow}
    (hx : x ∈ (A.groups (summaryRows A s runId)).filter fun x => x.framework = framework) :
    ∃ r ∈ shownResults s runId framework, x.status = r.status := by
  obtain ⟨hmem, hframework⟩ := List.mem_filter.mp hx
  obtain ⟨r, hr, p, hp, hcode, -, -, hstatus⟩ :=
    mem_summaryRows ((A.groups_perm _).mem_iff.mp hmem)
  refine ⟨r, List.mem_filter.mpr ⟨hr, ?_⟩, hstatus⟩
  rw [hp, Option.any_some]
  exact decide_eq_true (hcode.symm.trans (of_decide_eq_true hframework))

/-- The endpoint has a framework if it has a result, and counts its results by status. -/
theorem newSummary_eq (hdet : ∀ r ∈ shownResults s run.id framework, Determined r) :
    (shownResults s run.id framework = [] ∧ newSummary A P s run framework = none) ∨
      shownResults s run.id framework ≠ [] ∧ ∃ catalog ∈ s.catalog.catalogs.rows,
        catalog.code = framework ∧ newSummary A P s run framework = some
          ⟨finalizeCounts P.rounding (tally (shownResults s run.id framework)),
            some ⟨A.name catalog, catalog.version, A.isoformat run.completedAt⟩⟩ := by
  set rows := (A.groups (summaryRows A s run.id)).filter fun x => x.framework = framework
    with hrows
  have hcounts : ∀ status, ((rows.filter fun x => x.status = status).map SummaryRow.count).sum =
      tally (shownResults s run.id framework) status := sum_summaryRows s run.id framework
  have hna : ∀ x ∈ rows, x.status ≠ .na := by
    intro x hx hstatus
    obtain ⟨r, hr, heq⟩ := shown_of_row hx
    have hdetermined := hdet r hr
    rw [Determined, ← heq, hstatus] at hdetermined
    revert hdetermined
    decide
  have hlookup := groupEach_lookup SummaryRow.framework
    (fun x => (emptyCounts, (⟨x.name, x.version, A.isoformat run.completedAt⟩ : Labels)))
    (fun (v : Counts × Labels) x => (addCount v.1 x.toRow, v.2))
    (A.groups (summaryRows A s run.id)) framework
  rw [← hrows] at hlookup
  cases hcase : rows with
  | nil =>
    refine .inl ⟨List.eq_nil_iff_forall_not_mem.mpr fun r hr => ?_, ?_⟩
    · have hpos : 0 < tally (shownResults s run.id framework) r.status :=
        List.countP_pos_iff.mpr ⟨r, hr, decide_eq_true rfl⟩
      rw [← hcounts, hcase] at hpos
      exact absurd hpos (lt_irrefl 0)
    · rw [newSummary, hlookup, hcase]
      rfl
  | cons x rest =>
    have hx : x ∈ rows := hcase ▸ List.mem_cons_self
    obtain ⟨r, hr, -⟩ := shown_of_row hx
    obtain ⟨hmem, hframework⟩ := List.mem_filter.mp hx
    obtain ⟨_, _, p, hp, hcode, hname, hversion, -⟩ :=
      mem_summaryRows ((A.groups_perm _).mem_iff.mp hmem)
    refine .inr ⟨List.ne_nil_of_mem hr, p.2, (controlOf_spec hp).catalog,
      hcode.symm.trans (of_decide_eq_true hframework), ?_⟩
    have hzero : (fun status => emptyCounts status +
        ((rows.filter fun x => x.status = status).map SummaryRow.count).sum) =
          tally (shownResults s run.id framework) :=
      funext fun status => (Nat.zero_add _).trans (hcounts status)
    have hhead : rows.head? = some x := by rw [hcase, List.head?_cons]
    rw [newSummary, hlookup, hhead, Option.map_some, Option.map_some, foldl_addCount hna, hzero,
      hname, hversion]

end Endpoint

/-! ## What an audit stores -/

/-- Every control is in a catalog of its framework. -/
def Labelled (codeOf : ℕ → String) (rows : CatalogRows) : Prop :=
  ∀ control ∈ rows.controls.rows, ∀ catalog ∈ rows.catalogs.rows, control.catalogId = catalog.id →
    catalog.code = codeOf control.id

/-- The results whose controls are of a framework. -/
def ofFramework (codeOf : ℕ → String) (results : List AssessmentResult) (framework : String) :
    List AssessmentResult :=
  results.filter fun r => codeOf r.controlId = framework

/-- The counters have a framework if it has a result, and count its results by status. -/
def CountsOf (codeOf : ℕ → String) (counts : List (String × Counts))
    (results : List AssessmentResult) : Prop :=
  ∀ framework, counts.lookup framework =
    if ofFramework codeOf results framework = [] then none
    else some (tally (ofFramework codeOf results framework))

section Audit
variable {P : Primitives} {codeOf : ℕ → String} {inputs : Inputs} {runId : ℕ} {db : AuditDb}

theorem lookup_incrementFramework (framework : String) (status : Status)
    (counts : List (String × Counts)) (f : String) :
    (incrementFramework framework status counts).lookup f =
      if f = framework then
        some (increment ((counts.lookup framework).getD emptyCounts) status)
      else counts.lookup f := by
  induction counts with
  | nil =>
    by_cases hf : f = framework
    · simp [incrementFramework, hf]
    · simp [incrementFramework, hf]
  | cons p rest ih =>
    obtain ⟨g, c⟩ := p
    unfold incrementFramework
    by_cases hg : g = framework
    · subst hg
      by_cases hf : f = g
      · simp [hf]
      · simp [hf, List.lookup_cons, beq_false_of_ne hf]
    · rw [if_neg hg]
      by_cases hf : f = g
      · subst hf
        simp [hg]
      · simp [List.lookup_cons, beq_false_of_ne hf, beq_false_of_ne (Ne.symm hg), ih]

theorem increment_tally (results : List AssessmentResult) (r : AssessmentResult) :
    increment (tally results) r.status = tally (results ++ [r]) := by
  funext status
  by_cases h : status = r.status
  · subst h
    simp [increment, tally]
  · simp [increment, tally, Function.update_of_ne h, Ne.symm h]

theorem counts_append {counts : List (String × Counts)} {results : List AssessmentResult}
    (h : CountsOf codeOf counts results) (r : AssessmentResult) :
    CountsOf codeOf (incrementFramework (codeOf r.controlId) r.status counts)
      (results ++ [r]) := by
  intro framework
  rw [lookup_incrementFramework]
  by_cases hframework : framework = codeOf r.controlId
  · subst hframework
    have happend : ofFramework codeOf (results ++ [r]) (codeOf r.controlId) =
        ofFramework codeOf results (codeOf r.controlId) ++ [r] := by
      simp [ofFramework]
    have hgetD : (counts.lookup (codeOf r.controlId)).getD emptyCounts =
        tally (ofFramework codeOf results (codeOf r.controlId)) := by
      rw [h]
      split
      · rename_i hnil
        rw [hnil]
        rfl
      · rfl
    rw [if_pos rfl, hgetD, increment_tally, happend, if_neg (by simp)]
  · have hsame : ofFramework codeOf (results ++ [r]) framework =
        ofFramework codeOf results framework := by
      simp [ofFramework, Ne.symm hframework]
    rw [if_neg hframework, hsame, h]

theorem determined_assess (rule : ControlRule) (a : AssessedAsset) :
    (assess rule a).status ∈ [Status.compliant, .partially, .gap] := by
  unfold assess assessedStatus
  dsimp only
  split
  · decide
  · split
    · decide
    · decide

/-- What the loop adds, and what its counters say of it. -/
structure Adds (codeOf : ℕ → String) (runId : ℕ) (db : AuditDb) (st : Loop)
    (added : List AssessmentResult) : Prop where
  runs : st.db.runs = db.runs
  results : st.db.results = db.results ++ added
  own : ∀ r ∈ added, r.runId = runId ∧ Determined r
  counts : CountsOf codeOf st.frameworkCounts added

theorem auditLoop_adds (hlabelled : Labelled codeOf inputs.catalog) {st : Loop}
    (h : auditLoop P inputs runId db = .ok st) : ∃ results, Adds codeOf runId db st results := by
  refine foldlM_invariant (fun _ st => ∃ results, Adds codeOf runId db st results) ?_ ?_ h
  · rintro before t after st st' - ⟨results, hadds⟩ hstep
    rcases assessControl_ok hstep with ⟨-, rfl⟩ |
      ⟨control, catalog, mappings, index, alerts, hsome, -, -, rfl⟩
    · exact ⟨results, hadds⟩
    · set r := newRecord P runId st.draws inputs.now t control catalog with hr
      obtain ⟨hjoined, hcode, -⟩ := inputs.catalog.lookup_some hsome
      obtain ⟨hcontrol, hcatalog, -, hid⟩ := inputs.catalog.mem_joined.mp hjoined
      have hframework : t.framework = codeOf r.result.controlId :=
        hcode.symm.trans (hlabelled control hcontrol catalog hcatalog hid)
      refine ⟨results ++ [r.result], hadds.runs, ?_, fun x hx => ?_, ?_⟩
      · rw [← List.append_assoc, ← hadds.results]
        rfl
      · rcases List.mem_append.mp hx with hx | hx
        · exact hadds.own x hx
        · rw [List.mem_singleton.mp hx]
          exact ⟨rfl, determined_assess t.rule t.asset⟩
      · have hcounts := counts_append hadds.counts r.result
        rw [← hframework] at hcounts
        exact hcounts
  · exact ⟨[], rfl, (List.append_nil _).symm, fun _ hr => absurd hr List.not_mem_nil,
      fun _ => rfl⟩

/-- The summary has a framework if it has a result, with the counts of its results. -/
structure Summarises (P : Primitives) (codeOf : ℕ → String) (summary : Summary)
    (results : List AssessmentResult) : Prop where
  frameworks : ∀ framework, summary.frameworks.lookup framework =
    if ofFramework codeOf results framework = [] then none
    else some (frameworkSummary P (tally (ofFramework codeOf results framework)))
  determined : ∀ r ∈ results, Determined r

/-- What an audit has for its commit: its run, and the results that the run sums up. -/
structure Ready (P : Primitives) (codeOf : ℕ → String) (read after : AuditDb)
    (run : AssessmentRun) (added : List AssessmentResult) : Prop where
  runs : after.runs = read.runs ++ [run]
  results : after.results = read.results ++ added
  own : ∀ r ∈ added, r.runId = run.id
  summary : Summarises P codeOf run.summary added

theorem runAudit_ready (hlabelled : Labelled codeOf inputs.catalog) {after : AuditDb}
    (h : runAudit P inputs runId db = .ok after) :
    ∃ run results, run.id = runId ∧ Ready P codeOf db after run results := by
  obtain ⟨st, hst, rfl⟩ := runAudit_ok h
  obtain ⟨results, hadds⟩ := auditLoop_adds hlabelled hst
  have hmap : ∀ (counts : List (String × Counts)) framework,
      (counts.map fun p => (p.1, frameworkSummary P p.2)).lookup framework =
        (counts.lookup framework).map (frameworkSummary P) := by
    intro counts framework
    induction counts with
    | nil => rfl
    | cons p rest ih =>
      rw [List.map_cons, List.lookup_cons, List.lookup_cons, ih]
      split
      · rfl
      · rfl
  refine ⟨completedRun P inputs runId st, results, rfl, ?_, hadds.results,
    fun r hr => (hadds.own r hr).1, fun framework => ?_, fun r hr => (hadds.own r hr).2⟩
  · rw [hadds.runs]
  · refine (hmap st.frameworkCounts framework).trans ?_
    rw [hadds.counts]
    split
    · rfl
    · rfl

end Audit

/-! ## Histories -/

/-- No change of the frameworks moves a control to another framework. -/
def Stays (codeOf : ℕ → String) : Event → Prop
  | .frameworks catalog => Labelled codeOf catalog
  | _ => True

/-- Every stored run sums up results of which the stored ones are left. -/
structure Told (P : Primitives) (codeOf : ℕ → String) (s : State) : Prop where
  labelled : Labelled codeOf s.catalog
  runs : ∀ run ∈ s.db.runs, ∃ results, (runResults s.db run.id).Sublist results ∧
    Summarises P codeOf run.summary results
  owned : ∀ r ∈ s.db.results, ∃ run ∈ s.db.runs, run.id = r.runId
  ready : ∀ p ∈ s.inflight, ∃ run added, run.id = p.runId ∧ Ready P codeOf p.read p.after run added
  apart : (s.inflight.map Pending.runId).Nodup
  new : ∀ run ∈ s.db.runs, ∀ p ∈ s.inflight, run.id ≠ p.runId
  drawn : (∀ run ∈ s.db.runs, run.id < s.nextRun) ∧ ∀ p ∈ s.inflight, p.runId < s.nextRun

section Histories
variable {P : Primitives} {codeOf : ℕ → String} {s : State}

theorem told_start : Told P codeOf .start where
  labelled _ h := absurd h List.not_mem_nil
  runs _ h := absurd h List.not_mem_nil
  owned _ h := absurd h List.not_mem_nil
  ready _ h := absurd h List.not_mem_nil
  apart := List.nodup_nil
  new _ h := absurd h List.not_mem_nil
  drawn := ⟨fun _ h => absurd h List.not_mem_nil, fun _ h => absurd h List.not_mem_nil⟩

theorem told_read (hs : Told P codeOf s) (now finished : Time) (initiatedBy : String) :
    Told P codeOf (step P s (.read now finished initiatedBy)) := by
  obtain ⟨hruns, hpending⟩ := hs.drawn
  unfold step
  dsimp only
  split
  · rename_i after hrun
    obtain ⟨run, added, hid, hready⟩ := runAudit_ready hs.labelled hrun
    refine ⟨hs.labelled, hs.runs, hs.owned, fun p hp => ?_, ?_, fun r hr p hp => ?_,
      fun r hr => Nat.lt_succ_of_lt (hruns r hr), fun p hp => ?_⟩
    · rcases List.mem_append.mp hp with hp | hp
      · exact hs.ready p hp
      · rw [List.mem_singleton.mp hp]
        exact ⟨run, added, hid, hready⟩
    · rw [List.map_append, List.nodup_append]
      refine ⟨hs.apart, List.nodup_singleton _, fun id hid id' hid' => ?_⟩
      obtain ⟨p, hp, rfl⟩ := List.mem_map.mp hid
      rw [List.mem_singleton.mp hid']
      exact Nat.ne_of_lt (hpending p hp)
    · rcases List.mem_append.mp hp with hp | hp
      · exact hs.new r hr p hp
      · rw [List.mem_singleton.mp hp]
        exact Nat.ne_of_lt (hruns r hr)
    · rcases List.mem_append.mp hp with hp | hp
      · exact Nat.lt_succ_of_lt (hpending p hp)
      · rw [List.mem_singleton.mp hp]
        exact Nat.lt_succ_self _
  · exact ⟨hs.labelled, hs.runs, hs.owned, hs.ready, hs.apart, hs.new,
      fun r hr => Nat.lt_succ_of_lt (hruns r hr), fun p hp => Nat.lt_succ_of_lt (hpending p hp)⟩

theorem runResults_append {db db' : AuditDb} {added : List AssessmentResult}
    (h : db'.results = db.results ++ added) (runId : ℕ) :
    runResults db' runId = runResults db runId ++ added.filter fun r => r.runId = runId := by
  rw [runResults, h, List.filter_append]
  rfl

/-- The tables after the commit of an audit. -/
theorem told_insert (hs : Told P codeOf s) {p : Pending} {n : ℕ} (hp : s.inflight[n]? = some p) :
    Told P codeOf { s with db := commitAudit p s.db, inflight := s.inflight.eraseIdx n } := by
  have hmem : p ∈ s.inflight := List.mem_of_getElem? hp
  have hleft : ∀ q ∈ s.inflight.eraseIdx n, q ∈ s.inflight ∧ q.runId ≠ p.runId := by
    obtain ⟨hn, rfl⟩ := List.getElem?_eq_some_iff.mp hp
    have hnodup := hs.apart
    rw [((List.getElem_cons_eraseIdx_perm hn).map Pending.runId).nodup_iff.symm, List.map_cons,
      List.nodup_cons] at hnodup
    exact fun q hq => ⟨List.mem_of_mem_eraseIdx hq,
      fun heq => hnodup.1 (heq ▸ List.mem_map_of_mem hq)⟩
  obtain ⟨run, added, hid, hready⟩ := hs.ready p hmem
  have hruns : (commitAudit p s.db).runs = s.db.runs ++ [run] := by
    simp [commitAudit, hready.runs]
  have hresults : (commitAudit p s.db).results = s.db.results ++ added := by
    simp [commitAudit, hready.results]
  refine ⟨hs.labelled, fun r hr => ?_, fun r hr => ?_, fun q hq => hs.ready q (hleft q hq).1,
    ((List.eraseIdx_sublist _ _).map _).nodup hs.apart, fun r hr q hq => ?_, fun r hr => ?_,
    fun q hq => hs.drawn.2 q (hleft q hq).1⟩
  · rw [hruns] at hr
    rw [runResults_append hresults]
    rcases List.mem_append.mp hr with hr | hr
    · -- the new results are of another run
      obtain ⟨results, hsub, hsummary⟩ := hs.runs r hr
      have hnone : (added.filter fun x => x.runId = r.id) = [] :=
        List.filter_eq_nil_iff.mpr fun x hx heq =>
          hs.new r hr p hmem ((of_decide_eq_true heq).symm.trans (hready.own x hx) |>.trans hid)
      exact ⟨results, by rw [hnone, List.append_nil]; exact hsub, hsummary⟩
    · rw [List.mem_singleton.mp hr]
      have hnone : runResults s.db run.id = [] := by
        refine List.filter_eq_nil_iff.mpr fun x hx heq => ?_
        obtain ⟨owner, howner, hownerId⟩ := hs.owned x hx
        exact hs.new owner howner p hmem
          ((hownerId.trans (of_decide_eq_true heq)).trans hid)
      refine ⟨added, ?_, hready.summary⟩
      rw [hnone, List.nil_append]
      exact List.filter_sublist
  · rw [hresults] at hr
    rw [hruns]
    rcases List.mem_append.mp hr with hr | hr
    · obtain ⟨owner, howner, hownerId⟩ := hs.owned r hr
      exact ⟨owner, List.mem_append_left _ howner, hownerId⟩
    · exact ⟨run, List.mem_append_right _ (List.mem_singleton.mpr rfl), (hready.own r hr).symm⟩
  · rw [hruns] at hr
    rcases List.mem_append.mp hr with hr | hr
    · exact hs.new r hr q (hleft q hq).1
    · rw [List.mem_singleton.mp hr, hid]
      exact (hleft q hq).2.symm
  · rw [hruns] at hr
    rcases List.mem_append.mp hr with hr | hr
    · exact hs.drawn.1 r hr
    · rw [List.mem_singleton.mp hr, hid]
      exact hs.drawn.2 p hmem

/-- The tables after rows were deleted. -/
theorem told_delete (hs : Told P codeOf s) {assets : Table fun a : AssessedAsset => a.id}
    {catalog : CatalogRows} {db : AuditDb} (hlabelled : Labelled codeOf catalog)
    (hruns : db.runs = s.db.runs) (hresults : db.results.Sublist s.db.results) :
    Told P codeOf { s with assets := assets, catalog := catalog, db := db } := by
  refine ⟨hlabelled, fun run hrun => ?_, fun r hr => ?_, hs.ready, hs.apart, fun run hrun => ?_,
    fun run hrun => hs.drawn.1 run (hruns ▸ hrun), hs.drawn.2⟩
  · obtain ⟨results, hsub, hsummary⟩ := hs.runs run (hruns ▸ hrun)
    exact ⟨results, (hresults.filter _).trans hsub, hsummary⟩
  · obtain ⟨run, hrun, hid⟩ := hs.owned r (hresults.subset hr)
    exact ⟨run, hruns.symm ▸ hrun, hid⟩
  · exact hs.new run (hruns ▸ hrun)

theorem told_step (hs : Told P codeOf s) {e : Event} (he : Stays codeOf e) :
    Told P codeOf (step P s e) := by
  cases e with
  | read now finished initiatedBy => exact told_read hs now finished initiatedBy
  | commit n =>
    unfold step
    dsimp only
    split
    · exact hs
    · rename_i p hp
      by_cases hreferences : referencesHold s p = true
      · rw [if_pos hreferences]
        exact told_insert hs hp
      · rw [if_neg hreferences]
        have hleft : ∀ q ∈ s.inflight.eraseIdx n, q ∈ s.inflight :=
          fun q hq => List.mem_of_mem_eraseIdx hq
        exact ⟨hs.labelled, hs.runs, hs.owned, fun q hq => hs.ready q (hleft q hq),
          ((List.eraseIdx_sublist _ _).map _).nodup hs.apart,
          fun run hrun q hq => hs.new run hrun q (hleft q hq), hs.drawn.1,
          fun q hq => hs.drawn.2 q (hleft q hq)⟩
  | inventory assets => exact told_delete hs hs.labelled rfl List.filter_sublist
  | frameworks catalog => exact told_delete hs he rfl List.filter_sublist

theorem told_run {events : List Event} (hstays : ∀ e ∈ events, Stays codeOf e) :
    Told P codeOf (run (step P) .start events) :=
  run_invariant_along (Told P codeOf) (fun _ _ hs he => told_step hs he) told_start
    (along_of_forall fun e he _ => hstays e he)

end Histories

/-! ## The two summaries -/

section Summaries
variable {A : Answers} {P : Primitives} {codeOf : ℕ → String} {s : State} {run : AssessmentRun}
  {framework : String}

theorem total_tally (results : List AssessmentResult) : total (tally results) = results.length := by
  induction results using List.reverseRecOn with
  | nil => rfl
  | append_singleton results r ih =>
    rw [← increment_tally, total_increment, ih, List.length_append, List.length_singleton]

theorem tally_eq_zero {results : List AssessmentResult} (hdet : ∀ r ∈ results, Determined r)
    {status : Status} (h : status ∉ [Status.compliant, .partially, .gap]) :
    tally results status = 0 :=
  List.countP_eq_zero.mpr fun r hr heq => h (of_decide_eq_true heq ▸ hdet r hr)

/-- The entry has the numbers that were stored. -/
structure Repeats (e : SummaryEntry) (stored : FrameworkSummary) : Prop where
  counts : e.counts = stored.counts
  total : e.total = stored.total
  assessed : e.assessed = stored.total
  compliancePct : e.compliancePct = stored.compliancePct

/-- The entry counts no more than was stored, and says which run and which catalog it is about. -/
structure Within (A : Answers) (s : State) (run : AssessmentRun) (framework : String)
    (e : SummaryEntry) (stored : FrameworkSummary) : Prop where
  counts : ∀ status, e.counts status ≤ stored.counts status
  labels : ∃ catalog ∈ s.catalog.catalogs.rows, catalog.code = framework ∧
    e.labels = some ⟨A.name catalog, catalog.version, A.isoformat run.completedAt⟩

theorem total_finalizeCounts {results : List AssessmentResult}
    (hdet : ∀ r ∈ results, Determined r) :
    (finalizeCounts P.rounding (tally results)).total = results.length := by
  have htotal := total_tally results
  have hna : tally results .na = 0 := tally_eq_zero hdet (by decide)
  simp only [finalizeCounts, Counts.total, ComplianceAudit.total] at htotal ⊢
  omega

theorem repeats_frameworkSummary {results : List AssessmentResult}
    (hdet : ∀ r ∈ results, Determined r) (labels : Option Labels) :
    Repeats ⟨finalizeCounts P.rounding (tally results), labels⟩
      (frameworkSummary P (tally results)) := by
  have htotal := total_finalizeCounts (P := P) hdet
  have hstored : total (tally results) = results.length := total_tally _
  have hnotAssessed : tally results .notAssessed = 0 := tally_eq_zero hdet (by decide)
  have hnotApplicable : tally results .notApplicable = 0 := tally_eq_zero hdet (by decide)
  have hwhole : (tally results).total = results.length := htotal
  refine ⟨rfl, htotal.trans hstored.symm, ?_, ?_⟩
  · simp only [finalizeCounts, frameworkSummary, hwhole, hstored, hnotAssessed, hnotApplicable,
      Nat.sub_zero]
  · simp only [finalizeCounts, frameworkSummary, hwhole, hstored, hnotApplicable]

variable (framework) in
/-- What the endpoint counts is left of what the run sums up. -/
theorem shownResults_sublist (hlabelled : Labelled codeOf s.catalog)
    {results : List AssessmentResult} (hsub : (runResults s.db run.id).Sublist results) :
    (shownResults s run.id framework).Sublist (ofFramework codeOf results framework) := by
  refine List.Sublist.trans ?_ (hsub.filter _)
  refine List.monotone_filter_right _ fun r hr => ?_
  obtain ⟨p, hp, hcode⟩ := (Option.any_eq_true _ _).mp hr
  have hjoined := controlOf_spec hp
  have hcodeOf := hlabelled p.1 hjoined.control p.2 hjoined.catalog hjoined.owner.symm
  rw [hjoined.result] at hcodeOf
  exact decide_eq_true (hcodeOf.symm.trans (of_decide_eq_true hcode))

theorem newSummary_of_told (hs : Told P codeOf s) (hrun : run ∈ s.db.runs) :
    (∀ e, newSummary A P s run framework = some e → ∃ stored,
      run.summary.frameworks.lookup framework = some stored ∧ Within A s run framework e stored) ∧
    ∀ stored, run.summary.frameworks.lookup framework = some stored →
      ((shownResults s run.id framework).length = stored.total ↔
        ∃ e, newSummary A P s run framework = some e ∧ Repeats e stored) := by
  obtain ⟨results, hsub, hsummary⟩ := hs.runs run hrun
  have hshown := shownResults_sublist framework hs.labelled hsub
  have hall : ∀ r ∈ ofFramework codeOf results framework, Determined r :=
    fun r hr => hsummary.determined r (List.mem_filter.mp hr).1
  have hdet : ∀ r ∈ shownResults s run.id framework, Determined r :=
    fun r hr => hall r (hshown.subset hr)
  have hlookup := hsummary.frameworks framework
  have hnew := newSummary_eq (A := A) (P := P) hdet
  constructor
  · intro e he
    rcases hnew with ⟨-, hnone⟩ | ⟨hne, catalog, hcatalog, hcode, hsome⟩
    · rw [hnone] at he
      cases he
    · obtain rfl := Option.some.inj (hsome.symm.trans he)
      have hresults : ofFramework codeOf results framework ≠ [] := by
        intro hnil
        rw [hnil] at hshown
        exact hne (List.sublist_nil.mp hshown)
      rw [if_neg hresults] at hlookup
      exact ⟨_, hlookup, fun status => hshown.countP_le, catalog, hcatalog, hcode, rfl⟩
  · intro stored hstored
    have hresults : ofFramework codeOf results framework ≠ [] := by
      intro hnil
      rw [hstored, if_pos hnil] at hlookup
      cases hlookup
    rw [hstored, if_neg hresults] at hlookup
    obtain rfl := Option.some.inj hlookup
    have hlength : (frameworkSummary P (tally (ofFramework codeOf results framework))).total =
        (ofFramework codeOf results framework).length := total_tally _
    rw [hlength]
    constructor
    · intro hcomplete
      have hsame := hshown.eq_of_length hcomplete
      rcases hnew with ⟨hnil, -⟩ | ⟨-, catalog, -, -, hsome⟩
      · exact absurd (hsame ▸ hnil) hresults
      · refine ⟨_, hsome, ?_⟩
        rw [hsame]
        exact repeats_frameworkSummary hall _
    · rintro ⟨e, he, hrepeats⟩
      rcases hnew with ⟨-, hnone⟩ | ⟨-, catalog, -, -, hsome⟩
      · rw [hnone] at he
        cases he
      · obtain rfl := Option.some.inj (hsome.symm.trans he)
        exact (total_finalizeCounts hdet).symm.trans (hrepeats.total.trans hlength)

/-- After any history of audits that overlap and of changes of the inventory and the frameworks,
the summary endpoint shows of the latest run at most the counts that its audit stored, under a
catalog of the framework, and for a framework exactly what was stored if and only if none of its
results was deleted. -/
theorem run_summaries_agree {events : List Event} (hstays : ∀ e ∈ events, Stays codeOf e)
    (hlatest : A.latest (Runs.run (step P) .start events).db.runs = some run)
    (framework : String) :
    let s := Runs.run (step P) .start events
    (∀ e, complianceSummary A P s framework = some e → ∃ stored,
      run.summary.frameworks.lookup framework = some stored ∧ Within A s run framework e stored) ∧
    ∀ stored, run.summary.frameworks.lookup framework = some stored →
      ((shownResults s run.id framework).length = stored.total ↔
        ∃ e, complianceSummary A P s framework = some e ∧ Repeats e stored) := by
  intro s
  have hs : Told P codeOf s := told_run hstays
  have hsummary : complianceSummary A P s = newSummary A P s run := by
    rw [complianceSummary, hlatest]
  rw [hsummary]
  exact newSummary_of_told hs (A.latest_newest _ _ hlatest).1

end Summaries

/-- The runs, the newest first. -/
def newestFirst (runs : List AssessmentRun) : List AssessmentRun :=
  runs.insertionSort fun r r' => r'.completedAt ≤ r.completedAt

theorem newestFirst_sorted (runs : List AssessmentRun) :
    (newestFirst runs).Pairwise fun r r' => r'.completedAt ≤ r.completedAt := by
  have : Std.Total fun r r' : AssessmentRun => r'.completedAt ≤ r.completedAt :=
    ⟨fun r r' => le_total r'.completedAt r.completedAt⟩
  have : IsTrans AssessmentRun fun r r' => r'.completedAt ≤ r.completedAt :=
    ⟨fun _ _ _ h h' => le_trans h' h⟩
  exact List.pairwise_insertionSort _ runs

/-- The rows as they are stored, the name of a catalog being its code. -/
def plainAnswers : Answers where
  latest runs := (newestFirst runs).head?
  latest_newest runs run h := by
    have hsorted := newestFirst_sorted runs
    have hperm : (newestFirst runs).Perm runs := List.perm_insertionSort _ runs
    obtain ⟨rest, hrest⟩ := List.head?_eq_some_iff.mp h
    rw [hrest] at hsorted hperm
    refine ⟨hperm.subset List.mem_cons_self, fun r hr => ?_⟩
    rcases List.mem_cons.mp (hperm.mem_iff.mpr hr) with rfl | hr
    · exact le_refl _
    · exact (List.pairwise_cons.mp hsorted).1 r hr
  latest_none runs h := by
    have hperm : (newestFirst runs).Perm runs := List.perm_insertionSort _ runs
    rw [List.head?_eq_none_iff.mp h] at hperm
    exact hperm.nil_eq.symm
  groups xs := xs
  groups_perm xs := List.Perm.refl xs
  mappingGroups xs := xs
  mappingGroups_perm xs := List.Perm.refl xs
  name := FrameworkCatalog.code
  isoformat t := toString t

/-- A server is audited and then deleted. -/
def deletedServer : List Event :=
  [.inventory AuditRecord.inventory, .frameworks AuditRecord.frameworks, .read 5 6 "scheduler",
    .commit 0, .inventory .empty]

theorem labelled_frameworks : Labelled (fun _ => "cis-v8") AuditRecord.frameworks := by
  unfold Labelled
  decide

/-- The run keeps the result of the server in its summary; the endpoint does not show it. -/
theorem deleted_server_missing : ∃ run stored,
    plainAnswers.latest
      (Runs.run (step AuditRecord.Primitives.plain) .start deletedServer).db.runs = some run ∧
    run.summary.frameworks.lookup "cis-v8" = some stored ∧ stored.total = 1 ∧
    ¬ ∃ e, complianceSummary plainAnswers AuditRecord.Primitives.plain
      (Runs.run (step AuditRecord.Primitives.plain) .start deletedServer) "cis-v8" = some e ∧
        Repeats e stored := by
  have hstored : ((plainAnswers.latest
      (Runs.run (step AuditRecord.Primitives.plain) .start deletedServer).db.runs).bind fun run =>
        run.summary.frameworks.lookup "cis-v8").map FrameworkSummary.total = some 1 := by
    decide +kernel
  have hresults :
      (Runs.run (step AuditRecord.Primitives.plain) .start deletedServer).db.results = [] := by
    decide +kernel
  obtain ⟨stored, hlookup, htotal⟩ := Option.map_eq_some_iff.mp hstored
  obtain ⟨run, hlatest, hlookup⟩ := Option.bind_eq_some_iff.mp hlookup
  have hstays : ∀ e ∈ deletedServer, Stays (fun _ => "cis-v8") e := by
    simp [deletedServer, Stays, labelled_frameworks]
  have hagree := (run_summaries_agree hstays hlatest "cis-v8").2 stored hlookup
  refine ⟨run, stored, hlatest, hlookup, htotal, fun hshown => ?_⟩
  have hlength := hagree.mpr hshown
  rw [htotal, shownResults, runResults, hresults] at hlength
  cases hlength

end Kepryx.RunSummaries
