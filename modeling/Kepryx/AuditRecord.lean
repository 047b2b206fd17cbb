import Mathlib.Data.List.Induction
import Kepryx.AuditLoop
import Kepryx.Runs

/-!
# The record of an audit

The loop of an audit is tied to the rows that it has added by two invariants: one for the
results, their evidence and the counters, and one for the mappings and their index. From both
an audit leaves a complete record, whatever was done before it.
-/
namespace Kepryx.AuditRecord
open Kepryx.Models Kepryx.Tables Kepryx.Results Kepryx.Runs Kepryx.CompliancePercentages
open Kepryx.ComplianceCatalog Kepryx.ComplianceAudit Kepryx.AuditLoop

variable {P : Primitives} {inputs : Inputs} {runId : ℕ} {db : AuditDb}

/-! ## Counters -/

theorem total_increment (counts : Counts) (status : Status) :
    total (increment counts status) = total counts + 1 := by
  cases status <;> simp [total, increment] <;> omega

/-- The totals of all frameworks together. -/
def frameworksTotal (counts : List (String × Counts)) : ℕ := (counts.map fun p => total p.2).sum

theorem frameworksTotal_increment (framework : String) (status : Status)
    (counts : List (String × Counts)) :
    frameworksTotal (incrementFramework framework status counts) = frameworksTotal counts + 1 := by
  induction counts with
  | nil =>
    have hzero : total emptyCounts = 0 := rfl
    simp [frameworksTotal, incrementFramework, total_increment, hzero]
  | cons p rest ih =>
    simp only [frameworksTotal] at ih ⊢
    unfold incrementFramework
    split
    · simp only [List.map_cons, List.sum_cons, total_increment]
      omega
    · simp only [List.map_cons, List.sum_cons, ih]
      omega

/-- The number of records with a status. -/
def statusCount (records : List Record) (status : Status) : ℕ :=
  records.countP fun r => r.result.status = status

theorem increment_statusCount (records : List Record) (r : Record) :
    increment (statusCount records) r.result.status = statusCount (records ++ [r]) := by
  funext status
  by_cases h : status = r.result.status
  · subst h
    simp [increment, statusCount]
  · simp [increment, statusCount, Function.update_of_ne h, Ne.symm h]

theorem total_statusCount (records : List Record) :
    total (statusCount records) = records.length := by
  induction records using List.reverseRecOn with
  | nil => rfl
  | append_singleton records r ih =>
    rw [← increment_statusCount, total_increment, ih]
    simp

/-! ## The rows of the loop -/

/-- The record was made for its turn, with a control of the database. -/
def MadeBy (P : Primitives) (inputs : Inputs) (runId : ℕ) (r : Record) : Prop :=
  (∃ draws, r = newRecord P runId draws inputs.now r.turn r.control r.catalog) ∧
    inputs.catalog.lookup (r.turn.framework, r.turn.controlId) = some (r.control, r.catalog)

/-- The database knows the control of the turn. -/
def known (inputs : Inputs) (t : Turn) : Bool :=
  (inputs.catalog.lookup (t.framework, t.controlId)).isSome

/-- The rows and the counters after some turns, and the records that they stand for. -/
structure Recorded (P : Primitives) (inputs : Inputs) (runId : ℕ) (db : AuditDb)
    (before : List Turn) (records : List Record) (st : Loop) : Prop where
  runs : st.db.runs = db.runs
  results : st.db.results = db.results ++ records.map Record.result
  evidenceItems : st.db.evidenceItems = db.evidenceItems ++ records.map Record.evidence
  links : st.db.links = db.links ++ records.map Record.link
  turns : records.map Record.turn = before.filter (known inputs)
  made : ∀ r ∈ records, MadeBy P inputs runId r
  drawn : ∀ r ∈ records, r.result.id.draw < st.draws
  increasing : records.Pairwise fun r r' => r.result.id.draw < r'.result.id.draw
  statusCounts : st.statusCounts = statusCount records
  frameworkCounts : frameworksTotal st.frameworkCounts = records.length
  noncompliantCount :
    st.noncompliantCount + statusCount records .compliant = records.length
  evidenceCount : st.evidenceCount = records.length

/-- The mappings and their index after some turns: what was there stays, and what was added has
the key of a record for which there was none. -/
structure Mapped (runId : ℕ) (db : AuditDb) (records : List Record) (st : Loop) : Prop where
  one : OnePerKey st.db.mappings
  index : Indexes st.mappingByKey st.db.mappings
  kept : ∀ m₀ ∈ db.mappings.rows, ∃ m ∈ st.db.mappings.rows, m.id = m₀.id ∧ m.key = m₀.key
  origin : ∀ m ∈ st.db.mappings.rows,
    (∃ m₀ ∈ db.mappings.rows, m₀.id = m.id ∧ m₀.key = m.key) ∨
    (m.id.run = runId ∧ m.key ∈ records.map (fun r => r.turn.key) ∧
      ∀ m₀ ∈ db.mappings.rows, m₀.key ≠ m.key)
  lineage : ∀ r ∈ records, ∃ m ∈ st.db.mappings.rows,
    m.key = r.turn.key ∧ m.status = r.result.status ∧ m.evidence = some r.mappingEvidence

theorem recorded_init (index : Key → Option Id) :
    Recorded P inputs runId db [] [] { db := db, mappingByKey := index } where
  runs := rfl
  results := by simp
  evidenceItems := by simp
  links := by simp
  turns := rfl
  made := by simp
  drawn := by simp
  increasing := .nil
  statusCounts := rfl
  frameworkCounts := rfl
  noncompliantCount := rfl
  evidenceCount := rfl

/-- A turn without its control adds no record. -/
theorem recorded_skip {before : List Turn} {records : List Record} {st : Loop} {t : Turn}
    (h : Recorded P inputs runId db before records st)
    (hnone : inputs.catalog.lookup (t.framework, t.controlId) = none) :
    Recorded P inputs runId db (before ++ [t]) records st :=
  { h with turns := by simp [h.turns, known, hnone] }

/-- A turn with a control adds its record. -/
theorem recorded_advance {before : List Turn} {records : List Record} {st : Loop} {t : Turn}
    {control : FrameworkControl} {catalog : FrameworkCatalog} {mappings : Mappings}
    {index : Key → Option Id} {alerts : Alerts}
    (h : Recorded P inputs runId db before records st)
    (hsome : inputs.catalog.lookup (t.framework, t.controlId) = some (control, catalog)) :
    Recorded P inputs runId db (before ++ [t])
      (records ++ [newRecord P runId st.draws inputs.now t control catalog])
      (st.advance (newRecord P runId st.draws inputs.now t control catalog)
        mappings index alerts) := by
  set r := newRecord P runId st.draws inputs.now t control catalog with hr
  have hmade : MadeBy P inputs runId r := ⟨⟨st.draws, rfl⟩, hsome⟩
  have hdraw : r.result.id.draw = st.draws := rfl
  constructor
  · exact h.runs
  · simp [Loop.advance, h.results]
  · simp [Loop.advance, h.evidenceItems]
  · simp [Loop.advance, h.links]
  · have hturn : r.turn = t := rfl
    simp [h.turns, known, hsome, hturn]
  · intro x hx
    rcases List.mem_append.mp hx with hx | hx
    · exact h.made x hx
    · rw [List.mem_singleton.mp hx]
      exact hmade
  · intro x hx
    have hnext : (st.advance r mappings index alerts).draws = st.draws + 4 := rfl
    rcases List.mem_append.mp hx with hx | hx
    · have hlt := h.drawn x hx
      omega
    · rw [List.mem_singleton.mp hx]
      omega
  · refine List.pairwise_append.mpr ⟨h.increasing, List.pairwise_singleton .., ?_⟩
    intro x hx y hy
    rw [List.mem_singleton.mp hy, hdraw]
    exact h.drawn x hx
  · simp only [Loop.advance, h.statusCounts]
    exact increment_statusCount records r
  · simp only [Loop.advance, frameworksTotal_increment, h.frameworkCounts, List.length_append,
      List.length_singleton]
  · have hcount := h.noncompliantCount
    simp only [Loop.advance, statusCount, List.countP_append, List.countP_singleton,
      List.length_append, List.length_singleton] at hcount ⊢
    by_cases hc : r.result.status = .compliant
    · simp only [hc, if_true, decide_true]
      omega
    · simp only [hc, if_false, decide_false, Bool.false_eq_true]
      omega
  · simp [Loop.advance, h.evidenceCount]

/-- A record keeps the mappings of the other turns and writes its own. -/
theorem mapped_advance {records : List Record} {st : Loop} {r : Record} {mappings : Mappings}
    {index : Key → Option Id} {alerts : Alerts} {id : Id} (h : Mapped runId db records st)
    (hid : id.run = runId) (hnew : ∀ r' ∈ records, r'.turn.key ≠ r.turn.key)
    (hwrite : writeMapping st.db.mappings st.mappingByKey id r = .ok (mappings, index)) :
    Mapped runId db (records ++ [r]) (st.advance r mappings index alerts) := by
  constructor
  · exact writeMapping_onePerKey hwrite h.index h.one
  · exact writeMapping_indexes hwrite h.index
  · intro m₀ hm₀
    obtain ⟨m, hm, hid, hkey⟩ := h.kept m₀ hm₀
    obtain ⟨m', hm', hid', hkey'⟩ := writeMapping_persist hwrite hm
    exact ⟨m', hm', hid'.trans hid, hkey'.trans hkey⟩
  · intro m hm
    rcases writeMapping_origin hwrite hm with ⟨m₁, hm₁, hmid, hmkey⟩ | ⟨hmid, hmkey, hnone⟩
    · rcases h.origin m₁ hm₁ with ⟨m₀, hm₀, hid₀, hkey₀⟩ | ⟨hrun, hrecord, hfree⟩
      · exact .inl ⟨m₀, hm₀, hid₀.trans hmid, hkey₀.trans hmkey⟩
      · refine .inr ⟨hmid ▸ hrun, ?_, hmkey ▸ hfree⟩
        rw [List.map_append, ← hmkey]
        exact List.mem_append_left _ hrecord
    · refine .inr ⟨by rw [hmid]; exact hid, by simp [hmkey], fun m₀ hm₀ hkey => ?_⟩
      obtain ⟨m₁, hm₁, -, hkey₁⟩ := h.kept m₀ hm₀
      have hsome := (h.index r.turn.key m₁.id).mpr ⟨m₁, hm₁, rfl, hkey₁.trans (hkey.trans hmkey)⟩
      rw [hnone] at hsome
      cases hsome
  · intro x hx
    rcases List.mem_append.mp hx with hx | hx
    · obtain ⟨m, hm, hkey, hrest⟩ := h.lineage x hx
      have hne : m.key ≠ r.turn.key := by
        rw [hkey]
        exact hnew x hx
      exact ⟨m, (writeMapping_frame hwrite h.index hne).mpr hm, hkey, hrest⟩
    · rw [List.mem_singleton.mp hx]
      exact writeMapping_written hwrite h.index

/-- The keys of the records lie among those of the turns. -/
theorem Recorded.keys_sublist {before : List Turn} {records : List Record} {st : Loop}
    (h : Recorded P inputs runId db before records st) :
    (records.map fun r => r.turn.key).Sublist (before.map Turn.key) := by
  have hkeys : (records.map fun r => r.turn.key) = (before.filter (known inputs)).map Turn.key := by
    rw [← h.turns, List.map_map]
    rfl
  rw [hkeys]
  exact List.filter_sublist.map Turn.key

/-- After the loop both invariants hold. -/
theorem auditLoop_recorded (hone : OnePerKey db.mappings) {st : Loop}
    (h : auditLoop P inputs runId db = .ok st) : ∃ records,
      Recorded P inputs runId db (turns inputs.assets.rows) records st ∧
        Mapped runId db records st := by
  refine foldlM_invariant (fun before st => ∃ records,
    Recorded P inputs runId db before records st ∧ Mapped runId db records st) ?_ ?_ h
  · rintro before t after st st' hturns ⟨records, hrecorded, hmapped⟩ hstep
    rcases assessControl_ok hstep with ⟨hnone, rfl⟩ |
      ⟨control, catalog, mappings, index, alerts, hsome, hmapping, -, rfl⟩
    · exact ⟨records, recorded_skip hrecorded hnone, hmapped⟩
    · have hnodup := turns_nodup inputs.assets
      rw [hturns, List.map_append, List.map_cons, List.nodup_append] at hnodup
      have hnew : ∀ r' ∈ records, r'.turn.key ≠ t.key := by
        intro r' hr'
        have hbefore := hrecorded.keys_sublist.subset
          (List.mem_map_of_mem (f := fun r : Record => r.turn.key) hr')
        exact hnodup.2.2 _ hbefore _ List.mem_cons_self
      exact ⟨_, recorded_advance hrecorded hsome, mapped_advance hmapped rfl hnew hmapping⟩
  · refine ⟨[], recorded_init _, hone, mappingIndex_indexes hone, ?_, ?_, by simp⟩
    · exact fun m hm => ⟨m, hm, rfl, rfl⟩
    · exact fun m hm => .inl ⟨m, hm, rfl, rfl⟩

/-! ## Completion -/

/-- The titles that a turn may store fit their columns. -/
def TitlesFit (t : Turn) : Prop := t.evidenceTitle.length ≤ 255 ∧ t.gapTitle.length ≤ 255

instance (t : Turn) : Decidable (TitlesFit t) := inferInstanceAs (Decidable (_ ∧ _))

theorem length_append_parts (start framework sep control on name : String) :
    (start ++ framework ++ sep ++ control ++ on ++ name).length = start.length +
      framework.length + sep.length + control.length + on.length + name.length := by
  simp only [String.length_append]

theorem label_length : ∀ l ∈ labels, l.1.length + l.2.length ≤ 15 := by decide

/-- Names of at most 219 characters are short enough. -/
theorem titlesFit_of_name {assets : List AssessedAsset} {t : Turn} (ht : t ∈ turns assets)
    (hname : t.asset.name.length ≤ 219) : TitlesFit t := by
  have hlabel := label_length _ (label_of_mem_turns ht)
  dsimp only at hlabel
  have hspace : " ".length = 1 := by decide
  have hfor : " evidence for ".length = 14 := by decide
  have hgap : "Compliance gap: ".length = 16 := by decide
  have hon : " on ".length = 4 := by decide
  have hevidence : t.evidenceTitle.length =
      t.framework.length + " ".length + t.controlId.length + " evidence for ".length +
        t.asset.name.length := by
    simp only [Turn.evidenceTitle, String.length_append]
  have htitle : t.gapTitle.length = "Compliance gap: ".length + t.framework.length + " ".length +
      t.controlId.length + " on ".length + t.asset.name.length := length_append_parts ..
  rw [hspace, hfor] at hevidence
  rw [hgap, hspace, hon] at htitle
  unfold TitlesFit
  omega

/-- The identifiers of the run are drawn in order. -/
structure Drawn (runId : ℕ) (st : Loop) : Prop where
  mappings : ∀ m ∈ st.db.mappings.rows, m.id.run = runId → m.id.draw < st.draws
  alerts : ∀ x ∈ st.db.alerts.rows, x.id.run = runId → x.id.draw < st.draws

theorem drawn_advance {st : Loop} {r : Record} {mappings : Mappings} {index : Key → Option Id}
    {alerts : Alerts} (h : Drawn runId st)
    (hmapping : writeMapping st.db.mappings st.mappingByKey ⟨runId, st.draws + 2⟩ r =
      .ok (mappings, index))
    (halert : writeAlert st.db.alerts ⟨runId, st.draws + 3⟩ r = .ok alerts) :
    Drawn runId (st.advance r mappings index alerts) := by
  have hnext : (st.advance r mappings index alerts).draws = st.draws + 4 := rfl
  constructor
  · intro m hm hrun
    rcases writeMapping_origin hmapping hm with ⟨m₀, hm₀, hid, -⟩ | ⟨hid, -, -⟩
    · have hlt := h.mappings m₀ hm₀ (hid ▸ hrun)
      rw [hid] at hlt
      omega
    · rw [hid, hnext]
      show st.draws + 2 < st.draws + 4
      omega
  · intro x hx hrun
    rcases writeAlert_origin halert hx with ⟨x₀, hx₀, hid, -, -⟩ | ⟨hid, -, -⟩
    · have hlt := h.alerts x₀ hx₀ (hid ▸ hrun)
      rw [hid] at hlt
      omega
    · rw [hid, hnext]
      show st.draws + 3 < st.draws + 4
      omega

theorem ne_of_drawn {id : Id} {n k : ℕ} (h : id.run = runId → id.draw < n) :
    id ≠ ⟨runId, n + k⟩ := by
  rintro rfl
  have hlt : n + k < n := h rfl
  omega

/-- A turn whose titles fit goes through. -/
theorem assessControl_total {st : Loop} {t : Turn} (hdrawn : Drawn runId st) (hfit : TitlesFit t) :
    ∃ st', assessControl P inputs runId st t = .ok st' ∧ Drawn runId st' := by
  have hgo : ∃ st', assessControl P inputs runId st t = .ok st' := by
    unfold assessControl
    split
    · exact ⟨st, rfl⟩
    · rename_i control catalog _
      have hmappings : ∀ m ∈ st.db.mappings.rows, m.id ≠ ⟨runId, st.draws + 2⟩ :=
        fun m hm => ne_of_drawn (hdrawn.mappings m hm)
      have halerts : ∀ x ∈ st.db.alerts.rows, x.id ≠ ⟨runId, st.draws + 3⟩ :=
        fun x hx => ne_of_drawn (hdrawn.alerts x hx)
      have hgap : (newRecord P runId st.draws inputs.now t control catalog).turn.gapTitle.length ≤
          255 := hfit.2
      obtain ⟨mappings, index, hmapping⟩ :
          ∃ mappings index, writeMapping st.db.mappings st.mappingByKey ⟨runId, st.draws + 2⟩
            (newRecord P runId st.draws inputs.now t control catalog) = .ok (mappings, index) :=
        writeMapping_total hmappings
      obtain ⟨alerts, halert⟩ := writeAlert_total halerts hgap
      have htitle : bindTitle
          (newRecord P runId st.draws inputs.now t control catalog).evidence.title = .ok () :=
        if_neg (Nat.not_lt.mpr hfit.1)
      simp only [htitle, hmapping, halert, ok_bind, pure_eq_ok]
      exact ⟨_, rfl⟩
  obtain ⟨st', hst'⟩ := hgo
  refine ⟨st', hst', ?_⟩
  rcases assessControl_ok hst' with ⟨-, rfl⟩ | ⟨control, catalog, mappings, index, alerts, -,
    hmapping, halert, rfl⟩
  · exact hdrawn
  · exact drawn_advance hdrawn hmapping halert

/-- Every identifier was drawn by an earlier run. -/
structure DrawnBelow (n : ℕ) (db : AuditDb) : Prop where
  results : ∀ r ∈ db.results, r.runId < n
  mappings : ∀ m ∈ db.mappings.rows, m.id.run < n
  alerts : ∀ x ∈ db.alerts.rows, x.id.run < n

theorem drawnBelow_empty : DrawnBelow 0 AuditDb.empty where
  results _ h := absurd h List.not_mem_nil
  mappings _ h := absurd h List.not_mem_nil
  alerts _ h := absurd h List.not_mem_nil

theorem DrawnBelow.mono {n n' : ℕ} (h : DrawnBelow n db) (hle : n ≤ n') : DrawnBelow n' db where
  results r hr := (h.results r hr).trans_le hle
  mappings m hm := (h.mappings m hm).trans_le hle
  alerts x hx := (h.alerts x hx).trans_le hle

/-- An audit completes if its titles fit. -/
theorem auditLoop_total (hdrawn : DrawnBelow runId db)
    (hfit : ∀ t ∈ turns inputs.assets.rows, TitlesFit t) :
    ∃ st, auditLoop P inputs runId db = .ok st := by
  have hstart : Drawn runId { db := db, mappingByKey := mappingIndex db.mappings } := by
    constructor
    · intro m hm hrun
      exact absurd hrun (hdrawn.mappings m hm).ne
    · intro x hx hrun
      exact absurd hrun (hdrawn.alerts x hx).ne
  have hturn : ∀ before t after st, turns inputs.assets.rows = before ++ t :: after →
      Drawn runId st → ∃ st', assessControl P inputs runId st t = .ok st' ∧ Drawn runId st' := by
    intro before t after st hturns hst
    exact assessControl_total hst (hfit t (by simp [hturns]))
  obtain ⟨st, h, -⟩ := foldlM_total (fun _ st => Drawn runId st) hturn hstart
  exact ⟨st, h⟩

theorem auditLoop_drawnBelow (hdrawn : DrawnBelow runId db) {st : Loop}
    (h : auditLoop P inputs runId db = .ok st) : DrawnBelow (runId + 1) st.db := by
  refine foldlM_invariant (fun _ st => DrawnBelow (runId + 1) st.db) ?_
    (hdrawn.mono (Nat.le_succ runId)) h
  intro before t after s s' _ hs hstep
  rcases assessControl_ok hstep with ⟨-, rfl⟩ | ⟨control, catalog, mappings, index, alerts, -,
    hmapping, halert, rfl⟩
  · exact hs
  · constructor
    · intro r hr
      rcases List.mem_append.mp hr with hr | hr
      · exact hs.results r hr
      · rw [List.mem_singleton.mp hr]
        exact Nat.lt_succ_self runId
    · intro m hm
      rcases writeMapping_origin hmapping hm with ⟨m₀, hm₀, hid, -⟩ | ⟨hid, -, -⟩
      · exact hid ▸ hs.mappings m₀ hm₀
      · rw [hid]
        exact Nat.lt_succ_self runId
    · intro x hx
      rcases writeAlert_origin halert hx with ⟨x₀, hx₀, hid, -, -⟩ | ⟨hid, -, -⟩
      · exact hid ▸ hs.alerts x₀ hx₀
      · rw [hid]
        exact Nat.lt_succ_self runId

/-- What a completed audit is made of. -/
theorem runAudit_ok {db' : AuditDb} (h : runAudit P inputs runId db = .ok db') :
    ∃ st, auditLoop P inputs runId db = .ok st ∧
      db' = { st.db with runs := st.db.runs ++ [completedRun P inputs runId st] } := by
  obtain ⟨st, hst, h⟩ := bind_eq_ok.mp h
  cases h
  exact ⟨st, hst, rfl⟩

/-- The rows of an audit carry identifiers of its run or earlier ones. -/
theorem runAudit_drawnBelow (hdrawn : DrawnBelow runId db) {db' : AuditDb}
    (h : runAudit P inputs runId db = .ok db') : DrawnBelow (runId + 1) db' := by
  obtain ⟨st, hst, rfl⟩ := runAudit_ok h
  have hloop := auditLoop_drawnBelow hdrawn hst
  exact ⟨hloop.results, hloop.mappings, hloop.alerts⟩

/-! ## Runs of audits -/

/-- The rows of a database whose results meet `p`, and the links of these. -/
def keepResults (db : AuditDb) (p : AssessmentResult → Bool) : AuditDb :=
  { db with
    results := db.results.filter p
    links := db.links.filter fun l => (db.results.filter p).any fun r => r.id = l.resultId }

/-- What the foreign keys do when only the assets `ids` stay. -/
def keepAssets (db : AuditDb) (ids : List ℕ) : AuditDb :=
  { keepResults db fun r => r.assetId ∈ ids with
    mappings := db.mappings.delete fun m => m.assetId ∉ ids
    alerts := db.alerts.mapRows
      (fun x => if x.assetId.any (· ∉ ids) then { x with assetId := none } else x)
      fun x => by split <;> rfl }

/-- The inventory, the frameworks and the tables of the audits. -/
structure System where
  assets : Table fun a : AssessedAsset => a.id
  catalog : CatalogRows
  db : AuditDb
  nextRun : ℕ
  drawn : DrawnBelow nextRun db

/-- An audit, or a change of the inventory or of the frameworks between two audits. -/
inductive Event where
  | audit (now finished : Time) (initiatedBy : String)
  | inventory (assets : Table fun a : AssessedAsset => a.id)
  | frameworks (catalog : CatalogRows)

/-- What the next audit reads. -/
def System.reads (s : System) (now finished : Time) (initiatedBy : String) : Inputs :=
  ⟨s.assets, s.catalog, now, finished, initiatedBy⟩

theorem keepResults_drawn {n : ℕ} (h : DrawnBelow n db) (p : AssessmentResult → Bool) :
    DrawnBelow n (keepResults db p) where
  results r hr := h.results r (List.mem_filter.mp hr).1
  mappings := h.mappings
  alerts := h.alerts

theorem keepAssets_drawn {n : ℕ} (h : DrawnBelow n db) (ids : List ℕ) :
    DrawnBelow n (keepAssets db ids) where
  results := (keepResults_drawn h _).results
  mappings m hm := h.mappings m (Table.mem_delete.mp hm).1
  alerts x hx := by
    obtain ⟨x₀, hx₀, rfl⟩ := List.mem_map.mp hx
    split
    · exact h.alerts x₀ hx₀
    · exact h.alerts x₀ hx₀

/-- One event. An audit that raises is rolled back. -/
def step (P : Primitives) (s : System) : Event → System
  | .audit now finished initiatedBy =>
    match h : runAudit P (s.reads now finished initiatedBy) s.nextRun s.db with
    | .ok db' => ⟨s.assets, s.catalog, db', s.nextRun + 1, runAudit_drawnBelow s.drawn h⟩
    | .error _ => ⟨s.assets, s.catalog, s.db, s.nextRun + 1, s.drawn.mono (Nat.le_succ _)⟩
  | .inventory assets =>
    ⟨assets, s.catalog, keepAssets s.db (assets.rows.map fun a => a.id), s.nextRun,
      keepAssets_drawn s.drawn _⟩
  | .frameworks catalog =>
    let ids := catalog.controls.rows.map fun c => c.id
    ⟨s.assets, catalog, keepResults s.db fun r => r.controlId ∈ ids, s.nextRun,
      keepResults_drawn s.drawn _⟩

theorem step_onePerKey {s : System} (h : OnePerKey s.db.mappings) (e : Event) :
    OnePerKey (step P s e).db.mappings := by
  cases e with
  | audit now finished initiatedBy =>
    simp only [step]
    split
    · rename_i db' hrun
      obtain ⟨st, hst, rfl⟩ := runAudit_ok hrun
      obtain ⟨records, -, hmapped⟩ := auditLoop_recorded h hst
      exact hmapped.one
    · exact h
  | inventory assets =>
    intro m hm m' hm' hkey
    exact h m (Table.mem_delete.mp hm).1 m' (Table.mem_delete.mp hm').1 hkey
  | frameworks catalog => exact h

/-! ## The complete record -/

/-- The pairs that an audit assesses. -/
def Assessed (inputs : Inputs) (key : Key) : Prop :=
  (∃ a ∈ inputs.assets.rows, a.id = key.2.2) ∧ (key.1, key.2.1) ∈ labels ∧
    inputs.catalog.Present (key.1, key.2.1)

/-- The three rows of an assessment belong together and to the pair. -/
structure Lineage (inputs : Inputs) (runId : ℕ) (r : Record) : Prop where
  run : r.result.runId = runId
  asset : r.turn.asset ∈ inputs.assets.rows ∧ r.result.assetId = r.turn.asset.id
  control : r.control ∈ inputs.catalog.controls.rows ∧ r.result.controlId = r.control.id ∧
    r.control.controlId = r.turn.controlId
  catalog : r.catalog ∈ inputs.catalog.catalogs.rows ∧ r.control.catalogId = r.catalog.id ∧
    r.catalog.active = true ∧ r.catalog.code = r.turn.framework
  evidence : r.evidence.sourceRef = "asset:" ++ toString r.turn.asset.id ∧
    r.evidence.framework = r.turn.framework ∧ r.evidence.controlId = r.turn.controlId
  link : r.link = ⟨r.result.id, r.evidence.id⟩

/-- The counts of a summary agree with each other and with the rows of the run. -/
structure Consistent (summary : Summary) (stored : ℕ) : Prop where
  statuses : summary.results = total summary.statusCounts
  evidenceItems : summary.results = summary.evidenceItems
  frameworks : summary.results = (summary.frameworks.map fun p => p.2.total).sum
  results : summary.results = stored
  noncompliant : summary.noncompliantResults = summary.results - summary.statusCounts .compliant

/-- The audit that led from `db` to `db'` left the rows of `records` and the summary of `run`. -/
structure Complete (inputs : Inputs) (runId : ℕ) (db db' : AuditDb) (records : List Record)
    (run : AssessmentRun) : Prop where
  runs : db'.runs = db.runs ++ [run] ∧ run.id = runId
  results : db'.results = db.results ++ records.map Record.result
  evidenceItems : db'.evidenceItems = db.evidenceItems ++ records.map Record.evidence
  links : db'.links = db.links ++ records.map Record.link
  result_ids : (records.map fun r => r.result.id).Nodup
  evidence_ids : (records.map fun r => r.evidence.id).Nodup
  keys : (records.map fun r => r.turn.key).Nodup
  pairs : ∀ key, key ∈ (records.map fun r => r.turn.key) ↔ Assessed inputs key
  lineage : ∀ r ∈ records, Lineage inputs runId r
  summary : Consistent run.summary (db'.results.countP fun r => r.runId = runId)
  mappings : ∀ r ∈ records, ∃ m e, (db'.mappings.rows.filter fun m => m.key = r.turn.key) = [m] ∧
    m.status = r.result.status ∧ m.evidence = some e ∧ e.assessmentResultId = r.result.id ∧
    e.evidenceId = r.evidence.id

theorem mem_filter_known {t : Turn} :
    t ∈ (turns inputs.assets.rows).filter (known inputs) ↔
      t ∈ turns inputs.assets.rows ∧ inputs.catalog.Present (t.framework, t.controlId) := by
  rw [List.mem_filter, known, inputs.catalog.lookup_isSome]

/-- The pairs of an audit are the keys of its turns whose control is present. -/
theorem assessed_iff {key : Key} : Assessed inputs key ↔
    ∃ t ∈ (turns inputs.assets.rows).filter (known inputs), t.key = key := by
  obtain ⟨framework, controlId, assetId⟩ := key
  constructor
  · rintro ⟨⟨a, ha, hid⟩, hlabel, hpresent⟩
    obtain ⟨⟨f, c, rule⟩, hc, heq⟩ := List.mem_map.mp hlabel
    cases heq
    refine ⟨⟨a, framework, controlId, rule⟩, ?_, ?_⟩
    · exact mem_filter_known.mpr ⟨mem_turns.mpr ⟨ha, hc⟩, hpresent⟩
    · exact congrArg (fun id => (framework, controlId, id)) hid
  · rintro ⟨t, ht, heq⟩
    cases heq
    obtain ⟨hturn, hpresent⟩ := mem_filter_known.mp ht
    exact ⟨⟨t.asset, (mem_turns.mp hturn).1, rfl⟩, label_of_mem_turns hturn, hpresent⟩

/-- The keys of the records of a loop are the assessed pairs. -/
theorem mem_keys_iff_assessed {records : List Record} {st : Loop}
    (h : Recorded P inputs runId db (turns inputs.assets.rows) records st) (key : Key) :
    key ∈ (records.map fun r => r.turn.key) ↔ Assessed inputs key := by
  rw [assessed_iff, ← h.turns]
  simp only [List.mem_map, exists_exists_and_eq_and]

theorem MadeBy.lineage {r : Record} (h : MadeBy P inputs runId r)
    (hturn : r.turn ∈ turns inputs.assets.rows) : Lineage inputs runId r := by
  obtain ⟨⟨draws, hr⟩, hlookup⟩ := h
  obtain ⟨hjoined, hcode, hcontrol⟩ := inputs.catalog.lookup_some hlookup
  obtain ⟨hcontrols, hcatalogs, hactive, hid⟩ := inputs.catalog.mem_joined.mp hjoined
  constructor
  · rw [hr]
    rfl
  · exact ⟨(mem_turns.mp hturn).1, by rw [hr]; rfl⟩
  · exact ⟨hcontrols, by rw [hr]; rfl, hcontrol⟩
  · exact ⟨hcatalogs, hid, hactive, hcode⟩
  · rw [hr]
    exact ⟨rfl, rfl, rfl⟩
  · rw [hr]
    rfl

/-- The rows of the run are those of its records. -/
theorem Recorded.stored {before : List Turn} {records : List Record} {st : Loop}
    (h : Recorded P inputs runId db before records st) (hdrawn : DrawnBelow runId db) :
    (st.db.results.countP fun r => r.runId = runId) = records.length := by
  have hold : (db.results.countP fun r => r.runId = runId) = 0 := by
    refine List.countP_eq_zero.mpr fun r hr => ?_
    have hlt := hdrawn.results r hr
    simpa using hlt.ne
  have hnew : ((records.map Record.result).countP fun r => r.runId = runId) = records.length := by
    rw [← List.length_map Record.result]
    refine List.countP_eq_length.mpr fun result hresult => ?_
    obtain ⟨r, hr, rfl⟩ := List.mem_map.mp hresult
    obtain ⟨⟨draws, hmade⟩, -⟩ := h.made r hr
    rw [hmade]
    simp [newRecord]
  rw [h.results, List.countP_append, hold, hnew, Nat.zero_add]

theorem Recorded.consistent {before : List Turn} {records : List Record} {st : Loop}
    (h : Recorded P inputs runId db before records st) (assets : ℕ) :
    Consistent (summary P assets st) records.length := by
  have htotal : total st.statusCounts = records.length := by
    rw [h.statusCounts, total_statusCount]
  constructor
  · rfl
  · exact htotal.trans h.evidenceCount.symm
  · refine htotal.trans (h.frameworkCounts.symm.trans ?_)
    simp only [frameworksTotal, summary, List.map_map]
    rfl
  · exact htotal
  · show st.noncompliantCount = total st.statusCounts - st.statusCounts .compliant
    have hcount := h.noncompliantCount
    rw [htotal, h.statusCounts]
    omega

theorem Recorded.ids_nodup {before : List Turn} {records : List Record} {st : Loop}
    (h : Recorded P inputs runId db before records st) :
    (records.map fun r => r.result.id).Nodup ∧ (records.map fun r => r.evidence.id).Nodup := by
  have hdraw : ∀ r ∈ records, r.evidence.id.draw = r.result.id.draw + 1 := by
    intro r hr
    obtain ⟨⟨draws, hmade⟩, -⟩ := h.made r hr
    rw [hmade]
    rfl
  constructor
  · refine List.pairwise_map.mpr (h.increasing.imp fun {r r'} hlt heq => ?_)
    rw [heq] at hlt
    exact lt_irrefl _ hlt
  · refine List.pairwise_map.mpr (h.increasing.imp_of_mem fun {r r'} hr hr' hlt heq => ?_)
    have hsame := congrArg Id.draw heq
    rw [hdraw r hr, hdraw r' hr'] at hsame
    omega

/-- A completed audit of a table with one mapping for each key leaves a complete record. -/
theorem runAudit_complete (hone : OnePerKey db.mappings) (hdrawn : DrawnBelow runId db)
    {db' : AuditDb} (h : runAudit P inputs runId db = .ok db') :
    ∃ records run, Complete inputs runId db db' records run := by
  obtain ⟨st, hst, rfl⟩ := runAudit_ok h
  obtain ⟨records, hrecorded, hmapped⟩ := auditLoop_recorded hone hst
  have hturns : ∀ r ∈ records, r.turn ∈ turns inputs.assets.rows := by
    intro r hr
    have hmem := List.mem_map_of_mem (f := Record.turn) hr
    rw [hrecorded.turns] at hmem
    exact (List.mem_filter.mp hmem).1
  refine ⟨records, completedRun P inputs runId st, ?_⟩
  constructor
  · exact ⟨by rw [hrecorded.runs], rfl⟩
  · exact hrecorded.results
  · exact hrecorded.evidenceItems
  · exact hrecorded.links
  · exact hrecorded.ids_nodup.1
  · exact hrecorded.ids_nodup.2
  · exact hrecorded.keys_sublist.nodup (turns_nodup inputs.assets)
  · exact mem_keys_iff_assessed hrecorded
  · intro r hr
    exact (hrecorded.made r hr).lineage (hturns r hr)
  · have hstored := hrecorded.stored hdrawn
    show Consistent (summary P _ st) (st.db.results.countP fun r => r.runId = runId)
    rw [hstored]
    exact hrecorded.consistent _
  · intro r hr
    obtain ⟨m, hm, hkey, hstatus, hevidence⟩ := hmapped.lineage r hr
    have honly : (st.db.mappings.rows.filter fun m => m.key = r.turn.key) = [m] :=
      Table.filter_eq_singleton hm (by simpa using hkey) fun m' hm' hkey' =>
        hmapped.one m' hm' m hm ((of_decide_eq_true hkey').trans hkey.symm)
    exact ⟨m, r.mappingEvidence, honly, hstatus, hevidence, rfl, rfl⟩

/-- One audit, one complete record: whatever audits and changes of the inventory and of the
frameworks went before, from a table with one mapping for each key. -/
theorem audit_leaves_complete_record (P : Primitives) (s : System) (hone : OnePerKey s.db.mappings)
    (events : List Event) (now finished : Time) (initiatedBy : String)
    (hfits : ∀ t ∈ turns (run (step P) s events).assets.rows, TitlesFit t) :
    ∃ records assessment,
      Complete ((run (step P) s events).reads now finished initiatedBy)
        (run (step P) s events).nextRun (run (step P) s events).db
        (step P (run (step P) s events) (.audit now finished initiatedBy)).db
        records assessment := by
  have hunique : OnePerKey (run (step P) s events).db.mappings :=
    run_invariant (fun s : System => OnePerKey s.db.mappings)
      (fun _ e h => step_onePerKey h e) hone events
  set s' := run (step P) s events
  obtain ⟨st, hst⟩ : ∃ st, auditLoop P (s'.reads now finished initiatedBy) s'.nextRun s'.db =
      .ok st := auditLoop_total s'.drawn hfits
  have hrun : runAudit P (s'.reads now finished initiatedBy) s'.nextRun s'.db =
      .ok { st.db with runs := st.db.runs ++
        [completedRun P (s'.reads now finished initiatedBy) s'.nextRun st] } := by
    unfold runAudit
    rw [hst]
    rfl
  have hstep : (step P s' (.audit now finished initiatedBy)).db =
      { st.db with runs := st.db.runs ++
        [completedRun P (s'.reads now finished initiatedBy) s'.nextRun st] } := by
    simp only [step]
    split
    · rename_i db' h
      rw [hrun] at h
      exact (Except.ok.inj h).symm
    · rename_i e h
      rw [hrun] at h
      cases h
  rw [hstep]
  exact runAudit_complete hunique s'.drawn hrun

/-! ## A first audit -/

/-- A hash that is never looked at, and no rounding. -/
def Primitives.plain : Primitives := ⟨fun _ => "", .exact⟩

theorem onePerKey_empty : OnePerKey AuditDb.empty.mappings := fun _ h => absurd h List.not_mem_nil

/-- Nothing is known and nothing was audited. -/
def System.empty : System where
  assets := .empty
  catalog := ⟨.empty, .empty, .nil, .nil, List.forall_mem_nil _⟩
  db := .empty
  nextRun := 0
  drawn := drawnBelow_empty

/-- A database server of high criticality without a software inventory. -/
def server : AssessedAsset where
  id := 1
  name := "db-01"
  type := "Database Server"
  os := some "Linux"
  ip := some "10.0.0.1"
  mac := none
  segment := none
  edrStatus := none
  controlCoverage := "none"
  networkExposure := "internal"
  authMethod := "password"
  criticality := "high"
  dataClassification := "Internal"
  dependencies := some []
  softwareStack := some []
  cpe := some []
  eolStatus := false
  riskScore := 0
  riskTier := .informational
  riskBreakdown := none
  firstSeen := 0
  lastSeen := 0
  isShadow := false
  isStale := false
  tags := some []
  attrs := none
  sources := some ["manual"]
  lastPatch := none

def inventory : Table fun a : AssessedAsset => a.id := ⟨[server], by decide⟩

/-- Two active versions of one framework, both with the control 2.1. -/
def frameworks : CatalogRows where
  catalogs := ⟨[⟨1, "cis-v8", "8.0", true⟩, ⟨2, "cis-v8", "8.1", true⟩], by decide⟩
  controls := ⟨[⟨1, 1, "2.1", 0⟩, ⟨2, 2, "2.1", 0⟩], by decide⟩
  catalogs_unique := by decide
  controls_unique := by decide
  references := by decide

theorem first_audit_complete :
    ∃ records assessment,
      Complete ⟨inventory, frameworks, 5, 6, "admin"⟩ 0 AuditDb.empty
        (step Primitives.plain ⟨inventory, frameworks, .empty, 0, drawnBelow_empty⟩
          (.audit 5 6 "admin")).db records assessment :=
  audit_leaves_complete_record Primitives.plain System.empty onePerKey_empty
    [.inventory inventory, .frameworks frameworks] 5 6 "admin" fun t ht =>
      titlesFit_of_name ht (by
        have hasset : t.asset = server := List.mem_singleton.mp (mem_turns.mp ht).1
        rw [hasset]
        decide)

end Kepryx.AuditRecord
