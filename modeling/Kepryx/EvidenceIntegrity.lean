import Kepryx.CanonicalJson
import Kepryx.EvidenceLineage

/-!
# The hash of an evidence item

An audit hashes the canonical text of what it observed and stores the hash beside the document.
The database gives a document back with its members in another order, and audits overlap with one
another and with changes of the inventory. After any history the stored hash fits what is stored
beside it and nothing else, and every row that refers to evidence repeats a stored item.
-/
namespace Kepryx.EvidenceIntegrity
open Kepryx.Models Kepryx.Tables Kepryx.Results Kepryx.Runs Kepryx.UnitOfWork Kepryx.JsonText
open Kepryx.SnapshotCommits Kepryx.CompliancePercentages Kepryx.ComplianceCatalog
open Kepryx.ComplianceAudit Kepryx.AuditLoop Kepryx.EvidenceLineage
open Kepryx.AuditRecord (runAudit_ok keepResults keepAssets)
open Kepryx.ConcurrentAudits (Pending commitAudit mergeMapping mergeAlert mergeMapping_id
  mergeAlert_id)

/-! ## The canonical text -/

def observationJson : Observation → Json
  | .null => .null
  | .bool b => .bool b
  | .text s => .str s
  | .list xs => .arr (xs.map .str)

def observedJson (observed : Observed) : Json :=
  .obj (observed.map fun p => (p.1, observationJson p.2))

/-- `json.dumps(observed, sort_keys=True, separators=(",", ":"), ensure_ascii=True)` -/
def canonicalOptions : DumpOptions where
  itemSeparator := ","
  keySeparator := ":"
  sortKeys := true
  ensureAscii := true

theorem canonicalOptions_readable : canonicalOptions.Readable :=
  ⟨⟨[], [], rfl, white_nil, white_nil⟩, ⟨[], [], rfl, white_nil, white_nil⟩⟩

/-- `_integrity_hash` -/
def integrityHash (sha256 : List Char → String) (observed : Observed) : String :=
  sha256 ((observedJson observed).dumps canonicalOptions)

theorem wellFormed_observationJson (o : Observation) : WellFormed (observationJson o) := by
  cases o with
  | null => exact .null
  | bool b => exact .bool b
  | text s => exact .str s
  | list xs =>
    refine .arr _ fun e he => ?_
    obtain ⟨s, -, rfl⟩ := List.mem_map.mp he
    exact .str s

/-- No rule of the catalog names a column twice. -/
theorem evidenceFields_nodup :
    ∀ c ∈ catalogControls, (c.2.2.evidenceFields.map Column.text).Nodup := by decide

theorem wellFormed_observe {c : String × String × ControlRule} (hc : c ∈ catalogControls)
    (a : AssessedAsset) : WellFormed (observedJson (observe c.2.2 a)) := by
  refine .obj _ ?_ fun m hm => ?_
  · simp only [observe, List.map_map]
    exact evidenceFields_nodup c hc
  · obtain ⟨p, -, rfl⟩ := List.mem_map.mp hm
    exact wellFormed_observationJson p.2

/-! ## What refers to an evidence item -/

/-- The item is what an audit observed of an asset for a control of the catalog. -/
def Observes (P : Primitives) (item : EvidenceItem) : Prop :=
  ∃ c ∈ catalogControls, ∃ a, item.framework = c.1 ∧ item.controlId = c.2.1 ∧
    item.sourceRef = "asset:" ++ toString a.id ∧ item.observed = observe c.2.2 a ∧
    item.integritySha256 = P.integrityHash item.observed

/-- The document of a mapping repeats the item, which is about the same framework, control and
asset. -/
structure Backs (item : EvidenceItem) (key : Key) (e : MappingEvidence) : Prop where
  id : item.id = e.evidenceId
  framework : item.framework = key.1
  control : item.controlId = key.2.1
  asset : item.sourceRef = "asset:" ++ toString key.2.2
  description : item.description = e.payload.description
  observed : item.observed = e.payload.observed
  hash : item.integritySha256 = e.integritySha256

/-- The details of an alert repeat the item. -/
structure Explains (item : EvidenceItem) (d : GapDetails) : Prop where
  id : item.id = d.evidenceId
  framework : item.framework = d.framework
  control : item.controlId = d.control
  description : item.description = d.evidence.description
  observed : item.observed = d.evidence.observed

/-- The item belongs to the result and is about its asset. -/
structure Supports (item : EvidenceItem) (r : AssessmentResult) : Prop where
  id : item.id = evidenceOf r.id
  asset : item.sourceRef = "asset:" ++ toString r.assetId

/-- Every item was observed, and every row that refers to evidence has its item. -/
structure Documented (P : Primitives) (db : AuditDb) : Prop where
  items : ∀ item ∈ db.evidenceItems, Observes P item
  mappings : ∀ m ∈ db.mappings.rows, ∀ e, m.evidence = some e →
    ∃ item ∈ db.evidenceItems, Backs item m.key e
  alerts : ∀ x ∈ db.alerts.rows, ∃ item ∈ db.evidenceItems, Explains item x.details
  results : ∀ r ∈ db.results, ∃ item ∈ db.evidenceItems, Supports item r

/-- What the index knows is a mapping of the key. -/
def Points (index : Key → Option Id) (mappings : Mappings) : Prop :=
  ∀ key id, index key = some id → ∃ m ∈ mappings.rows, m.id = id ∧ m.key = key

theorem points_mappingIndex (mappings : Mappings) : Points (mappingIndex mappings) mappings := by
  intro key id h
  obtain ⟨m, hm, hid⟩ := Option.map_eq_some_iff.mp h
  exact ⟨m, List.mem_reverse.mp (List.mem_of_find?_eq_some hm), hid,
    by simpa using List.find?_some hm⟩

section Turn
variable {P : Primitives} {inputs : Inputs} {runId draws : ℕ} {now : Time} {t : Turn}
  {control : FrameworkControl} {catalog : FrameworkCatalog}

theorem points_writeMapping {mappings mappings' : Mappings} {index index' : Key → Option Id}
    {id : Id} {r : Record} (hindex : Points index mappings)
    (h : writeMapping mappings index id r = .ok (mappings', index')) :
    Points index' mappings' := by
  have hold : ∀ key known, index key = some known →
      ∃ m ∈ mappings'.rows, m.id = known ∧ m.key = key := by
    intro key known hknown
    obtain ⟨m, hm, hid, hkey⟩ := hindex key known hknown
    obtain ⟨m', hm', hid', hkey'⟩ := writeMapping_persist h hm
    exact ⟨m', hm', hid'.trans hid, hkey'.trans hkey⟩
  rcases writeMapping_cases h with ⟨known, -, rfl, -⟩ | ⟨-, rfl, hrows⟩
  · exact hold
  · intro key id' hid'
    by_cases hkey : key = r.turn.key
    · subst hkey
      rw [Function.update_self] at hid'
      refine ⟨r.newMapping id, ?_, Option.some.inj hid', rfl⟩
      rw [hrows]
      exact List.mem_append_right _ (List.mem_singleton.mpr rfl)
    · rw [Function.update_of_ne hkey] at hid'
      exact hold key id' hid'

theorem backs_record {key : Key} (hkey : key = t.key) :
    Backs (newRecord P runId draws now t control catalog).evidence key
      (newRecord P runId draws now t control catalog).mappingEvidence := by
  subst hkey
  exact ⟨rfl, rfl, rfl, rfl, rfl, rfl, rfl⟩

/-- The mapping of the turn repeats the new item, the others what they did. -/
theorem backs_writeMapping {items : List EvidenceItem} {mappings mappings' : Mappings}
    {index index' : Key → Option Id} {id : Id} (hindex : Points index mappings)
    (hold : ∀ m ∈ mappings.rows, ∀ e, m.evidence = some e → ∃ item ∈ items, Backs item m.key e)
    (h : writeMapping mappings index id (newRecord P runId draws now t control catalog) =
      .ok (mappings', index')) :
    ∀ m ∈ mappings'.rows, ∀ e, m.evidence = some e →
      ∃ item ∈ items ++ [(newRecord P runId draws now t control catalog).evidence],
        Backs item m.key e := by
  have hkept : ∀ m ∈ mappings.rows, ∀ e, m.evidence = some e →
      ∃ item ∈ items ++ [(newRecord P runId draws now t control catalog).evidence],
        Backs item m.key e := by
    intro m hm e he
    obtain ⟨item, hitem, hbacks⟩ := hold m hm e he
    exact ⟨item, List.mem_append_left _ hitem, hbacks⟩
  have hlast := List.mem_append_right items
    (List.mem_singleton.mpr (Eq.refl (newRecord P runId draws now t control catalog).evidence))
  intro m hm e he
  rcases writeMapping_cases h with ⟨known, hknown, -, hrows⟩ | ⟨-, -, hrows⟩
  · rw [hrows] at hm
    obtain ⟨m₀, hm₀, rfl⟩ := List.mem_map.mp hm
    split at he
    · rename_i hid
      rw [if_pos hid]
      obtain rfl := Option.some.inj he
      -- the index knows this row, so the turn has its key
      obtain ⟨w, hw, hwid, hwkey⟩ := hindex _ _ hknown
      have hsame : m₀ = w := Table.eq_of_key hm₀ hw (hid.trans hwid.symm)
      exact ⟨_, hlast, backs_record (hsame ▸ hwkey)⟩
    · rename_i hid
      rw [if_neg hid]
      exact hkept m₀ hm₀ e he
  · rw [hrows] at hm
    rcases List.mem_append.mp hm with hm | hm
    · exact hkept m hm e he
    · rw [List.mem_singleton.mp hm] at he ⊢
      obtain rfl := Option.some.inj he
      exact ⟨_, hlast, backs_record rfl⟩

/-- An alert keeps its details or gets those of the turn. -/
theorem explains_writeAlert {items : List EvidenceItem} {alerts alerts' : Alerts} {id : Id}
    (hold : ∀ x ∈ alerts.rows, ∃ item ∈ items, Explains item x.details)
    (h : writeAlert alerts id (newRecord P runId draws now t control catalog) = .ok alerts') :
    ∀ x ∈ alerts'.rows, ∃ item ∈ items ++ [(newRecord P runId draws now t control
      catalog).evidence], Explains item x.details := by
  have hkept : ∀ x ∈ alerts.rows, ∃ item ∈ items ++ [(newRecord P runId draws now t control
      catalog).evidence], Explains item x.details := by
    intro x hx
    obtain ⟨item, hitem, hexplains⟩ := hold x hx
    exact ⟨item, List.mem_append_left _ hitem, hexplains⟩
  have hnew : ∃ item ∈ items ++ [(newRecord P runId draws now t control catalog).evidence],
      Explains item (newRecord P runId draws now t control catalog).gapDetails :=
    ⟨_, List.mem_append_right _ (List.mem_singleton.mpr rfl), ⟨rfl, rfl, rfl, rfl, rfl⟩⟩
  intro x hx
  rcases writeAlert_cases h with ⟨-, hrows⟩ | ⟨-, -, alert, rest, -, hrows⟩ | ⟨-, -, -, hrows⟩ |
    ⟨-, -, rfl⟩
  · rw [hrows] at hx
    obtain ⟨x₀, hx₀, rfl⟩ := List.mem_map.mp hx
    split
    · exact hkept x₀ hx₀
    · exact hkept x₀ hx₀
  · rw [hrows] at hx
    obtain ⟨x₀, hx₀, rfl⟩ := List.mem_map.mp hx
    split
    · exact hnew
    · exact hkept x₀ hx₀
  · rw [hrows] at hx
    rcases List.mem_append.mp hx with hx | hx
    · exact hkept x hx
    · rw [List.mem_singleton.mp hx]
      exact hnew
  · exact hkept x hx

end Turn

/-! ## One audit -/

/-- What the loop keeps of its tables. -/
structure Going (P : Primitives) (db : AuditDb) (runId : ℕ) (st : Loop) : Prop where
  documented : Documented P st.db
  points : Points st.mappingByKey st.db.mappings
  items : ∃ items, st.db.evidenceItems = db.evidenceItems ++ items
  keys : ∀ m ∈ st.db.mappings.rows,
    (∃ m₀ ∈ db.mappings.rows, m₀.id = m.id ∧ m₀.key = m.key) ∨ m.id.run = runId

section Audit
variable {P : Primitives} {inputs : Inputs} {runId : ℕ} {db : AuditDb}

theorem going_advance {st : Loop} {t : Turn} {control : FrameworkControl}
    {catalog : FrameworkCatalog} {mappings : Mappings} {index : Key → Option Id} {alerts : Alerts}
    (h : Going P db runId st) (ht : (t.framework, t.controlId, t.rule) ∈ catalogControls)
    (hmapping : writeMapping st.db.mappings st.mappingByKey ⟨runId, st.draws + 2⟩
      (newRecord P runId st.draws inputs.now t control catalog) = .ok (mappings, index))
    (halert : writeAlert st.db.alerts ⟨runId, st.draws + 3⟩
      (newRecord P runId st.draws inputs.now t control catalog) = .ok alerts) :
    Going P db runId (st.advance (newRecord P runId st.draws inputs.now t control catalog)
      mappings index alerts) := by
  obtain ⟨items, hitems⟩ := h.items
  refine ⟨⟨fun item hitem => ?_, ?_, ?_, fun r hr => ?_⟩, ?_, ?_, fun m hm => ?_⟩
  · rcases List.mem_append.mp hitem with hitem | hitem
    · exact h.documented.items item hitem
    · rw [List.mem_singleton.mp hitem]
      exact ⟨_, ht, t.asset, rfl, rfl, rfl, rfl, rfl⟩
  · exact backs_writeMapping h.points h.documented.mappings hmapping
  · exact explains_writeAlert h.documented.alerts halert
  · rcases List.mem_append.mp hr with hr | hr
    · obtain ⟨item, hitem, hsupports⟩ := h.documented.results r hr
      exact ⟨item, List.mem_append_left _ hitem, hsupports⟩
    · rw [List.mem_singleton.mp hr]
      exact ⟨_, List.mem_append_right _ (List.mem_singleton.mpr rfl), ⟨rfl, rfl⟩⟩
  · exact points_writeMapping h.points hmapping
  · refine ⟨items ++ [(newRecord P runId st.draws inputs.now t control catalog).evidence], ?_⟩
    rw [← List.append_assoc, ← hitems]
    rfl
  · rcases writeMapping_origin hmapping hm with ⟨m₀, hm₀, hid, hkey⟩ | ⟨hid, -, -⟩
    · rcases h.keys m₀ hm₀ with ⟨m₁, hm₁, hid₁, hkey₁⟩ | hrun
      · exact .inl ⟨m₁, hm₁, hid₁.trans hid, hkey₁.trans hkey⟩
      · exact .inr (hid ▸ hrun)
    · exact .inr (by rw [hid])

theorem auditLoop_going (hdb : Documented P db) {st : Loop}
    (h : auditLoop P inputs runId db = .ok st) : Going P db runId st := by
  refine foldlM_invariant (fun _ st => Going P db runId st) ?_ ?_ h
  · intro before t after st st' hturns hst hstep
    rcases assessControl_ok hstep with ⟨-, rfl⟩ |
      ⟨control, catalog, mappings, index, alerts, -, hmapping, halert, rfl⟩
    · exact hst
    · have ht : t ∈ turns inputs.assets.rows := by
        rw [hturns]
        exact List.mem_append_right _ List.mem_cons_self
      exact going_advance hst (mem_turns.mp ht).2 hmapping halert
  · exact ⟨hdb, points_mappingIndex db.mappings, ⟨[], (List.append_nil _).symm⟩,
      fun m hm => .inl ⟨m, hm, rfl, rfl⟩⟩

/-- What an audit leaves for its commit. -/
structure Prepared (P : Primitives) (read after : AuditDb) : Prop where
  documented : Documented P after
  items : ∃ items, after.evidenceItems = read.evidenceItems ++ items

theorem runAudit_prepared (hdb : Documented P db) {after : AuditDb}
    (h : runAudit P inputs runId db = .ok after) : Prepared P db after ∧
      ∀ m ∈ after.mappings.rows,
        (∃ m₀ ∈ db.mappings.rows, m₀.id = m.id ∧ m₀.key = m.key) ∨ m.id.run = runId := by
  obtain ⟨st, hst, rfl⟩ := runAudit_ok h
  have hgoing := auditLoop_going hdb hst
  have hdoc := hgoing.documented
  exact ⟨⟨⟨hdoc.items, hdoc.mappings, hdoc.alerts, hdoc.results⟩, hgoing.items⟩, hgoing.keys⟩

end Audit

/-! ## Commits -/

section Commit
variable {P : Primitives} {p : Pending} {db : AuditDb}

/-- After its commit every item that an audit had is stored. -/
theorem commit_evidenceItems (hp : Prepared P p.read p.after)
    (hread : p.read.evidenceItems ⊆ db.evidenceItems) {item : EvidenceItem} :
    item ∈ (commitAudit p db).evidenceItems ↔
      item ∈ db.evidenceItems ∨ item ∈ p.after.evidenceItems := by
  obtain ⟨items, hitems⟩ := hp.items
  have hcommit : (commitAudit p db).evidenceItems = db.evidenceItems ++ items := by
    simp [commitAudit, hitems]
  rw [hcommit, hitems, List.mem_append, List.mem_append]
  constructor
  · rintro (h | h)
    · exact .inl h
    · exact .inr (.inr h)
  · rintro (h | h | h)
    · exact .inl h
    · exact .inl (hread h)
    · exact .inr h

/-- The rows of one identifier have one key, so a commit merges the documents of one key. -/
theorem documented_commit (hp : Prepared P p.read p.after)
    (hread : p.read.evidenceItems ⊆ db.evidenceItems) (hdb : Documented P db)
    (hkeys : ∀ m ∈ db.mappings.rows, ∀ m' ∈ p.after.mappings.rows, m'.id = m.id → m'.key = m.key) :
    Documented P (commitAudit p db) := by
  have hstored : ∀ {item}, item ∈ db.evidenceItems → item ∈ (commitAudit p db).evidenceItems :=
    fun h => (commit_evidenceItems hp hread).mpr (.inl h)
  have hafter : ∀ {item}, item ∈ p.after.evidenceItems →
      item ∈ (commitAudit p db).evidenceItems :=
    fun h => (commit_evidenceItems hp hread).mpr (.inr h)
  refine ⟨fun item hitem => ?_, fun m hm e he => ?_, fun x hx => ?_, fun r hr => ?_⟩
  · rcases (commit_evidenceItems hp hread).mp hitem with hitem | hitem
    · exact hdb.items item hitem
    · exact hp.documented.items item hitem
  · rcases (mem_commit mergeMapping_id).mp hm with ⟨a, ha, rfl⟩ | hadded
    · have hkept : a.evidence = some e →
          ∃ item ∈ (commitAudit p db).evidenceItems, Backs item a.key e := by
        intro he
        obtain ⟨item, hitem, hbacks⟩ := hdb.mappings a ha e he
        exact ⟨item, hstored hitem, hbacks⟩
      unfold updated at he ⊢
      split at he
      · rename_i loaded current hloaded hcurrent
        obtain ⟨hmem, hid⟩ := Table.find_eq_some.mp hcurrent
        change writeBack loaded.evidence current.evidence a.evidence = some e at he
        change ∃ item ∈ (commitAudit p db).evidenceItems, Backs item a.key e
        by_cases hsame : current.evidence = loaded.evidence
        · rw [hsame, writeBack_unchanged] at he
          exact hkept he
        · rw [writeBack_changed hsame] at he
          obtain ⟨item, hitem, hbacks⟩ := hp.documented.mappings current hmem e he
          exact ⟨item, hafter hitem, hkeys a ha current hmem hid ▸ hbacks⟩
      · exact hkept he
    · obtain ⟨item, hitem, hbacks⟩ := hp.documented.mappings m (mem_added.mp hadded).1 e he
      exact ⟨item, hafter hitem, hbacks⟩
  · rcases (mem_commit mergeAlert_id).mp hx with ⟨a, ha, rfl⟩ | hadded
    · have hkept : ∃ item ∈ (commitAudit p db).evidenceItems, Explains item a.details := by
        obtain ⟨item, hitem, hexplains⟩ := hdb.alerts a ha
        exact ⟨item, hstored hitem, hexplains⟩
      unfold updated
      split
      · rename_i loaded current hloaded hcurrent
        obtain ⟨hmem, -⟩ := Table.find_eq_some.mp hcurrent
        change ∃ item ∈ (commitAudit p db).evidenceItems,
          Explains item (writeBack loaded.details current.details a.details)
        by_cases hsame : current.details = loaded.details
        · rw [hsame, writeBack_unchanged]
          exact hkept
        · rw [writeBack_changed hsame]
          obtain ⟨item, hitem, hexplains⟩ := hp.documented.alerts current hmem
          exact ⟨item, hafter hitem, hexplains⟩
      · exact hkept
    · obtain ⟨item, hitem, hexplains⟩ := hp.documented.alerts x (mem_added.mp hadded).1
      exact ⟨item, hafter hitem, hexplains⟩
  · rcases List.mem_append.mp hr with hr | hr
    · obtain ⟨item, hitem, hsupports⟩ := hdb.results r hr
      exact ⟨item, hstored hitem, hsupports⟩
    · obtain ⟨item, hitem, hsupports⟩ := hp.documented.results r (List.mem_of_mem_drop hr)
      exact ⟨item, hafter hitem, hsupports⟩

theorem documented_keepResults (hdb : Documented P db) (q : AssessmentResult → Bool) :
    Documented P (keepResults db q) where
  items := hdb.items
  mappings := hdb.mappings
  alerts := hdb.alerts
  results r hr := hdb.results r (List.mem_filter.mp hr).1

theorem documented_keepAssets (hdb : Documented P db) (ids : List ℕ) :
    Documented P (keepAssets db ids) where
  items := hdb.items
  mappings m hm := hdb.mappings m (Table.mem_delete.mp hm).1
  alerts x hx := by
    obtain ⟨x₀, hx₀, rfl⟩ := List.mem_map.mp hx
    split
    · exact hdb.alerts x₀ hx₀
    · exact hdb.alerts x₀ hx₀
  results := (documented_keepResults hdb _).results

end Commit

/-! ## Histories -/

/-- The key of every identifier that was drawn is fixed. -/
structure Keyed (keyOf : Id → Key) (n : ℕ) (mappings : Mappings) : Prop where
  drawn : ∀ m ∈ mappings.rows, m.id.run < n
  key : ∀ m ∈ mappings.rows, m.key = keyOf m.id

structure Sound (P : Primitives) (keyOf : Id → Key) (s : State) : Prop where
  documented : Documented P s.db
  keyed : Keyed keyOf s.nextRun s.db.mappings
  prepared : ∀ p ∈ s.inflight, Prepared P p.read p.after
  read : ∀ p ∈ s.inflight, p.read.evidenceItems ⊆ s.db.evidenceItems
  pending : ∀ p ∈ s.inflight, Keyed keyOf s.nextRun p.after.mappings

theorem sound_start (P : Primitives) : ∃ keyOf, Sound P keyOf .start := by
  have hnone : ∀ {ρ : Type} (p : ρ → Prop), ∀ x ∈ ([] : List ρ), p x :=
    fun _ _ h => absurd h List.not_mem_nil
  refine ⟨fun _ => ("", "", 0), ⟨hnone _, hnone _, hnone _, hnone _⟩, ⟨hnone _, hnone _⟩, hnone _,
    hnone _, hnone _⟩

section Step
variable {P : Primitives} {s : State}

theorem Keyed.mono {keyOf : Id → Key} {n n' : ℕ} {mappings : Mappings}
    (h : Keyed keyOf n mappings) (hle : n ≤ n') : Keyed keyOf n' mappings :=
  ⟨fun m hm => (h.drawn m hm).trans_le hle, h.key⟩

/-- The keys of the rows that an audit adds. -/
def extended (keyOf : Id → Key) (n : ℕ) (mappings : Mappings) (id : Id) : Key :=
  if id.run = n then ((mappings.find id).map ComplianceMapping.key).getD (keyOf id) else keyOf id

theorem Keyed.extend {keyOf : Id → Key} {n : ℕ} {mappings : Mappings} (h : Keyed keyOf n mappings)
    (added : Mappings) : Keyed (extended keyOf n added) (n + 1) mappings := by
  refine ⟨fun m hm => (h.drawn m hm).trans (Nat.lt_succ_self n), fun m hm => ?_⟩
  rw [extended, if_neg (h.drawn m hm).ne]
  exact h.key m hm

/-- The rows after an audit have the keys of the rows it read or new ones. -/
theorem keyed_runAudit {keyOf : Id → Key} {n : ℕ} {read after : Mappings}
    (h : Keyed keyOf n read) (horigin : ∀ m ∈ after.rows,
      (∃ m₀ ∈ read.rows, m₀.id = m.id ∧ m₀.key = m.key) ∨ m.id.run = n) :
    Keyed (extended keyOf n after) (n + 1) after := by
  have hold := h.extend after
  refine ⟨fun m hm => ?_, fun m hm => ?_⟩
  · rcases horigin m hm with ⟨m₀, hm₀, hid, -⟩ | hrun
    · exact hid ▸ hold.drawn m₀ hm₀
    · rw [hrun]
      exact Nat.lt_succ_self n
  · rcases horigin m hm with ⟨m₀, hm₀, hid, hkey⟩ | hrun
    · rw [← hkey, ← hid]
      exact hold.key m₀ hm₀
    · have hfind : after.find m.id = some m := Table.find_eq_some.mpr ⟨hm, rfl⟩
      rw [extended, if_pos hrun, hfind]
      rfl

theorem keyed_commit {keyOf : Id → Key} {n : ℕ} {p : Pending} {db : AuditDb}
    (hdb : Keyed keyOf n db.mappings) (hp : Keyed keyOf n p.after.mappings) :
    Keyed keyOf n (commitAudit p db).mappings := by
  refine ⟨fun m hm => ?_, fun m hm => ?_⟩
  · rcases (mem_commit mergeMapping_id).mp hm with ⟨a, ha, rfl⟩ | hadded
    · rw [updated_key mergeMapping_id]
      exact hdb.drawn a ha
    · exact hp.drawn m (mem_added.mp hadded).1
  · rcases (mem_commit mergeMapping_id).mp hm with ⟨a, ha, rfl⟩ | hadded
    · rw [updated_key mergeMapping_id, ConcurrentAudits.updated_mapping_key]
      exact hdb.key a ha
    · exact hp.key m (mem_added.mp hadded).1

/-- An audit that reads the tables as they are. -/
theorem sound_read {keyOf : Id → Key} (hs : Sound P keyOf s) (now finished : Time)
    (initiatedBy : String) :
    ∃ keyOf', Sound P keyOf' (step P s (.read now finished initiatedBy)) := by
  unfold step
  dsimp only
  split
  · rename_i after hrun
    obtain ⟨hprepared, horigin⟩ := runAudit_prepared hs.documented hrun
    refine ⟨extended keyOf s.nextRun after.mappings, hs.documented, hs.keyed.extend _,
      fun p hp => ?_, fun p hp => ?_, fun p hp => ?_⟩
    · rcases List.mem_append.mp hp with hp | hp
      · exact hs.prepared p hp
      · rw [List.mem_singleton.mp hp]
        exact hprepared
    · rcases List.mem_append.mp hp with hp | hp
      · exact hs.read p hp
      · rw [List.mem_singleton.mp hp]
        exact List.Subset.refl _
    · rcases List.mem_append.mp hp with hp | hp
      · exact (hs.pending p hp).extend _
      · rw [List.mem_singleton.mp hp]
        exact keyed_runAudit hs.keyed horigin
  · exact ⟨keyOf, hs.documented, hs.keyed.mono (Nat.le_succ _), hs.prepared, hs.read,
      fun p hp => (hs.pending p hp).mono (Nat.le_succ _)⟩

/-- An audit commits, or its foreign keys fail and nothing is written. -/
theorem sound_commit {keyOf : Id → Key} (hs : Sound P keyOf s) (n : ℕ) :
    Sound P keyOf (step P s (.commit n)) := by
  unfold step
  dsimp only
  split
  · exact hs
  · rename_i p hp
    have hmem : p ∈ s.inflight := List.mem_of_getElem? hp
    have hleft : ∀ q ∈ s.inflight.eraseIdx n, q ∈ s.inflight :=
      fun q hq => List.mem_of_mem_eraseIdx hq
    by_cases hreferences : referencesHold s p = true
    · rw [if_pos hreferences]
      have hkeys : ∀ m ∈ s.db.mappings.rows, ∀ m' ∈ p.after.mappings.rows, m'.id = m.id →
          m'.key = m.key := by
        intro m hm m' hm' hid
        rw [hs.keyed.key m hm, (hs.pending p hmem).key m' hm', hid]
      refine ⟨documented_commit (hs.prepared p hmem) (hs.read p hmem) hs.documented hkeys,
        keyed_commit hs.keyed (hs.pending p hmem), fun q hq => hs.prepared q (hleft q hq),
        fun q hq item hitem => ?_, fun q hq => hs.pending q (hleft q hq)⟩
      exact (commit_evidenceItems (hs.prepared p hmem) (hs.read p hmem)).mpr
        (.inl (hs.read q (hleft q hq) hitem))
    · rw [if_neg hreferences]
      exact ⟨hs.documented, hs.keyed, fun q hq => hs.prepared q (hleft q hq),
        fun q hq => hs.read q (hleft q hq), fun q hq => hs.pending q (hleft q hq)⟩

theorem sound_step (P : Primitives) (s : State) (e : Event) (h : ∃ keyOf, Sound P keyOf s) :
    ∃ keyOf, Sound P keyOf (step P s e) := by
  obtain ⟨keyOf, hs⟩ := h
  cases e with
  | read now finished initiatedBy => exact sound_read hs now finished initiatedBy
  | commit n => exact ⟨keyOf, sound_commit hs n⟩
  | inventory assets =>
    refine ⟨keyOf, documented_keepAssets hs.documented _, ?_, hs.prepared, hs.read, hs.pending⟩
    exact ⟨fun m hm => hs.keyed.drawn m (Table.mem_delete.mp hm).1,
      fun m hm => hs.keyed.key m (Table.mem_delete.mp hm).1⟩
  | frameworks catalog =>
    exact ⟨keyOf, documented_keepResults hs.documented _, hs.keyed, hs.prepared, hs.read,
      hs.pending⟩

end Step

theorem documented_run (P : Primitives) (events : List Event) :
    Documented P (run (step P) .start events).db := by
  obtain ⟨keyOf, hs⟩ := run_invariant (fun s => ∃ keyOf, Sound P keyOf s) (sound_step P)
    (sound_start P) events
  exact hs.documented

/-- The hash of an item fits what was observed in any order of members, and nothing else unless two
texts have one hash. -/
theorem observes_hash_iff {sha256 : List Char → String} {rounding : Rounding} {item : EvidenceItem}
    (h : Observes ⟨integrityHash sha256, rounding⟩ item) {doc : Json} (hdoc : WellFormed doc) :
    sha256 (doc.dumps canonicalOptions) = item.integritySha256 ↔
      doc.sorted = (observedJson item.observed).sorted ∨
        Collides sha256 (doc.dumps canonicalOptions)
          ((observedJson item.observed).dumps canonicalOptions) := by
  obtain ⟨c, hc, a, -, -, -, hobserved, hhash⟩ := h
  have hwell : WellFormed (observedJson item.observed) := by
    rw [hobserved]
    exact wellFormed_observe hc a
  rw [hhash, ← dumps_eq_iff canonicalOptions_readable rfl hdoc hwell]
  exact digest_eq_iff sha256 _ _

/-- After any history of audits that overlap, of changes of the inventory and of the frameworks,
the hash of every stored item fits its document and no other, and every mapping, every alert and
every result has a stored item that it repeats or is linked to. -/
theorem evidence_integrity (sha256 : List Char → String) (rounding : Rounding)
    (events : List Event) :
    let s := run (step ⟨integrityHash sha256, rounding⟩) .start events
    (∀ item ∈ s.db.evidenceItems, ∀ doc, WellFormed doc →
      (sha256 (doc.dumps canonicalOptions) = item.integritySha256 ↔
        doc.sorted = (observedJson item.observed).sorted ∨
          Collides sha256 (doc.dumps canonicalOptions)
            ((observedJson item.observed).dumps canonicalOptions))) ∧
      (∀ m ∈ s.db.mappings.rows, ∀ e, m.evidence = some e →
        ∃ item ∈ s.db.evidenceItems, Backs item m.key e) ∧
      (∀ x ∈ s.db.alerts.rows, ∃ item ∈ s.db.evidenceItems, Explains item x.details) ∧
      ∀ r ∈ s.db.results, ∃ item ∈ s.db.evidenceItems, Supports item r ∧
        ⟨r.id, item.id⟩ ∈ s.db.links := by
  intro s
  have hdoc := documented_run ⟨integrityHash sha256, rounding⟩ events
  have hpaired := (sound_run ⟨integrityHash sha256, rounding⟩ events).db
  refine ⟨fun item hitem doc hwell => observes_hash_iff (hdoc.items item hitem) hwell,
    hdoc.mappings, hdoc.alerts, fun r hr => ?_⟩
  obtain ⟨item, hitem, hsupports⟩ := hdoc.results r hr
  exact ⟨item, hitem, hsupports, hsupports.id ▸ hpaired.results r hr⟩

end Kepryx.EvidenceIntegrity
