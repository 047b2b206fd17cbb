import Kepryx.AuditAlerts
import Kepryx.RiskWriters
import Kepryx.Runs

/-!
# Alerts about gaps over a history

An alert about a gap is known by its title, which contains the name of the asset. Reports rename
assets, requests change their criticality, and alerts are resolved by hand between two audits. An
audit closes and refreshes the alerts of the current name only, and only where the result is
compliant or the criticality is high.
-/
namespace Kepryx.GapAlerts
open Kepryx.Models Kepryx.Tables Kepryx.Results Kepryx.Runs
open Kepryx.ComplianceCatalog Kepryx.ComplianceAudit Kepryx.AuditLoop Kepryx.AuditRecord
open Kepryx.AuditAlerts

variable {P : Primitives} {inputs : Inputs} {runId : ℕ} {db : AuditDb}

/-- The open alerts for the asset of a turn whose details name its control. -/
def openGaps (alerts : Alerts) (t : Turn) : List GapAlert :=
  alerts.rows.filter fun x => x.assetId = some t.asset.id && x.details.framework = t.framework &&
    x.details.control = t.controlId && x.status = .open

theorem mem_openGaps {alerts : Alerts} {t : Turn} {x : GapAlert} :
    x ∈ openGaps alerts t ↔ x ∈ alerts.rows ∧ x.assetId = some t.asset.id ∧
      x.details.framework = t.framework ∧ x.details.control = t.controlId ∧ x.status = .open := by
  simp [openGaps, and_assoc]

/-- The audit leaves one open alert for a gap of an asset of high criticality, and none for any
other result. -/
def Mirrored (inputs : Inputs) (alerts : Alerts) : Prop :=
  ∀ t ∈ turns inputs.assets.rows, known inputs t = true → (openGaps alerts t).length =
    if t.assessment.status ≠ .compliant ∧ t.highCriticality = true then 1 else 0

/-- Every open alert about an assessed control carries the current name of its asset, and there is
none about a control that an asset of lower criticality misses. -/
def UpToDate (inputs : Inputs) (alerts : Alerts) : Prop :=
  ∀ t ∈ turns inputs.assets.rows, known inputs t = true →
    (∀ x ∈ openGaps alerts t, x.title = t.gapTitle) ∧
    (t.rule.check t.asset = false → t.highCriticality = false → openGaps alerts t = [])

/-! ## Titles and details -/

/-- The title of an alert names the control of its details. -/
def Titled (x : GapAlert) : Prop :=
  (x.details.framework, x.details.control) ∈ labels ∧
    ∃ name, x.title = titleOf (x.details.framework, x.details.control) name

/-- The alert is about the control of the turn, under some name of the asset. -/
def About (t : Turn) (x : GapAlert) : Prop :=
  x.assetId = some t.asset.id ∧ ∃ name, x.title = titleOf (t.framework, t.controlId) name

theorem about_of_slot {t : Turn} {x : GapAlert} (h : x.slot = t.slot) : About t x :=
  ⟨congrArg Prod.fst h, t.asset.name, congrArg Prod.snd h⟩

/-- An alert is about a control if and only if its details name it. -/
theorem about_iff {assets : List AssessedAsset} {t : Turn} (ht : t ∈ turns assets) {x : GapAlert}
    (hx : Titled x) : About t x ↔ x.assetId = some t.asset.id ∧
      x.details.framework = t.framework ∧ x.details.control = t.controlId := by
  obtain ⟨hlabel, name, htitle⟩ := hx
  refine and_congr_right fun _ => ?_
  constructor
  · rintro ⟨name', htitle'⟩
    have hsame := (titleOf_inj hlabel (label_of_mem_turns ht) (htitle.symm.trans htitle')).1
    exact Prod.ext_iff.mp hsame
  · rintro ⟨hframework, hcontrol⟩
    exact ⟨name, by rw [htitle, hframework, hcontrol]⟩

/-- Alerts about the controls of two turns are about one only if the turns have one key. -/
theorem key_eq_of_about {assets : List AssessedAsset} {t t' : Turn} (ht : t ∈ turns assets)
    (ht' : t' ∈ turns assets) {x : GapAlert} (hx : About t x) (hx' : About t' x) :
    t.key = t'.key := by
  obtain ⟨hasset, name, htitle⟩ := hx
  obtain ⟨hasset', name', htitle'⟩ := hx'
  have hid : t.asset.id = t'.asset.id := Option.some.inj (hasset.symm.trans hasset')
  have hlabel := (titleOf_inj (label_of_mem_turns ht) (label_of_mem_turns ht')
    (htitle.symm.trans htitle')).1
  obtain ⟨hframework, hcontrol⟩ := Prod.ext_iff.mp hlabel
  dsimp only at hframework hcontrol
  rw [Turn.key, Turn.key, hid, hframework, hcontrol]

theorem writeAlert_titled {alerts alerts' : Alerts} {id : Id} {r : Record}
    (h : writeAlert alerts id r = .ok alerts')
    (hlabel : (r.turn.framework, r.turn.controlId) ∈ labels)
    (htitled : ∀ x ∈ alerts.rows, Titled x) : ∀ x ∈ alerts'.rows, Titled x := by
  intro x hx
  rcases writeAlert_cases h with ⟨-, hrows⟩ | ⟨-, -, alert, rest, hfound, hrows⟩ |
      ⟨-, -, -, hrows⟩ | ⟨-, -, rfl⟩
  · rw [hrows] at hx
    obtain ⟨x₀, hx₀, rfl⟩ := List.mem_map.mp hx
    split
    · exact htitled x₀ hx₀
    · exact htitled x₀ hx₀
  · rw [hrows] at hx
    obtain ⟨x₀, hx₀, rfl⟩ := List.mem_map.mp hx
    split
    · rename_i hid
      have halert : alert ∈ openAt alerts r.turn.slot := by simp [hfound]
      obtain ⟨hmem, hslot, -⟩ := mem_openAt.mp halert
      have hsame : x₀ = alert := Table.eq_of_key hx₀ hmem hid
      exact ⟨hlabel, r.turn.asset.name, congrArg Prod.snd (hsame ▸ hslot)⟩
    · exact htitled x₀ hx₀
  · rw [hrows] at hx
    rcases List.mem_append.mp hx with hx | hx
    · exact htitled x hx
    · rw [List.mem_singleton.mp hx]
      exact ⟨hlabel, r.turn.asset.name, rfl⟩
  · exact htitled x hx

theorem auditLoop_titled (htitled : ∀ x ∈ db.alerts.rows, Titled x) {st : Loop}
    (h : auditLoop P inputs runId db = .ok st) : ∀ x ∈ st.db.alerts.rows, Titled x := by
  refine foldlM_invariant (fun _ st => ∀ x ∈ st.db.alerts.rows, Titled x) ?_ htitled h
  intro before t after s s' hturns hs hstep
  rcases assessControl_ok hstep with ⟨-, rfl⟩ | ⟨control, catalog, mappings, index, alerts, -, -,
    halert, rfl⟩
  · exact hs
  · have ht : t ∈ turns inputs.assets.rows := by simp [hturns]
    exact writeAlert_titled halert (label_of_mem_turns ht) hs

/-! ## Current and outdated alerts -/

/-- The open alerts about the gap under the current name. -/
def current (alerts : Alerts) (t : Turn) : ℕ := (openAt alerts t.slot).length

open Classical in
/-- An open alert about the control under another name. -/
noncomputable def isOutdated (t : Turn) (x : GapAlert) : Bool :=
  decide (x.status = .open ∧ About t x ∧ x.slot ≠ t.slot)

noncomputable def outdated (alerts : Alerts) (t : Turn) : ℕ := alerts.rows.countP (isOutdated t)

theorem isOutdated_iff {t : Turn} {x : GapAlert} :
    isOutdated t x = true ↔ x.status = .open ∧ About t x ∧ x.slot ≠ t.slot := by
  simp [isOutdated]

theorem countP_split {α : Type*} (p q : α → Bool) (xs : List α) :
    xs.countP p = (xs.countP fun x => p x && q x) + xs.countP fun x => p x && !q x := by
  induction xs with
  | nil => rfl
  | cons x xs ih =>
    simp only [List.countP_cons, ih]
    cases p x
    · simp
    · cases q x
      · simp
        omega
      · simp
        omega

/-- The alerts about a control are the current and the outdated ones. -/
theorem openGaps_length {assets : List AssessedAsset} {t : Turn} (ht : t ∈ turns assets)
    {alerts : Alerts} (htitled : ∀ x ∈ alerts.rows, Titled x) :
    (openGaps alerts t).length = current alerts t + outdated alerts t := by
  have hdetails : ∀ x ∈ alerts.rows, (x.assetId = some t.asset.id ∧
      x.details.framework = t.framework ∧ x.details.control = t.controlId) ↔ About t x :=
    fun x hx => (about_iff ht (htitled x hx)).symm
  rw [openGaps, ← List.countP_eq_length_filter,
    countP_split _ (fun x => decide (x.slot = t.slot)), current, openAt,
    ← List.countP_eq_length_filter, outdated]
  congr 1
  · refine List.countP_congr fun x hx => ?_
    have h := hdetails x hx
    simp only [Bool.and_eq_true, decide_eq_true_eq]
    constructor
    · rintro ⟨⟨-, hopen⟩, hslot⟩
      exact ⟨⟨congrArg Prod.fst hslot, congrArg Prod.snd hslot⟩, hopen⟩
    · rintro ⟨⟨hasset, htitle⟩, hopen⟩
      have hslot : x.slot = t.slot := Prod.ext hasset htitle
      obtain ⟨ha, hf, hc⟩ := h.mpr (about_of_slot hslot)
      exact ⟨⟨⟨⟨ha, hf⟩, hc⟩, hopen⟩, hslot⟩
  · refine List.countP_congr fun x hx => ?_
    have h := hdetails x hx
    rw [isOutdated_iff]
    simp only [Bool.and_eq_true, Bool.not_eq_true', decide_eq_true_eq, decide_eq_false_iff_not]
    rw [← h]
    tauto

theorem outdated_eq_zero {alerts : Alerts} {t : Turn} :
    outdated alerts t = 0 ↔ ∀ x ∈ alerts.rows, x.status = .open → About t x → x.slot = t.slot := by
  simp only [outdated, List.countP_eq_zero, isOutdated_iff]
  constructor
  · intro h x hx hopen habout
    by_contra hne
    exact h x hx ⟨hopen, habout, hne⟩
  · rintro h x hx ⟨hopen, habout, hne⟩
    exact hne (h x hx hopen habout)

theorem current_le_one {alerts : Alerts} (hone : OneOpen alerts) (t : Turn) :
    current alerts t ≤ 1 := by
  refine Table.filter_length_le_one fun x hx y hy hpx hpy => ?_
  obtain ⟨-, hxslot, hxopen⟩ := mem_openAt.mp (List.mem_filter.mpr ⟨hx, hpx⟩)
  obtain ⟨-, hyslot, hyopen⟩ := mem_openAt.mp (List.mem_filter.mpr ⟨hy, hpy⟩)
  exact hone x hx y hy hxopen hyopen (hxslot.trans hyslot.symm)

/-- What a record leaves of the current alerts about its gap. -/
theorem writeAlert_current {alerts alerts' : Alerts} {id : Id} {r : Record}
    (h : writeAlert alerts id r = .ok alerts') : current alerts' r.turn =
      if r.result.status = .compliant then 0
      else if r.turn.highCriticality = true then max (current alerts r.turn) 1
      else current alerts r.turn := by
  rcases writeAlert_cases h with ⟨hcompliant, hrows⟩ | ⟨hgap, hhigh, alert, rest, hfound, hrows⟩ |
      ⟨hgap, hhigh, hnone, hrows⟩ | ⟨hgap, hlow, rfl⟩
  · rw [if_pos hcompliant, current, List.length_eq_zero_iff, List.eq_nil_iff_forall_not_mem]
    intro x hx
    obtain ⟨hmem, hslot, hopen⟩ := mem_openAt.mp hx
    rw [hrows] at hmem
    obtain ⟨x₀, hx₀, rfl⟩ := List.mem_map.mp hmem
    split at hopen
    · cases hopen
    · rename_i hnot
      rw [if_neg hnot] at hslot
      exact hnot (mem_openAt.mpr ⟨hx₀, hslot, hopen⟩)
  · have hkeep : current alerts' r.turn = current alerts r.turn := by
      rw [current, current, openAt, openAt, ← List.countP_eq_length_filter,
        ← List.countP_eq_length_filter, hrows, List.countP_map]
      refine List.countP_congr fun x _ => ?_
      dsimp only [Function.comp]
      split
      · rfl
      · rfl
    have hpos : 1 ≤ current alerts r.turn := by simp [current, hfound]
    rw [if_neg hgap, if_pos hhigh, hkeep]
    omega
  · have hzero : current alerts r.turn = 0 := by simp [current, hnone]
    have hnew : current alerts' r.turn = 1 := by
      have hfree : alerts.rows.filter (fun x => x.assetId = r.turn.slot.1 &&
        x.title = r.turn.slot.2 && x.status = .open) = [] := hnone
      rw [current, openAt, hrows, List.filter_append, hfree]
      simp [Record.newAlert, Turn.slot]
    rw [if_neg hgap, if_pos hhigh, hzero, hnew]
    rfl
  · rw [if_neg hgap, if_neg (by simp [hlow])]

/-- A record does not touch the outdated alerts about its control. -/
theorem writeAlert_outdated {alerts alerts' : Alerts} {id : Id} {r : Record}
    (h : writeAlert alerts id r = .ok alerts') :
    outdated alerts' r.turn = outdated alerts r.turn := by
  have hfilter := writeAlert_filter h (p := isOutdated r.turn) fun x hx => by
    by_contra hout
    exact (isOutdated_iff.mp (by simpa using hout)).2.2 hx
  rw [outdated, outdated, List.countP_eq_length_filter, List.countP_eq_length_filter, hfilter]

/-! ## One audit -/

/-- The other turns leave both counts of a turn alone. -/
theorem counts_isolate {st : Loop} (h : auditLoop P inputs runId db = .ok st) {t : Turn}
    (ht : t ∈ turns inputs.assets.rows) (hknown : known inputs t = true) :
    outdated st.db.alerts t = outdated db.alerts t ∧ current st.db.alerts t =
      if t.assessment.status = .compliant then 0
      else if t.highCriticality = true then max (current db.alerts t) 1
      else current db.alerts t := by
  obtain ⟨r, id, alerts₀, alerts₁, rfl, hstatus, -, hwrite, hisolate⟩ :=
    auditLoop_isolate h ht hknown
  obtain ⟨hout₀, hout₁⟩ := hisolate (isOutdated r.turn) fun t' ht' hne x hx => by
    by_contra hout
    obtain ⟨-, habout, -⟩ := isOutdated_iff.mp (by simpa using hout)
    exact hne (key_eq_of_about ht' ht (about_of_slot hx) habout)
  obtain ⟨hcur₀, hcur₁⟩ := hisolate (fun x => x.assetId = r.turn.slot.1 &&
      x.title = r.turn.slot.2 && x.status = .open) fun t' ht' hne x hx => by
    by_contra hp
    simp only [Bool.not_eq_false, Bool.and_eq_true, decide_eq_true_eq] at hp
    have hslot : x.slot = r.turn.slot := Prod.ext hp.1.1 hp.1.2
    exact hne (key_eq_of_slot ht' ht (hx.symm.trans hslot))
  have hout : ∀ {a b : Alerts}, a.rows.filter (isOutdated r.turn) =
      b.rows.filter (isOutdated r.turn) → outdated a r.turn = outdated b r.turn := by
    intro a b heq
    rw [outdated, outdated, List.countP_eq_length_filter, List.countP_eq_length_filter, heq]
  have hcur : current alerts₀ r.turn = current db.alerts r.turn := congrArg List.length hcur₀
  constructor
  · exact (hout hout₁).trans ((writeAlert_outdated hwrite).trans (hout hout₀))
  · have hlast : current st.db.alerts r.turn = current alerts₁ r.turn := congrArg List.length hcur₁
    rw [hlast, writeAlert_current hwrite, hcur, hstatus]

/-- An audit leaves the alerts in step with the gaps if and only if they were up to date. -/
theorem mirrored_iff (hone : OneOpen db.alerts) (htitled : ∀ x ∈ db.alerts.rows, Titled x)
    {db' : AuditDb} (h : runAudit P inputs runId db = .ok db') :
    Mirrored inputs db'.alerts ↔ UpToDate inputs db.alerts := by
  obtain ⟨st, hst, rfl⟩ := runAudit_ok h
  refine forall_congr' fun t => forall_congr' fun ht => forall_congr' fun hknown => ?_
  obtain ⟨hout, hcur⟩ := counts_isolate hst ht hknown
  have hafter := openGaps_length ht (auditLoop_titled htitled hst)
  have hbefore := openGaps_length ht htitled
  have hle := current_le_one hone t
  have hcheck : t.assessment.status = .compliant ↔ t.rule.check t.asset = true :=
    assess_compliant_iff t.rule t.asset
  have hnames : (∀ x ∈ openGaps db.alerts t, x.title = t.gapTitle) ↔ outdated db.alerts t = 0 := by
    rw [outdated_eq_zero]
    constructor
    · intro hall x hx hopen habout
      have hdetails := (about_iff ht (htitled x hx)).mp habout
      have htitle := hall x (mem_openGaps.mpr
        ⟨hx, hdetails.1, hdetails.2.1, hdetails.2.2, hopen⟩)
      exact Prod.ext habout.1 htitle
    · intro hall x hx
      obtain ⟨hmem, hasset, hframework, hcontrol, hopen⟩ := mem_openGaps.mp hx
      have habout := (about_iff ht (htitled x hmem)).mpr ⟨hasset, hframework, hcontrol⟩
      exact congrArg Prod.snd (hall x hmem hopen habout)
  rw [hnames, ← List.length_eq_zero_iff, hbefore]
  show (openGaps st.db.alerts t).length = _ ↔ _
  rw [hafter, hout, hcur]
  by_cases hc : t.rule.check t.asset = true
  · rw [if_pos (hcheck.mpr hc), if_neg fun hne => hne.1 (hcheck.mpr hc)]
    simp [hc]
  · have hgap : t.assessment.status ≠ .compliant := fun hcompliant => hc (hcheck.mp hcompliant)
    rw [if_neg hgap]
    by_cases hh : t.highCriticality = true
    · rw [if_pos hh, if_pos ⟨hgap, hh⟩]
      simp only [hh, Bool.true_eq_false, false_imp_iff, implies_true, and_true]
      omega
    · rw [if_neg hh, if_neg fun hne => hh hne.2]
      constructor
      · intro hzero
        exact ⟨by omega, fun _ _ => by omega⟩
      · rintro ⟨-, hnone⟩
        exact hnone (by simpa using hc) (by simpa using hh)

/-! ## Histories -/

/-- The inventory with the columns that neither reports nor requests change, the frameworks, and
the tables of the audits. The open alerts about gaps are those that audits have left. -/
structure State where
  db : Database
  lastPatch : ℕ → Option String
  catalog : CatalogRows
  audits : AuditDb
  nextRun : ℕ
  one : OneOpen audits.alerts
  titled : ∀ x ∈ audits.alerts.rows, Titled x

/-- An audit, a report, a request that patches an asset, or the resolution of an alert. -/
inductive Event where
  | audit (now finished : Time) (initiatedBy : String)
  | reconcile (report : Reconciler.Report)
  | patch (now : Time) (assetId : ℕ) (body : RiskWriters.AssetUpdate)
  | resolve (id : Id) (now : Time) (username : String)

/-- What the next audit reads. -/
def State.reads (s : State) (now finished : Time) (initiatedBy : String) : Inputs where
  assets :=
    { rows := s.db.assets.rows.map fun a => { a with lastPatch := s.lastPatch a.id }
      nodup := by
        rw [List.map_map]
        exact s.db.assets.nodup }
  catalog := s.catalog
  now := now
  finished := finished
  initiatedBy := initiatedBy

/-- The assignments of `resolve_alert`. -/
def resolveAlert (id : Id) (now : Time) (username : String) (x : GapAlert) : GapAlert :=
  if x.id = id then
    { x with status := .resolved, resolvedAt := some now, resolvedBy := some username }
  else x

theorem resolveAlert_keeps (id : Id) (now : Time) (username : String) (x : GapAlert) :
    (resolveAlert id now username x).id = x.id ∧
      (resolveAlert id now username x).slot = x.slot ∧
      ((resolveAlert id now username x).status = .open → resolveAlert id now username x = x) ∧
      (Titled x → Titled (resolveAlert id now username x)) := by
  unfold resolveAlert
  split
  · exact ⟨rfl, rfl, nofun, fun h => h⟩
  · exact ⟨rfl, rfl, fun _ => rfl, fun h => h⟩

theorem runAudit_oneOpen (hone : OneOpen db.alerts) {db' : AuditDb}
    (h : runAudit P inputs runId db = .ok db') : OneOpen db'.alerts := by
  obtain ⟨st, hst, rfl⟩ := runAudit_ok h
  exact auditLoop_oneOpen hone hst

theorem runAudit_titled (htitled : ∀ x ∈ db.alerts.rows, Titled x) {db' : AuditDb}
    (h : runAudit P inputs runId db = .ok db') : ∀ x ∈ db'.alerts.rows, Titled x := by
  obtain ⟨st, hst, rfl⟩ := runAudit_ok h
  exact auditLoop_titled htitled hst

/-- The alerts after a resolution. -/
def resolved (alerts : Alerts) (id : Id) (now : Time) (username : String) : Alerts :=
  alerts.mapRows (resolveAlert id now username) fun x => (resolveAlert_keeps id now username x).1

theorem resolved_oneOpen {alerts : Alerts} (hone : OneOpen alerts) (id : Id) (now : Time)
    (username : String) : OneOpen (resolved alerts id now username) := by
  intro x hx y hy hxopen hyopen hslot
  obtain ⟨x₀, hx₀, rfl⟩ := List.mem_map.mp hx
  obtain ⟨y₀, hy₀, rfl⟩ := List.mem_map.mp hy
  have hxsame := (resolveAlert_keeps id now username x₀).2.2.1 hxopen
  have hysame := (resolveAlert_keeps id now username y₀).2.2.1 hyopen
  rw [hxsame] at hxopen hslot ⊢
  rw [hysame] at hyopen hslot ⊢
  exact hone x₀ hx₀ y₀ hy₀ hxopen hyopen hslot

theorem resolved_titled {alerts : Alerts} (htitled : ∀ x ∈ alerts.rows, Titled x) (id : Id)
    (now : Time) (username : String) : ∀ x ∈ (resolved alerts id now username).rows, Titled x := by
  intro x hx
  obtain ⟨x₀, hx₀, rfl⟩ := List.mem_map.mp hx
  exact (resolveAlert_keeps id now username x₀).2.2.2 (htitled x₀ hx₀)

variable (P) (A : Reconciler.Addressing)

/-- One event; one that raises is rolled back. -/
def step (s : State) : Event → State
  | .audit now finished initiatedBy =>
    match h : runAudit P (s.reads now finished initiatedBy) s.nextRun s.audits with
    | .ok audits =>
      { s with
        audits := audits
        nextRun := s.nextRun + 1
        one := runAudit_oneOpen s.one h
        titled := runAudit_titled s.titled h }
    | .error _ => { s with nextRun := s.nextRun + 1 }
  | .reconcile report => { s with db := Reconciler.handle A s.db report }
  | .patch now assetId body =>
    match RiskWriters.updateAsset now s.db assetId body with
    | .ok db => { s with db := db }
    | .error _ => s
  | .resolve id now username =>
    { s with
      audits := { s.audits with alerts := resolved s.audits.alerts id now username }
      one := resolved_oneOpen s.one id now username
      titled := resolved_titled s.titled id now username }

/-- The audit completes. -/
def Completes (s : State) (now finished : Time) (initiatedBy : String) : Prop :=
  ∃ audits, runAudit P (s.reads now finished initiatedBy) s.nextRun s.audits = .ok audits

/-- An audit that completes leaves the alerts in step with the gaps. -/
def InStep (s : State) : Event → Prop
  | .audit now finished initiatedBy => Completes P s now finished initiatedBy →
    Mirrored (s.reads now finished initiatedBy)
      (step P A s (.audit now finished initiatedBy)).audits.alerts
  | _ => True

/-- An audit that completes finds the alerts up to date. -/
def Maintained (s : State) : Event → Prop
  | .audit now finished initiatedBy => Completes P s now finished initiatedBy →
    UpToDate (s.reads now finished initiatedBy) s.audits.alerts
  | _ => True

instance (inputs : Inputs) (alerts : Alerts) : Decidable (Mirrored inputs alerts) :=
  inferInstanceAs (Decidable (∀ t ∈ turns inputs.assets.rows, _ → _))

instance (s : State) (now finished : Time) (initiatedBy : String) :
    Decidable (Completes P s now finished initiatedBy) :=
  decidable_of_iff
    (runAudit P (s.reads now finished initiatedBy) s.nextRun s.audits).toOption.isSome (by
      unfold Completes
      cases runAudit P (s.reads now finished initiatedBy) s.nextRun s.audits with
      | ok audits => simp [Except.toOption]
      | error e => simp [Except.toOption])

instance (s : State) : (e : Event) → Decidable (InStep P A s e)
  | .audit .. => inferInstanceAs (Decidable (_ → _))
  | .reconcile _ => isTrue trivial
  | .patch .. => isTrue trivial
  | .resolve .. => isTrue trivial

theorem inStep_iff (s : State) (e : Event) : InStep P A s e ↔ Maintained P s e := by
  cases e with
  | audit now finished initiatedBy =>
    refine forall_congr' fun hcompletes => ?_
    obtain ⟨audits, hrun⟩ := hcompletes
    have hstep : (step P A s (.audit now finished initiatedBy)).audits = audits := by
      simp only [step]
      split
      · rename_i audits' h
        rw [hrun] at h
        exact (Except.ok.inj h).symm
      · rename_i error h
        rw [hrun] at h
        cases h
    rw [hstep]
    exact mirrored_iff s.one s.titled hrun
  | reconcile report => exact Iff.rfl
  | patch now assetId body => exact Iff.rfl
  | resolve id now username => exact Iff.rfl

/-- Along any history every completed audit leaves the alerts in step with the gaps if and only if
every completed audit finds them up to date. -/
theorem in_step_iff_maintained (s : State) (events : List Event) :
    Along (step P A) (InStep P A) s events ↔ Along (step P A) (Maintained P) s events :=
  along_iff_of_invariant (fun _ => True) (fun s e _ => inStep_iff P A s e)
    (fun _ _ _ _ => trivial) trivial events

/-- The server, the frameworks, and no audit yet. -/
def State.start : State where
  db := { Database.empty with assets := ⟨[server.toAsset], by decide⟩ }
  lastPatch := fun _ => none
  catalog := frameworks
  audits := .empty
  nextRun := 0
  one := fun _ h => absurd h List.not_mem_nil
  titled := fun _ h => absurd h List.not_mem_nil

/-- An audit, a report that gives the server another name, and the next audit. -/
def renamed : List Event :=
  [.audit 5 6 "scheduler",
    .reconcile
      { source := "cmdb_servicenow"
        data := { ip := .value "10.0.0.1", name := .value "db-02" } },
    .audit 7 8 "scheduler"]

theorem renamed_gap_alerted_twice :
    ¬ Along (step Primitives.plain Reconciler.Addressing.canonical)
      (InStep Primitives.plain Reconciler.Addressing.canonical) State.start renamed := by
  decide +kernel

end Kepryx.GapAlerts
