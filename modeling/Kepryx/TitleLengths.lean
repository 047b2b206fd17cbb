import Kepryx.AssetIntake
import Kepryx.AuditRecord
import Kepryx.ConcurrentAlerts

/-!
# The length of a title

Audits, the reconciler and its two checks put the name of an asset behind a heading of their
own, and each title goes into a column of 255 characters. A name may have as many; the longest
heading, of a gap in some controls of two frameworks, has 36.
-/
namespace Kepryx.TitleLengths

open Kepryx.Models Kepryx.Results Kepryx.Tables Kepryx.Reconciler Kepryx.RiskWriters
open Kepryx.AlertDeduplication Kepryx.ConcurrentAlerts
open Kepryx.ComplianceAudit Kepryx.ComplianceCatalog Kepryx.AuditLoop Kepryx.AuditRecord

/-- A title that is handed to the database for an asset called `name`. -/
inductive Written (name : String) : String → Prop
  | evidence (P : Primitives) (runId draws : ℕ) (inputs : Inputs) (t : Turn)
      (control : FrameworkControl) (catalog : FrameworkCatalog)
      (hturn : t ∈ turns inputs.assets.rows) (hname : t.asset.name = name)
      (hcontrol : inputs.catalog.lookup (t.framework, t.controlId) = some (control, catalog)) :
      Written name (newRecord P runId draws inputs.now t control catalog).evidence.title
  | gap (P : Primitives) (runId draws : ℕ) (inputs : Inputs) (t : Turn)
      (control : FrameworkControl) (catalog : FrameworkCatalog) (id : Id)
      (hturn : t ∈ turns inputs.assets.rows) (hname : t.asset.name = name)
      (hcontrol : inputs.catalog.lookup (t.framework, t.controlId) = some (control, catalog))
      (hstatus : t.assessment.status ≠ .compliant) (hcriticality : t.highCriticality) :
      Written name ((newRecord P runId draws inputs.now t control catalog).newAlert id).title
  | drift (now : Time) (alerts : List Alert) (c : AssetColumns) (data : HostData) (x : Alert)
      (hname : c.name = name) (h : driftAlert now alerts c data = .ok (alerts ++ [x])) :
      Written name x.title
  | shadow (now : Time) (alerts : List Alert) (c : AssetColumns) (source : String) (x : Alert)
      (hname : c.name = name) (h : shadowAlert now alerts c source = .ok (alerts ++ [x])) :
      Written name x.title
  | stale (isoformat : Time → String) (now : Time) (thresholdDays : ℤ) (a : Asset)
      (hname : a.name = name) (hselect : selectStale now thresholdDays a) :
      Written name (staleAlert isoformat now thresholdDays a).title
  | edrGap (now : Time) (a : Asset) (hname : a.name = name) (hselect : selectGap a) :
      Written name (edrAlert now a).title

/-! ## Headings -/

/-- A call of `_raise_alert` that adds an alert adds its own. -/
theorem raised_eq {now : Time} {alerts : List Alert} {alert x : Alert}
    (h : raiseAlert now alerts alert = .ok (alerts ++ [x])) : x = alert := by
  rcases raiseAlert_cases h with hsame | ⟨hadded, -⟩
  · exact absurd hsame (by simp)
  · exact List.singleton_inj.mp (List.append_cancel_left hadded)

theorem drift_title {now : Time} {alerts : List Alert} {c : AssetColumns} {data : HostData}
    {x : Alert} (h : driftAlert now alerts c data = .ok (alerts ++ [x])) :
    x.title = "Service drift on " ++ c.name := by
  unfold driftAlert at h
  dsimp only at h
  split at h
  · rw [raised_eq h]
  · exact absurd (Except.ok.inj h) (by simp)

theorem shadow_title {now : Time} {alerts : List Alert} {c : AssetColumns} {source : String}
    {x : Alert} (h : shadowAlert now alerts c source = .ok (alerts ++ [x])) :
    x.title = "Shadow IT detected: " ++ c.name := by
  unfold shadowAlert at h
  split at h
  · rw [raised_eq h]
  · exact absurd (Except.ok.inj h) (by simp)

/-- A title behind a short heading. -/
theorem heading_fits {heading name : String} (hheading : heading.length ≤ 36)
    (hname : name.length ≤ 219) : (heading ++ name).length ≤ 255 := by
  rw [String.length_append]
  omega

/-- Names of at most 219 characters fit behind every heading. -/
theorem Written.fits {name title : String} (h : Written name title) (hname : name.length ≤ 219) :
    title.length ≤ 255 := by
  cases h with
  | evidence P runId draws inputs t control catalog hturn ht =>
    exact (titlesFit_of_name hturn (ht ▸ hname)).1
  | gap P runId draws inputs t control catalog id hturn ht =>
    exact (titlesFit_of_name hturn (ht ▸ hname)).2
  | drift now alerts c data x hc hdrift =>
    rw [drift_title hdrift]
    exact heading_fits (by decide) (hc ▸ hname)
  | shadow now alerts c source x hc hshadow =>
    rw [shadow_title hshadow]
    exact heading_fits (by decide) (hc ▸ hname)
  | stale isoformat now thresholdDays a ha =>
    exact heading_fits (by decide) (ha ▸ hname)
  | edrGap now a ha =>
    exact heading_fits (by decide) (ha ▸ hname)

/-! ## Audits -/

theorem bindTitle_error {title : String} {e : DbError} (h : bindTitle title = .error e) :
    255 < title.length := by
  unfold bindTitle at h
  split at h
  · assumption
  · cases h

theorem insertRow_ne_dataError {ρ κ : Type*} [DecidableEq κ] {key : ρ → κ} (t : Table key)
    (r : ρ) : insertRow t r ≠ .error .dataError := by
  unfold insertRow
  split
  · exact fun h => nomatch h
  · exact fun h => nomatch h

section Audit
variable {P : Primitives} {inputs : Inputs} {runId : ℕ}

/-- Only a title raises a `DataError`. -/
theorem assessControl_dataError {st : Loop} {t : Turn}
    (h : assessControl P inputs runId st t = .error .dataError) : ¬ TitlesFit t := by
  rintro ⟨hevidence, hgap⟩
  unfold assessControl at h
  split at h
  · cases h
  rename_i control catalog _
  rcases bind_eq_error.mp h with h | ⟨_, -, h⟩
  · exact absurd (bindTitle_error h) (Nat.not_lt.mpr hevidence)
  rcases bind_eq_error.mp h with h | ⟨⟨mappings, index⟩, -, h⟩
  · unfold writeMapping at h
    split at h
    · cases h
    · rcases bind_eq_error.mp h with h | ⟨_, -, h⟩
      · exact insertRow_ne_dataError _ _ h
      · cases h
  rcases bind_eq_error.mp h with h | ⟨alerts, -, h⟩
  · unfold writeAlert at h
    dsimp only at h
    split at h
    · cases h
    split at h
    · split at h
      · cases h
      · rcases bind_eq_error.mp h with h | ⟨_, -, h⟩
        · exact absurd (bindTitle_error h) (Nat.not_lt.mpr hgap)
        · exact insertRow_ne_dataError _ _ h
    · cases h
  · cases h

/-- The name of an audit that ends with a `DataError` is too long. -/
theorem runAudit_dataError {db : AuditDb} (h : runAudit P inputs runId db = .error .dataError) :
    ∃ a ∈ inputs.assets.rows, 219 < a.name.length := by
  rcases bind_eq_error.mp h with h | ⟨st, -, h⟩
  · obtain ⟨t, ht, st, hturn⟩ := foldlM_error h
    refine ⟨t.asset, (mem_turns.mp ht).1, ?_⟩
    by_contra hshort
    exact assessControl_dataError hturn (titlesFit_of_name ht (Nat.not_lt.mp hshort))
  · cases h

end Audit

/-! ## The operations of the reconciler -/

/-- The alerts that were added have titles for names that meet `p`. -/
def Adds (p : String → Prop) (alerts alerts' : List Alert) : Prop :=
  ∃ added, alerts' = alerts ++ added ∧ ∀ x ∈ added, ∃ name, p name ∧ Written name x.title

section Adds
variable {p : String → Prop} {now : Time} {alerts alerts' : List Alert}

theorem adds_refl (alerts : List Alert) : Adds p alerts alerts :=
  ⟨[], by simp, fun _ h => absurd h List.not_mem_nil⟩

theorem Adds.trans {alerts'' : List Alert} (h : Adds p alerts alerts')
    (h' : Adds p alerts' alerts'') : Adds p alerts alerts'' := by
  obtain ⟨added, rfl, hadded⟩ := h
  obtain ⟨added', rfl, hadded'⟩ := h'
  refine ⟨added ++ added', List.append_assoc .., fun x hx => ?_⟩
  rcases List.mem_append.mp hx with hx | hx
  · exact hadded x hx
  · exact hadded' x hx

theorem adds_one {x : Alert} {name : String} (hp : p name) (hadded : alerts' = alerts ++ [x])
    (hwritten : Written name x.title) : Adds p alerts alerts' := by
  refine ⟨[x], hadded, fun y hy => ⟨name, hp, ?_⟩⟩
  rwa [List.mem_singleton.mp hy]

theorem adds_raiseAlert {x : Alert} {name : String} (hp : p name) (hwritten : Written name x.title)
    (h : raiseAlert now alerts x = .ok alerts') : Adds p alerts alerts' := by
  rcases raiseAlert_cases h with rfl | ⟨hadded, -⟩
  · exact adds_refl _
  · exact adds_one hp hadded hwritten

theorem adds_loop {assets : List Asset} {alert : Asset → Alert}
    (hassets : ∀ a ∈ assets, p a.name ∧ Written a.name (alert a).title)
    (h : assets.foldlM (fun alerts a => raiseAlert now alerts (alert a)) alerts = .ok alerts') :
    Adds p alerts alerts' := by
  refine foldlM_invariant (fun _ s => Adds p alerts s) ?_ (adds_refl alerts) h
  intro before a after s s' hxs hs hstep
  obtain ⟨hp, hwritten⟩ := hassets a (by simp [hxs])
  exact hs.trans (adds_raiseAlert hp hwritten hstep)

theorem adds_driftAlert {c : AssetColumns} {data : HostData} (hp : p c.name)
    (h : driftAlert now alerts c data = .ok alerts') : Adds p alerts alerts' := by
  have hraise := h
  unfold driftAlert at hraise
  dsimp only at hraise
  split at hraise
  · rcases raiseAlert_cases hraise with rfl | ⟨hadded, -⟩
    · exact adds_refl _
    · exact adds_one hp hadded (.drift now alerts c data _ rfl (hadded ▸ h))
  · rw [← Except.ok.inj hraise]
    exact adds_refl _

theorem adds_shadowAlert {c : AssetColumns} {source : String} (hp : p c.name)
    (h : shadowAlert now alerts c source = .ok alerts') : Adds p alerts alerts' := by
  have hraise := h
  unfold shadowAlert at hraise
  split at hraise
  · rcases raiseAlert_cases hraise with rfl | ⟨hadded, -⟩
    · exact adds_refl _
    · exact adds_one hp hadded (.shadow now alerts c source _ rfl (hadded ▸ h))
  · rw [← Except.ok.inj hraise]
    exact adds_refl _

end Adds

/-- The names that an operation puts into titles: of stored assets, and of the asset that a
report creates. -/
def Named (db : Database) : Op → String → Prop
  | .reconcileHost r, name => (∃ a ∈ db.assets.rows, a.name = name) ∨ newName r.data = some name
  | _, name => ∃ a ∈ db.assets.rows, a.name = name

/-- The titles that an operation adds are written for its names. -/
theorem perform_adds {A : Addressing} {isoformat : Time → String} {now : Time} {db db' : Database}
    {op : Op} (h : perform A isoformat now db op = some db') :
    Adds (Named db op) db.alerts db'.alerts := by
  cases op with
  | reconcileHost r =>
    obtain ⟨i, hcommit⟩ := perform_reconcile h
    rcases reconcile_alerts hcommit with ⟨a, ha, -, hdrift⟩ | ⟨-, name, type, hnew, hshadow⟩
    · exact adds_driftAlert (.inl ⟨a, ha, rfl⟩) hdrift
    · exact adds_shadowAlert (.inr hnew) hshadow
  | detectStaleAssets n =>
    have hpass := toOption_eq_some.mp h
    unfold detectStaleAssets at hpass
    split at hpass
    · cases hpass
    · rename_i alerts halerts
      cases hpass
      rw [staleAlerts_eq_foldlM] at halerts
      refine adds_loop (fun a ha => ?_) halerts
      obtain ⟨hmem, hselect⟩ := List.mem_filter.mp ha
      exact ⟨⟨a, hmem, rfl⟩, .stale isoformat now n a rfl hselect⟩
  | detectEdrGaps =>
    have hpass := toOption_eq_some.mp h
    obtain ⟨alerts, halerts, hpass⟩ := bind_eq_ok.mp hpass
    cases hpass
    refine adds_loop (fun a ha => ?_) halerts
    obtain ⟨hmem, hselect⟩ := List.mem_filter.mp ha
    exact ⟨⟨a, hmem, rfl⟩, .edrGap now a rfl hselect⟩

/-- The flush of the alerts that an operation added. -/
def flushAlerts (alerts alerts' : List Alert) : Except DbError Unit :=
  (alerts'.drop alerts.length).forM fun x => bindTitle x.title

theorem flushAlerts_ok {p : String → Prop} {alerts alerts' : List Alert}
    (hadds : Adds p alerts alerts') (hnames : ∀ name, p name → name.length ≤ 219) :
    flushAlerts alerts alerts' = .ok () := by
  obtain ⟨added, rfl, hadded⟩ := hadds
  rw [flushAlerts, List.drop_left]
  induction added with
  | nil => rfl
  | cons x added ih =>
    rw [List.forall_mem_cons] at hadded
    obtain ⟨⟨name, hname, hwritten⟩, hrest⟩ := hadded
    have hfits : bindTitle x.title = .ok () :=
      if_neg (Nat.not_lt.mpr (hwritten.fits (hnames name hname)))
    show (bindTitle x.title >>= fun _ => added.forM fun x => bindTitle x.title) = _
    rw [hfits, ok_bind]
    exact ih hrest

/-! ## Names that always fit -/

/-- The title of the alert about an unused account: the retention task names no asset. -/
def inactiveUserTitle (username : String) : String := "Inactive user account: " ++ username

/-- Every title for an asset called `name` fits its column; and where no other name is longer, no
audit, check or report is aborted by a title. -/
structure AlwaysFits (name : String) : Prop where
  written : ∀ title, Written name title → title.length ≤ 255
  audits : ∀ P inputs runId db, (∀ a ∈ inputs.assets.rows, a.name.length ≤ name.length) →
    runAudit P inputs runId db ≠ .error .dataError
  operations : ∀ A isoformat now db db' op, (∀ n, Named db op n → n.length ≤ name.length) →
    perform A isoformat now db op = some db' → flushAlerts db.alerts db'.alerts = .ok ()
  retention : ∀ username : String, username.length ≤ 64 → (inactiveUserTitle username).length ≤ 255

/-- AC-2 of NIST 800-53, with one of the longest headings. -/
def accountControl : String × String × ControlRule := catalogControls.get ⟨7, by decide⟩

def nistFramework : CatalogRows where
  catalogs := ⟨[⟨1, "nist-800-53", "5.1", true⟩], by decide⟩
  controls := ⟨[⟨1, 1, "AC-2", 0⟩], by decide⟩
  catalogs_unique := by decide
  controls_unique := by decide
  references := by decide

/-- The server of high criticality under another name. -/
def named (name : String) : AssessedAsset := { server with name := name }

def namedInputs (name : String) (catalog : CatalogRows) : Inputs where
  assets := ⟨[named name], List.nodup_singleton _⟩
  catalog := catalog
  now := 5
  finished := 6
  initiatedBy := "admin"

/-- A title with 36 characters before the name. -/
theorem exists_long_title (name : String) :
    ∃ title, Written name title ∧ title.length = 36 + name.length := by
  let t : Turn := ⟨named name, accountControl.1, accountControl.2.1, accountControl.2.2⟩
  have hturn : t ∈ turns (namedInputs name nistFramework).assets.rows :=
    mem_turns.mpr ⟨List.mem_singleton_self _, List.get_mem ..⟩
  have hstatus : t.assessment.status ≠ .compliant := by
    rw [Turn.assessment, ne_eq, assess_compliant_iff]
    exact Bool.false_ne_true
  refine ⟨_, .gap AuditRecord.Primitives.plain 0 0 _ t _ _ ⟨0, 0⟩ hturn rfl rfl hstatus rfl, ?_⟩
  show ("Compliance gap: " ++ accountControl.1 ++ " " ++ accountControl.2.1 ++ " on " ++
    name).length = _
  rw [length_append_parts]
  rfl

theorem alwaysFits_iff (name : String) : AlwaysFits name ↔ name.length ≤ 219 := by
  constructor
  · intro h
    obtain ⟨title, hwritten, hlength⟩ := exists_long_title name
    have hfits := h.written title hwritten
    omega
  · intro hname
    constructor
    · exact fun title h => h.fits hname
    · intro P inputs runId db hnames h
      obtain ⟨a, ha, hlong⟩ := runAudit_dataError h
      have hshort := hnames a ha
      omega
    · exact fun A isoformat now db db' op hnames h =>
        flushAlerts_ok (perform_adds h) fun n hn => (hnames n hn).trans hname
    · intro username husername
      have hheading : "Inactive user account: ".length ≤ 36 := by decide
      exact heading_fits hheading (husername.trans (by decide))

/-! ## A name of 255 characters -/

def longName : String := String.ofList (List.replicate 255 'a')

theorem longName_length : longName.length = 255 := by
  unfold longName
  exact String.length_ofList.trans List.length_replicate

/-- The first control that `frameworks` has is the second of the catalog. -/
theorem long_name_dataError :
    runAudit AuditRecord.Primitives.plain (namedInputs longName frameworks) 0 .empty =
      .error .dataError := by
  let turn (n : Fin catalogControls.length) : Turn := ⟨named longName, (catalogControls.get n).1,
    (catalogControls.get n).2.1, (catalogControls.get n).2.2⟩
  have hturns : ∃ rest, turns (namedInputs longName frameworks).assets.rows =
      turn ⟨0, by decide⟩ :: turn ⟨1, by decide⟩ :: rest := ⟨_, rfl⟩
  obtain ⟨rest, hturns⟩ := hturns
  have hskip : ∀ st, assessControl AuditRecord.Primitives.plain (namedInputs longName frameworks) 0
      st (turn ⟨0, by decide⟩) = .ok st := fun st => rfl
  have htitle : ∀ title : String, title = "cis-v8 2.1 evidence for " ++ longName →
      bindTitle title = .error .dataError := by
    rintro _ rfl
    refine if_pos ?_
    rw [String.length_append, longName_length]
    decide
  have hstop : ∀ st, assessControl AuditRecord.Primitives.plain (namedInputs longName frameworks) 0
      st (turn ⟨1, by decide⟩) = .error .dataError := by
    intro st
    exact bind_eq_error.mpr (.inl (htitle _ rfl))
  rw [runAudit, auditLoop, hturns, List.foldlM_cons, hskip, ok_bind, List.foldlM_cons, hstop,
    error_bind, error_bind]

/-- `AssetCreate` takes the name, and an audit of its asset is aborted by a title. -/
theorem long_name_aborts_audit :
    ({ name := longName } : AssetIntake.AssetCreate).Valid ∧
    runAudit AuditRecord.Primitives.plain (namedInputs longName frameworks) 0 .empty =
      .error .dataError ∧
    ¬ AlwaysFits longName := by
  refine ⟨?_, long_name_dataError, fun h => ?_⟩
  · refine ⟨?_, longName_length.le, by decide, by decide, by decide, by decide, by decide,
      by decide⟩
    rw [longName_length]
    decide
  · refine h.audits AuditRecord.Primitives.plain (namedInputs longName frameworks) 0 .empty ?_
      long_name_dataError
    intro a ha
    rw [List.mem_singleton.mp ha]
    rfl

end Kepryx.TitleLengths
