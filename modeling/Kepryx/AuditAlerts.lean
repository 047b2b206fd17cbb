import Kepryx.AuditRecord

/-!
# The alerts of an audit

The alert of a gap is found by its asset and its title. Each turn of an audit has a slot of its
own, so what a turn finds there is what the audit found, and what it leaves there is what the
audit leaves.
-/
namespace Kepryx.AuditAlerts
open Kepryx.Models Kepryx.Tables Kepryx.Results
open Kepryx.ComplianceCatalog Kepryx.ComplianceAudit Kepryx.AuditLoop Kepryx.AuditRecord

variable {P : Primitives} {inputs : Inputs} {runId : ℕ} {db : AuditDb}

/-- At most one open alert for each asset and title. -/
def OneOpen (alerts : Alerts) : Prop :=
  ∀ x ∈ alerts.rows, ∀ y ∈ alerts.rows, x.status = .open → y.status = .open →
    x.slot = y.slot → x = y

/-- A record keeps the open alerts apart. -/
theorem writeAlert_oneOpen {alerts alerts' : Alerts} {id : Id} {r : Record}
    (h : writeAlert alerts id r = .ok alerts') (hone : OneOpen alerts) : OneOpen alerts' := by
  rcases writeAlert_cases h with ⟨-, hrows⟩ | ⟨-, -, alert, rest, -, hrows⟩ |
      ⟨-, -, hnone, hrows⟩ | ⟨-, -, rfl⟩
  · have hkept : ∀ x ∈ alerts'.rows, x.status = .open → x ∈ alerts.rows := by
      intro x hx hopen
      rw [hrows] at hx
      obtain ⟨x₀, hx₀, rfl⟩ := List.mem_map.mp hx
      split at hopen
      · cases hopen
      · rw [if_neg ‹_›]
        exact hx₀
    intro x hx y hy hxopen hyopen hslot
    exact hone x (hkept x hx hxopen) y (hkept y hy hyopen) hxopen hyopen hslot
  · have hkeep : ∀ x : GapAlert, (if x.id = alert.id then r.refresh x else x).status = x.status ∧
        (if x.id = alert.id then r.refresh x else x).slot = x.slot := by
      intro x
      split
      · exact ⟨rfl, rfl⟩
      · exact ⟨rfl, rfl⟩
    intro x hx y hy hxopen hyopen hslot
    rw [hrows] at hx hy
    obtain ⟨x₀, hx₀, rfl⟩ := List.mem_map.mp hx
    obtain ⟨y₀, hy₀, rfl⟩ := List.mem_map.mp hy
    rw [(hkeep x₀).1] at hxopen
    rw [(hkeep y₀).1] at hyopen
    rw [(hkeep x₀).2, (hkeep y₀).2] at hslot
    rw [hone x₀ hx₀ y₀ hy₀ hxopen hyopen hslot]
  · have hnew : ∀ x ∈ alerts.rows, x.status = .open → x.slot ≠ r.turn.slot := by
      intro x hx hopen hslot
      have hmem := mem_openAt.mpr ⟨hx, hslot, hopen⟩
      rw [hnone] at hmem
      cases hmem
    intro x hx y hy hxopen hyopen hslot
    simp only [hrows, List.mem_append, List.mem_singleton] at hx hy
    rcases hx with hx | rfl
    · rcases hy with hy | rfl
      · exact hone x hx y hy hxopen hyopen hslot
      · exact absurd hslot (hnew x hx hxopen)
    · rcases hy with hy | rfl
      · exact absurd hslot.symm (hnew y hy hyopen)
      · rfl
  · exact hone

/-- A gap of an asset of high criticality has an open alert afterwards. -/
theorem writeAlert_opened {alerts alerts' : Alerts} {id : Id} {r : Record}
    (h : writeAlert alerts id r = .ok alerts') (hgap : r.result.status ≠ .compliant)
    (hhigh : r.turn.highCriticality = true) :
    ∃ x ∈ alerts'.rows, x.slot = r.turn.slot ∧ x.status = .open := by
  rcases writeAlert_cases h with ⟨hcompliant, -⟩ | ⟨-, -, alert, rest, hfound, hrows⟩ |
      ⟨-, -, -, hrows⟩ | ⟨-, hlow, -⟩
  · exact absurd hcompliant hgap
  · have halert : alert ∈ openAt alerts r.turn.slot := by simp [hfound]
    obtain ⟨hmem, hslot, hopen⟩ := mem_openAt.mp halert
    refine ⟨r.refresh alert, ?_, hslot, hopen⟩
    rw [hrows]
    exact List.mem_map.mpr ⟨alert, hmem, if_pos rfl⟩
  · exact ⟨r.newAlert id, by simp [hrows], rfl, rfl⟩
  · rw [hhigh] at hlow
    cases hlow

/-! ## The whole loop -/

theorem auditLoop_oneOpen (hone : OneOpen db.alerts) {st : Loop}
    (h : auditLoop P inputs runId db = .ok st) : OneOpen st.db.alerts := by
  refine foldlM_invariant (fun _ st => OneOpen st.db.alerts) ?_ hone h
  intro before t after s s' _ hs hstep
  rcases assessControl_ok hstep with ⟨-, rfl⟩ | ⟨control, catalog, mappings, index, alerts, -, -,
    halert, rfl⟩
  · exact hs
  · exact writeAlert_oneOpen halert hs

/-- Turns whose slots `p` leaves out do not change what `p` selects. -/
theorem foldlM_filter {ts : List Turn} {p : GapAlert → Bool} {s s' : Loop}
    (hp : ∀ t ∈ ts, ∀ x : GapAlert, x.slot = t.slot → p x = false)
    (h : ts.foldlM (assessControl P inputs runId) s = .ok s') :
    s'.db.alerts.rows.filter p = s.db.alerts.rows.filter p := by
  refine foldlM_invariant (fun _ st => st.db.alerts.rows.filter p = s.db.alerts.rows.filter p)
    ?_ rfl h
  intro before t after s₀ s₁ hts hs hstep
  rcases assessControl_ok hstep with ⟨-, rfl⟩ | ⟨control, catalog, mappings, index, alerts, -, -,
    halert, rfl⟩
  · exact hs
  · exact (writeAlert_filter halert fun x hx => hp t (by simp [hts]) x hx).trans hs

/-- The part of an audit that a turn with a control plays for the alerts that no other turn can
have in its slot. -/
theorem auditLoop_isolate {st : Loop} (h : auditLoop P inputs runId db = .ok st) {t : Turn}
    (ht : t ∈ turns inputs.assets.rows) (hknown : known inputs t = true) :
    ∃ (r : Record) (id : Id) (alerts₀ alerts₁ : Alerts), r.turn = t ∧
      r.result.status = t.assessment.status ∧ id.run = runId ∧
      writeAlert alerts₀ id r = .ok alerts₁ ∧
      ∀ p : GapAlert → Bool, (∀ t' ∈ turns inputs.assets.rows, t'.key ≠ t.key →
        ∀ x : GapAlert, x.slot = t'.slot → p x = false) →
      alerts₀.rows.filter p = db.alerts.rows.filter p ∧
        st.db.alerts.rows.filter p = alerts₁.rows.filter p := by
  obtain ⟨before, after, hsplit⟩ := List.append_of_mem ht
  have hnodup := turns_nodup inputs.assets
  rw [hsplit, List.map_append, List.map_cons, List.nodup_append, List.nodup_cons] at hnodup
  obtain ⟨-, ⟨hafter, -⟩, hbefore⟩ := hnodup
  unfold auditLoop at h
  rw [hsplit] at h
  obtain ⟨s₀, s₁, h₀, hstep, h₁⟩ := foldlM_split h
  rcases assessControl_ok hstep with ⟨hnone, -⟩ | ⟨control, catalog, mappings, index, alerts, -, -,
    halert, rfl⟩
  · rw [known, hnone] at hknown
    cases hknown
  · refine ⟨_, _, s₀.db.alerts, alerts, rfl, rfl, rfl, halert, fun p hp => ⟨?_, ?_⟩⟩
    · refine foldlM_filter (fun t' ht' x hx => hp t' ?_ ?_ x hx) h₀
      · simp [hsplit, ht']
      · exact hbefore _ (List.mem_map_of_mem ht') _ List.mem_cons_self
    · refine foldlM_filter (fun t' ht' x hx => hp t' ?_ ?_ x hx) h₁
      · simp [hsplit, ht']
      · intro hkey
        exact hafter (hkey ▸ List.mem_map_of_mem ht')

/-- No other turn can have an alert in the slot of a turn. -/
theorem slot_only {assets : List AssessedAsset} {t : Turn} (ht : t ∈ turns assets) :
    ∀ t' ∈ turns assets, t'.key ≠ t.key → ∀ x : GapAlert, x.slot = t'.slot →
      decide (x.slot = t.slot) = false := by
  intro t' ht' hne x hx
  refine decide_eq_false fun hslot => hne ?_
  exact key_eq_of_slot ht' ht (hx.symm.trans hslot)

/-- The turn asks for an alert: its asset misses the control and is of high criticality. -/
def Alarming (inputs : Inputs) (t : Turn) : Prop :=
  t ∈ turns inputs.assets.rows ∧ known inputs t = true ∧ t.rule.check t.asset = false ∧
    t.highCriticality = true

theorem status_ne_compliant {t : Turn} (h : t.rule.check t.asset = false) :
    t.assessment.status ≠ .compliant := by
  intro hcompliant
  rw [(assess_compliant_iff t.rule t.asset).mp hcompliant] at h
  cases h

/-- Every alarming turn has an open alert after the audit. -/
theorem auditLoop_opened {st : Loop} (h : auditLoop P inputs runId db = .ok st) {t : Turn}
    (ht : Alarming inputs t) : ∃ x ∈ st.db.alerts.rows, x.slot = t.slot ∧ x.status = .open := by
  obtain ⟨hturn, hknown, hcheck, hhigh⟩ := ht
  obtain ⟨r, id, alerts₀, alerts₁, hrt, hstatus, -, hwrite, hisolate⟩ :=
    auditLoop_isolate h hturn hknown
  have hgap : r.result.status ≠ .compliant := hstatus ▸ status_ne_compliant hcheck
  obtain ⟨x, hx, hslot, hopen⟩ := writeAlert_opened hwrite hgap (hrt ▸ hhigh)
  have hfilter := (hisolate (fun x => decide (x.slot = t.slot)) (slot_only hturn)).2
  have hmem : x ∈ alerts₁.rows.filter fun x => decide (x.slot = t.slot) :=
    List.mem_filter.mpr ⟨hx, decide_eq_true (hrt ▸ hslot)⟩
  rw [← hfilter] at hmem
  exact ⟨x, (List.mem_filter.mp hmem).1, hrt ▸ hslot, hopen⟩

/-- A record leaves the open alerts of the other slots alone. -/
theorem writeAlert_openAt {alerts alerts' : Alerts} {id : Id} {r : Record}
    {slot : Option ℕ × String} (h : writeAlert alerts id r = .ok alerts')
    (hne : r.turn.slot ≠ slot) : openAt alerts' slot = openAt alerts slot := by
  refine writeAlert_filter h fun x hx => ?_
  by_contra hp
  simp only [Bool.not_eq_false, Bool.and_eq_true, decide_eq_true_eq] at hp
  exact hne (hx.symm.trans (Prod.ext hp.1.1 hp.1.2))

/-- What the loop has done to the alerts. -/
structure Traced (inputs : Inputs) (runId : ℕ) (db : AuditDb) (before : List Turn) (st : Loop) :
    Prop where
  frame : ∀ slot, (∀ t ∈ before, t.slot ≠ slot) → openAt st.db.alerts slot = openAt db.alerts slot
  origin : ∀ x ∈ st.db.alerts.rows,
    (∃ x₀ ∈ db.alerts.rows, x₀.id = x.id ∧ x₀.slot = x.slot ∧
      (x.status = .open → x₀.status = .open)) ∨
    (x.id.run = runId ∧ ∃ t, Alarming inputs t ∧ x.slot = t.slot ∧ openAt db.alerts t.slot = [])

theorem traced_advance {before : List Turn} {st : Loop} {t : Turn} {r : Record}
    {mappings : Mappings} {index : Key → Option Id} {alerts : Alerts} {id : Id}
    (h : Traced inputs runId db before st) (hid : id.run = runId) (hrt : r.turn = t)
    (hstatus : r.result.status = t.assessment.status) (hturn : t ∈ turns inputs.assets.rows)
    (hknown : known inputs t = true) (hnew : ∀ t' ∈ before, t'.slot ≠ t.slot)
    (hwrite : writeAlert st.db.alerts id r = .ok alerts) :
    Traced inputs runId db (before ++ [t]) (st.advance r mappings index alerts) := by
  subst hrt
  constructor
  · intro slot hslot
    have hne : r.turn.slot ≠ slot := hslot r.turn (by simp)
    exact (writeAlert_openAt hwrite hne).trans
      (h.frame slot fun t' ht' => hslot t' (List.mem_append_left _ ht'))
  · intro x hx
    rcases writeAlert_origin hwrite hx with ⟨x₀, hx₀, hxid, hslot, hopen⟩ |
      ⟨hxid, hslot, hgap, hhigh, hnone⟩
    · rcases h.origin x₀ hx₀ with ⟨y, hy, hyid, hyslot, hyopen⟩ | ⟨hrun, t, ht, htslot, hfree⟩
      · exact .inl ⟨y, hy, hyid.trans hxid, hyslot.trans hslot, fun ho => hyopen (hopen ho)⟩
      · exact .inr ⟨hxid ▸ hrun, t, ht, hslot.symm.trans htslot, hfree⟩
    · have hcheck : r.turn.rule.check r.turn.asset = false := by
        by_contra hc
        rw [Bool.not_eq_false] at hc
        exact hgap (hstatus.trans ((assess_compliant_iff _ _).mpr hc))
      refine .inr ⟨by rw [hxid]; exact hid, r.turn, ⟨hturn, hknown, hcheck, hhigh⟩, hslot, ?_⟩
      rw [← h.frame _ hnew]
      exact hnone

theorem auditLoop_traced {st : Loop} (h : auditLoop P inputs runId db = .ok st) :
    Traced inputs runId db (turns inputs.assets.rows) st := by
  refine foldlM_invariant (Traced inputs runId db) ?_ ?_ h
  · intro before t after s s' hturns hs hstep
    have hmem : t ∈ turns inputs.assets.rows := by simp [hturns]
    have hnodup := turns_nodup inputs.assets
    rw [hturns, List.map_append, List.map_cons, List.nodup_append] at hnodup
    have hnew : ∀ t' ∈ before, t'.slot ≠ t.slot := by
      intro t' ht' hslot
      have hmem' : t' ∈ turns inputs.assets.rows := by simp [hturns, ht']
      exact hnodup.2.2 _ (List.mem_map_of_mem ht') _ List.mem_cons_self
        (key_eq_of_slot hmem' hmem hslot)
    rcases assessControl_ok hstep with ⟨-, rfl⟩ | ⟨control, catalog, mappings, index, alerts,
      hsome, -, halert, rfl⟩
    · exact ⟨fun slot hslot => hs.frame slot fun t' ht' => hslot t' (List.mem_append_left _ ht'),
        hs.origin⟩
    · refine traced_advance hs rfl rfl rfl hmem ?_ hnew halert
      simp [known, hsome]
  · exact ⟨fun _ _ => rfl, fun x hx => .inl ⟨x, hx, rfl, rfl, fun h => h⟩⟩

end Kepryx.AuditAlerts
