import Kepryx.IntegrationSync

/-!
# Disabling an integration that fails

The handler of a failed sync counts the failure in the row of the integration and disables the
integration from the fifth on. A success resets the count. An administrator who enables the
integration again leaves it as it is, so the count is that of the failures since then only if
it was zero. Beside the rows the model keeps what has happened: the failed attempts of each
integration since it was created, synced, or enabled by an update, and those at each disabling.
-/
namespace Kepryx.AutoDisable
open Kepryx.Tables Kepryx.Runs Kepryx.Transactions Kepryx.IntegrationSync

/-! ## What has happened -/

/-- How the turn of an integration ends, and whether the handler disables the integration. -/
inductive Turn where
  | skipped
  | succeeded
  | failed (disables : Bool)
  deriving DecidableEq, Repr

/-- The failed attempts of each integration, and for each disabling by the task the integration
and its failed attempts up to then. -/
structure Ledger where
  failures : ℕ → ℕ := fun _ => 0
  disabled : List (ℕ × ℕ) := []

def Ledger.reset (l : Ledger) (id : ℕ) : Ledger :=
  { l with failures := Function.update l.failures id 0 }

def Ledger.note (l : Ledger) (id : ℕ) : Turn → Ledger
  | .skipped => l
  | .succeeded => l.reset id
  | .failed disables =>
    { failures := Function.update l.failures id (l.failures id + 1)
      disabled := if disables then l.disabled ++ [(id, l.failures id + 1)] else l.disabled }

variable {δ σ Host : Type*}

/-- `if integ.failure_count >= 5`, after the increment. -/
def disables (integ : Integration) (s : Session (Stored δ) (Stored σ)) : Bool :=
  (s.memory.integrations.find integ.id).any fun row => 5 ≤ row.failureCount + 1

/-- How a turn of the loop ends. -/
def turn (B : Backend δ σ) (env : Environment Host σ) (task : Task δ σ) (integ : Integration) :
    Turn :=
  if task.raised then .skipped
  else match env.deliver integ with
    | .noConnector => .skipped
    | .connectorError => .failed (disables integ task.session)
    | .hosts hosts =>
      match reconcileAll B env integ hosts task.session with
      | (_, none) => .succeeded
      | (s, some _) => .failed (disables integ s)

/-- A turn of the loop in `_sync_all`, noted. -/
def syncNoted (B : Backend δ σ) (env : Environment Host σ) (p : Task δ σ × Ledger)
    (integ : Integration) : Task δ σ × Ledger :=
  (syncOne B env p.1 integ, p.2.note integ.id (turn B env p.1 integ))

/-! ## The endpoints -/

/-- `get_connector`, `protect_connector_config` and `validate_schedule`, with nothing for a
`ValueError`. -/
structure Checks where
  known : String → Bool
  protectConfig : String → List (String × String) → Option (List (String × String))
  validSchedule : String → Bool

/-- `IntegrationCreate` -/
structure IntegrationCreate where
  name : String
  connectorType : String
  config : List (String × String)
  scheduleCron : String := "0 */6 * * *"

/-- `IntegrationUpdate` -/
structure IntegrationUpdate where
  config : Option (List (String × String)) := none
  scheduleCron : Option String := none
  enabled : Option Bool := none

variable (checks : Checks)

/-- The row that `create_integration` inserts, with the columns at their defaults. -/
def newIntegration (id : ℕ) (body : IntegrationCreate) (config : List (String × String)) :
    Integration where
  id := id
  name := body.name
  connectorType := body.connectorType
  config := config

/-- `create_integration` on the integrations; a request that is refused changes nothing. -/
def createIntegration (id : ℕ) (body : IntegrationCreate) (t : Table Integration.id) :
    Option (Table Integration.id) :=
  if !checks.known body.connectorType || t.rows.any (fun row => row.name = body.name) then none
  else do
    let config ← checks.protectConfig body.connectorType body.config
    guard (checks.validSchedule body.scheduleCron)
    t.insert? (newIntegration id body config)

/-- The configuration after `update_integration`. -/
def updatedConfig (body : IntegrationUpdate) (row : Integration) :
    Option (List (String × String)) :=
  match body.config with
  | none => some row.config
  | some config => checks.protectConfig row.connectorType config

/-- The row after `update_integration`, with nothing for a refused request. -/
def updated (body : IntegrationUpdate) (row : Integration) : Option Integration :=
  if body.scheduleCron.all checks.validSchedule then
    (updatedConfig checks body row).map fun config =>
      { row with config := config, enabled := body.enabled.getD row.enabled }
  else none

/-- `update_integration` -/
def updateIntegration (id : ℕ) (body : IntegrationUpdate) (t : Table Integration.id) :
    Option (Table Integration.id) := do
  let row ← t.find id
  let row ← updated checks body row
  return t.put row

/-! ## Histories -/

structure History (δ : Type*) where
  stored : Stored δ
  ledger : Ledger := {}

/-- A sync by whatever connectors and reconciler, or a request to one of the endpoints. -/
inductive Operation (δ σ Host : Type*) where
  | sync (B : Backend δ σ) (env : Environment Host σ) (integrationId : Option ℕ)
  | create (id : ℕ) (body : IntegrationCreate)
  | update (id : ℕ) (body : IntegrationUpdate)

def step (h : History δ) : Operation δ σ Host → History δ
  | .sync B env integrationId =>
    let p := run (syncNoted B env) (⟨.start (withIntegrations B) h.stored, false⟩, h.ledger)
      (enabledIntegrations h.stored integrationId)
    ⟨p.1.session.committed, p.2⟩
  | .create id body =>
    match createIntegration checks id body h.stored.integrations with
    | some t => ⟨{ h.stored with integrations := t }, h.ledger.reset id⟩
    | none => h
  | .update id body =>
    match updateIntegration checks id body h.stored.integrations with
    | some t =>
      ⟨{ h.stored with integrations := t },
        if body.enabled = some true then h.ledger.reset id else h.ledger⟩
    | none => h

/-- Before the first integration is created. -/
def empty (inventory : δ) : History δ := ⟨⟨.empty, inventory⟩, {}⟩

/-- Whenever the task disabled an integration, that had failed in five attempts at least. -/
def FiveFailures (h : History δ) : Prop := ∀ x ∈ h.ledger.disabled, 5 ≤ x.2

/-- An update enables an integration only while no failure is counted in its row. -/
def EnabledAtZero (h : History δ) : Operation δ σ Host → Prop
  | .update id body =>
    body.enabled = some true → ∀ row ∈ h.stored.integrations.find id, row.failureCount = 0
  | _ => True

instance (h : History δ) : (op : Operation δ σ Host) → Decidable (EnabledAtZero h op)
  | .update id body => inferInstanceAs (Decidable (body.enabled = some true →
      ∀ row ∈ h.stored.integrations.find id, row.failureCount = 0))
  | .sync _ _ _ => isTrue trivial
  | .create _ _ => isTrue trivial

/-- The loop with the notes is the loop. -/
theorem run_syncNoted (B : Backend δ σ) (env : Environment Host σ) (integs : List Integration)
    (task : Task δ σ) (l : Ledger) :
    (run (syncNoted B env) (task, l) integs).1 = run (syncOne B env) task integs := by
  induction integs generalizing task l with
  | nil => rfl
  | cons integ integs ih => exact ih _ _

/-! ## The count of a row and the failures -/

/-- The count of each row is at most the failed attempts of the integration. -/
def Counted (t : Table Integration.id) (l : Ledger) : Prop :=
  ∀ row ∈ t.rows, row.failureCount ≤ l.failures row.id

variable {B : Backend δ σ} {env : Environment Host σ} {integ : Integration} {l : Ledger}

theorem mem_onIntegration {f : Integration → Integration} (hf : ∀ row, (f row).id = row.id)
    {m : Stored σ} {x : Integration} (hx : x ∈ (onIntegration f integ m).integrations.rows) :
    (∃ row ∈ m.integrations.rows, row.id = integ.id ∧ x = f row) ∨
      (x ∈ m.integrations.rows ∧ x.id ≠ integ.id) := by
  unfold onIntegration at hx
  cases hfind : m.integrations.find integ.id with
  | none =>
    rw [hfind] at hx
    exact .inr ⟨hx, Table.find_eq_none.mp hfind x hx⟩
  | some row =>
    rw [hfind] at hx
    obtain ⟨hrow, hid⟩ := Table.find_eq_some.mp hfind
    rcases Table.mem_put.mp hx with ⟨rfl, -⟩ | ⟨hx, hne⟩
    · exact .inl ⟨row, hrow, hid, rfl⟩
    · exact .inr ⟨hx, fun h => hne (h.trans (hid.symm.trans (hf row).symm))⟩

/-- A failure that is counted was noted. -/
theorem Counted.markFailed {m : Stored σ} (h : Counted m.integrations l) (d : Bool) :
    Counted (onIntegration markFailed integ m).integrations (l.note integ.id (.failed d)) := by
  intro x hx
  rcases mem_onIntegration (f := IntegrationSync.markFailed) (fun _ => rfl) hx with
    ⟨row, hrow, hid, rfl⟩ | ⟨hx, hne⟩
  · have hcount := h row hrow
    have hrow' : (IntegrationSync.markFailed row).id = integ.id := hid
    simp only [Ledger.note, hrow', Function.update_self]
    rw [hid] at hcount
    exact Nat.succ_le_succ hcount
  · simp only [Ledger.note, Function.update_of_ne hne]
    exact h x hx

/-- A failure that is noted need not be counted. -/
theorem Counted.failed {t : Table Integration.id} (h : Counted t l) (d : Bool) :
    Counted t (l.note integ.id (.failed d)) := by
  intro x hx
  have hcount := h x hx
  by_cases hid : x.id = integ.id
  · simp only [Ledger.note, hid, Function.update_self]
    rw [hid] at hcount
    omega
  · simp only [Ledger.note, Function.update_of_ne hid]
    exact hcount

/-- Resetting the count of a row keeps the bound, whatever was noted of its integration. -/
theorem Counted.markSuccess {m : Stored σ} (h : Counted m.integrations l) (now : Models.Time)
    (hosts : ℕ) {l' : Ledger} (hl : ∀ id ≠ integ.id, l'.failures id = l.failures id) :
    Counted (onIntegration (markSuccess now hosts) integ m).integrations l' := by
  intro x hx
  rcases mem_onIntegration (f := IntegrationSync.markSuccess now hosts) (fun _ => rfl) hx with
    ⟨row, hrow, hid, rfl⟩ | ⟨hx, hne⟩
  · exact Nat.zero_le _
  · rw [hl x.id hne]
    exact h x hx

/-- What is disabled has failed as often as its row says. -/
theorem five_of_disables {s : Session (Stored δ) (Stored σ)}
    (h : Counted s.memory.integrations l) (hdisables : disables integ s = true) :
    5 ≤ l.failures integ.id + 1 := by
  cases hfind : s.memory.integrations.find integ.id with
  | none => simp [disables, hfind] at hdisables
  | some row =>
    obtain ⟨hmem, hid⟩ := Table.find_eq_some.mp hfind
    have hcount := h row hmem
    rw [hid] at hcount
    have hle : 5 ≤ row.failureCount + 1 := by simpa [disables, hfind] using hdisables
    omega

/-! ## One turn of the loop -/

/-- The loop between two turns: the session sees the integrations that are committed. -/
structure Sound (p : Task δ σ × Ledger) : Prop where
  counted : Counted p.1.session.committed.integrations p.2
  five : ∀ x ∈ p.2.disabled, 5 ≤ x.2
  active : p.1.raised = false → p.1.session.aborted = false
  seen : p.1.raised = false →
    p.1.session.memory.integrations = p.1.session.committed.integrations

/-- The handler commits its count or raises. -/
theorem recordFailure_cases (B : Backend δ σ) (integ : Integration)
    (s : Session (Stored δ) (Stored σ)) :
    ((recordFailure B integ s).raised = true ∧
      (recordFailure B integ s).session.committed = s.committed) ∨
    ((recordFailure B integ s).raised = false ∧
      (recordFailure B integ s).session.aborted = false ∧ s.aborted = false ∧
      (recordFailure B integ s).session.memory = onIntegration markFailed integ s.memory ∧
      (recordFailure B integ s).session.committed.integrations =
        (onIntegration markFailed integ s.memory).integrations) := by
  by_cases hcan : s.aborted = false ∧ B.writable s.memory.inventory = true
  · rw [recordFailure_writable B hcan.1 hcan.2]
    exact .inr ⟨rfl, hcan.1, hcan.1, rfl, rfl⟩
  · have hcommit : (s.assign (onIntegration markFailed integ)).commit (withIntegrations B) =
        ({ s.assign (onIntegration markFailed integ) with aborted := true }, some .database) := by
      cases haborted : s.aborted with
      | true => exact Session.commit_aborted haborted
      | false =>
        refine Session.commit_not_writable (Bool.eq_false_iff.mpr fun hwritable => hcan ?_)
        exact ⟨haborted, hwritable⟩
    simp only [recordFailure, hcommit]
    exact .inl ⟨trivial, rfl⟩

/-- A turn that fails notes the failure whether or not the handler commits it. -/
theorem sound_recordFailure {s : Session (Stored δ) (Stored σ)}
    (hcommitted : Counted s.committed.integrations l) (hfive : ∀ x ∈ l.disabled, 5 ≤ x.2)
    (hmemory : Counted s.memory.integrations l) :
    Sound (recordFailure B integ s, l.note integ.id (.failed (disables integ s))) := by
  have hnoted : ∀ x ∈ (l.note integ.id (.failed (disables integ s))).disabled, 5 ≤ x.2 := by
    intro x hx
    cases hdisables : disables integ s with
    | false =>
      rw [hdisables] at hx
      exact hfive x hx
    | true =>
      rw [hdisables] at hx
      rcases List.mem_append.mp hx with hold | hnew
      · exact hfive x hold
      · rw [List.mem_singleton.mp hnew]
        exact five_of_disables hmemory hdisables
  rcases recordFailure_cases B integ s with
    ⟨hraised, hcommit⟩ | ⟨hraised, hactive, -, hview, hcommit⟩
  · refine ⟨?_, hnoted, fun h => ?_, fun h => ?_⟩
    · show Counted (recordFailure B integ s).session.committed.integrations _
      rw [hcommit]
      exact hcommitted.failed _
    · exact absurd (hraised.symm.trans h) Bool.noConfusion
    · exact absurd (hraised.symm.trans h) Bool.noConfusion
  · refine ⟨?_, hnoted, fun _ => hactive, fun _ => ?_⟩
    · show Counted (recordFailure B integ s).session.committed.integrations _
      rw [hcommit]
      exact hmemory.markFailed _
    · show (recordFailure B integ s).session.memory.integrations = _
      rw [hview, hcommit]

/-- What the `try` block leaves of the integrations. -/
theorem reconcileAll_cases (B : Backend δ σ) (env : Environment Host σ) (integ : Integration)
    {s : Session (Stored δ) (Stored σ)} (hactive : s.aborted = false) (hosts : List Host) :
    ∃ s' failure, reconcileAll B env integ hosts s = (s', failure) ∧
      (failure = none → s'.aborted = false ∧
        s'.memory.integrations = s'.committed.integrations ∧ s'.committed.integrations =
          (onIntegration (markSuccess env.now hosts.length) integ s.memory).integrations) ∧
      (failure ≠ none → s'.committed = s.committed ∧
        (s'.memory.integrations = s.memory.integrations ∨ s'.memory.integrations =
          (onIntegration (markSuccess env.now hosts.length) integ s.memory).integrations)) := by
  cases hblock : forEach (env.reconcileHost integ.connectorType) hosts s.memory.inventory with
  | mk memory failure =>
    cases failure with
    | some failure =>
      cases failure with
      | python =>
        exact ⟨_, _, reconcileAll_python B env hactive hblock, by simp, fun _ => ⟨rfl, .inl rfl⟩⟩
      | database =>
        exact ⟨_, _, reconcileAll_database B env hactive hblock, by simp,
          fun _ => ⟨rfl, .inl rfl⟩⟩
    | none =>
      have hcommit := reconcileAll_commit B env hactive hblock
      dsimp only at hcommit
      by_cases hwritable : B.writable memory = true
      · rw [if_pos hwritable] at hcommit
        exact ⟨_, _, hcommit, fun _ => ⟨hactive, rfl, rfl⟩, fun h => absurd rfl h⟩
      · rw [if_neg hwritable] at hcommit
        exact ⟨_, _, hcommit, by simp, fun _ => ⟨rfl, .inr rfl⟩⟩

theorem sound_syncNoted {p : Task δ σ × Ledger} (h : Sound p) (integ : Integration) :
    Sound (syncNoted B env p integ) := by
  obtain ⟨task, l⟩ := p
  cases hraised : task.raised with
  | true =>
    have hstay : syncNoted B env (task, l) integ = (task, l) := by
      simp only [syncNoted, syncOne, turn, hraised, if_true, Ledger.note]
    rw [hstay]
    exact h
  | false =>
    have hactive : task.session.aborted = false := h.active hraised
    have hseen : task.session.memory.integrations = task.session.committed.integrations :=
      h.seen hraised
    have hmemory : Counted task.session.memory.integrations l := hseen ▸ h.counted
    cases hdeliver : env.deliver integ with
    | noConnector =>
      have hstay : syncNoted B env (task, l) integ = (task, l) := by
        simp [syncNoted, syncOne, turn, hraised, hdeliver, Ledger.note]
      rw [hstay]
      exact h
    | connectorError =>
      have hturn : syncNoted B env (task, l) integ = (recordFailure B integ task.session,
          l.note integ.id (.failed (disables integ task.session))) := by
        simp [syncNoted, syncOne, turn, hraised, hdeliver]
      rw [hturn]
      exact sound_recordFailure h.counted h.five hmemory
    | hosts hosts =>
      obtain ⟨s', failure, hreconcile, hok, hfailed⟩ :=
        reconcileAll_cases B env integ hactive hosts
      cases failure with
      | none =>
        obtain ⟨hactive', hseen', hcommitted⟩ := hok rfl
        have hturn : syncNoted B env (task, l) integ =
            (⟨s', false⟩, l.note integ.id .succeeded) := by
          simp [syncNoted, syncOne, turn, hraised, hdeliver, hreconcile]
        rw [hturn]
        refine ⟨?_, h.five, fun _ => hactive', fun _ => hseen'⟩
        show Counted s'.committed.integrations _
        rw [hcommitted]
        exact hmemory.markSuccess _ _ fun id hid => Function.update_of_ne hid ..
      | some failure =>
        obtain ⟨hcommitted, hview⟩ := hfailed (Option.some_ne_none _)
        have hturn : syncNoted B env (task, l) integ = (recordFailure B integ s',
            l.note integ.id (.failed (disables integ s'))) := by
          simp [syncNoted, syncOne, turn, hraised, hdeliver, hreconcile]
        rw [hturn]
        refine sound_recordFailure (hcommitted ▸ h.counted) h.five ?_
        rcases hview with hview | hview
        · exact hview ▸ hmemory
        · rw [hview]
          exact hmemory.markSuccess _ _ fun id _ => rfl

/-! ## Every history -/

/-- The count of each row is at most the failed attempts since the integration was created,
synced, or enabled by an update, and every disabling came after five of these. -/
structure Invariant (h : History δ) : Prop where
  counted : Counted h.stored.integrations h.ledger
  five : FiveFailures h

theorem Counted.reset {t : Table Integration.id} (h : Counted t l) {id : ℕ}
    (hzero : ∀ row ∈ t.rows, row.id = id → row.failureCount = 0) : Counted t (l.reset id) := by
  intro row hrow
  by_cases hid : row.id = id
  · rw [hzero row hrow hid]
    exact Nat.zero_le _
  · simp only [Ledger.reset, Function.update_of_ne hid]
    exact h row hrow

variable {checks}

theorem createIntegration_rows {id : ℕ} {body : IntegrationCreate}
    {t t' : Table Integration.id} (h : createIntegration checks id body t = some t') :
    ∃ config, t'.rows = t.rows ++ [newIntegration id body config] ∧ t.find id = none := by
  unfold createIntegration at h
  split at h
  · cases h
  · obtain ⟨config, -, h⟩ := Option.bind_eq_some_iff.mp h
    obtain ⟨-, -, hinsert⟩ := Option.bind_eq_some_iff.mp h
    obtain ⟨hrows, hnone⟩ := Table.insert?_eq_some hinsert
    exact ⟨config, hrows, hnone⟩

/-- An update writes neither the identifier nor the count. -/
theorem updateIntegration_rows {id : ℕ} {body : IntegrationUpdate}
    {t t' : Table Integration.id} (h : updateIntegration checks id body t = some t') :
    ∃ row ∈ t.rows, row.id = id ∧ ∀ x ∈ t'.rows, x ∈ t.rows ∨
      (x.id = id ∧ x.failureCount = row.failureCount) := by
  obtain ⟨row, hfind, h⟩ := Option.bind_eq_some_iff.mp h
  obtain ⟨row', hupdated, hput⟩ := Option.bind_eq_some_iff.mp h
  obtain ⟨hrow, hid⟩ := Table.find_eq_some.mp hfind
  cases hput
  unfold updated at hupdated
  split at hupdated
  · obtain ⟨config, -, rfl⟩ := Option.map_eq_some_iff.mp hupdated
    refine ⟨row, hrow, hid, fun x hx => ?_⟩
    rcases Table.mem_put.mp hx with ⟨rfl, -⟩ | ⟨hx, -⟩
    · exact .inr ⟨hid, rfl⟩
    · exact .inl hx
  · cases hupdated

theorem invariant_step {h : History δ} (hinv : Invariant h) (op : Operation δ σ Host)
    (henabled : EnabledAtZero h op) : Invariant (step checks h op) := by
  cases op with
  | sync B env integrationId =>
    have hsound : Sound (run (syncNoted B env)
        (⟨.start (withIntegrations B) h.stored, false⟩, h.ledger)
        (enabledIntegrations h.stored integrationId)) := by
      refine run_invariant Sound (fun p integ hp => sound_syncNoted hp integ) ?_ _
      exact ⟨hinv.counted, hinv.five, fun _ => rfl, fun _ => rfl⟩
    exact ⟨hsound.counted, hsound.five⟩
  | create id body =>
    cases hcreate : createIntegration checks id body h.stored.integrations with
    | none =>
      have hstay : step checks h (.create id body : Operation δ σ Host) = h := by
        simp only [step, hcreate]
      rw [hstay]
      exact hinv
    | some t =>
      obtain ⟨config, hrows, hnone⟩ := createIntegration_rows hcreate
      simp only [step, hcreate]
      refine ⟨?_, hinv.five⟩
      intro row hrow
      rw [hrows] at hrow
      rcases List.mem_append.mp hrow with hold | hnew
      · have hne : row.id ≠ id := Table.find_eq_none.mp hnone row hold
        simp only [Ledger.reset, Function.update_of_ne hne]
        exact hinv.counted row hold
      · rw [List.mem_singleton.mp hnew]
        exact Nat.zero_le _
  | update id body =>
    cases hupdate : updateIntegration checks id body h.stored.integrations with
    | none =>
      have hstay : step checks h (.update id body : Operation δ σ Host) = h := by
        simp only [step, hupdate]
      rw [hstay]
      exact hinv
    | some t =>
      obtain ⟨row, hrow, hid, hrows⟩ := updateIntegration_rows hupdate
      have hcounted : Counted t h.ledger := by
        intro x hx
        rcases hrows x hx with hold | ⟨hxid, hcount⟩
        · exact hinv.counted x hold
        · rw [hxid, hcount, ← hid]
          exact hinv.counted row hrow
      simp only [step, hupdate]
      split_ifs with hbody
      · refine ⟨hcounted.reset fun x hx hxid => ?_, hinv.five⟩
        have hzero : row.failureCount = 0 :=
          henabled hbody row (Table.find_eq_some.mpr ⟨hrow, hid⟩)
        rcases hrows x hx with hold | ⟨-, hcount⟩
        · have heq := Table.eq_of_key hold hrow (hxid.trans hid.symm)
          rw [heq, hzero]
        · rw [hcount, hzero]
      · exact ⟨hcounted, hinv.five⟩

/-- In every history in which an update enables an integration only while its count is zero,
an integration is disabled by the task only after five failed attempts since it was created,
last synced, or last enabled by an update. -/
theorem disabled_after_five (checks : Checks) (inventory : δ) (ops : List (Operation δ σ Host))
    (h : Along (step checks) EnabledAtZero (empty inventory) ops) :
    Always (step checks) FiveFailures (empty inventory) ops := by
  have hstart : Invariant (empty inventory) :=
    ⟨fun row hrow => absurd hrow List.not_mem_nil, fun x hx => absurd hx List.not_mem_nil⟩
  have halways := always_of_along (I := Invariant)
    (fun s op hs hop => invariant_step hs op hop) hstart h
  exact halways.mono fun s hs => hs.five

/-! ## A connector that fails -/

/-- An inventory without assets. -/
def noInventory : Backend Unit Unit where
  load := id
  stored := id
  writable _ := true
  stored_load _ := rfl
  writable_load _ := rfl

/-- A connector whose fetch raises. -/
def failing : Environment Unit Unit where
  deliver _ := .connectorError
  reconcileHost _ _ m := (m, none)
  now := 0

def allKnown : Checks := ⟨fun _ => true, fun _ config => some config, fun _ => true⟩

def creation : Operation Unit Unit Unit := .create 1 ⟨"Nessus", "vuln_nessus", [], "0 */6 * * *"⟩

def failedSync : Operation Unit Unit Unit := .sync noInventory failing none

def enabling : Operation Unit Unit Unit := .update 1 { enabled := some true }

/-- It is enabled while no failure is counted, and then fails in five syncs. -/
theorem disabled_after_five_once :
    Always (step allKnown) FiveFailures (empty ())
      (creation :: enabling :: List.replicate 5 failedSync) ∧
    (run (step allKnown) (empty ())
      (creation :: enabling :: List.replicate 5 failedSync)).ledger.disabled = [(1, 5)] :=
  ⟨disabled_after_five allKnown () _ (by decide), by decide⟩

/-- It fails in five syncs, is disabled, is enabled again by an update, and fails once. -/
def failsAgain : List (Operation Unit Unit Unit) :=
  creation :: List.replicate 5 failedSync ++ [enabling, failedSync]

/-- The second time it is disabled after one failed attempt. -/
theorem disabled_after_one :
    (run (step allKnown) (empty ()) failsAgain).ledger.disabled = [(1, 5), (1, 1)] ∧
      ¬ FiveFailures (run (step allKnown) (empty ()) failsAgain) := by
  have hdisabled : (run (step allKnown) (empty ()) failsAgain).ledger.disabled =
      [(1, 5), (1, 1)] := by decide
  refine ⟨hdisabled, fun h => ?_⟩
  have hfive := h (1, 1) (by rw [hdisabled]; decide)
  revert hfive
  decide

end Kepryx.AutoDisable
