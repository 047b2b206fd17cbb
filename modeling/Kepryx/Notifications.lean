import Kepryx.Models
import Kepryx.Results
import Kepryx.Runs

/-!
# Notified without a notification

The worker hands each open alert to the channels for its severity, and every failure of a channel
is swallowed: by the loop over the channels, or by the channel itself. The alert is then marked
as notified whatever the channels did.
-/
namespace Kepryx.Notifications
open Kepryx.Models Kepryx.Results Kepryx.Tables Kepryx.Runs

/-! ## `Notifier` -/

inductive Channel where
  | slack | email | pagerduty | syslog
  | other (name : String)
  deriving DecidableEq, Repr

/-- The settings that switch a channel on. -/
structure Settings where
  slackWebhookUrl : String := ""
  smtpHost : String := ""
  pagerdutyKey : String := ""
  deriving DecidableEq, Repr

/-- What the channels are told about an alert. -/
structure Payload where
  id : ℕ
  alertType : String
  severity : String
  title : String
  description : String
  assetId : Option ℕ
  assetName : Option String
  details : List (String × Option String)
  deriving DecidableEq, Repr

/-- What becomes of a message on its way out. -/
inductive Attempt where
  | accepted
  | osError
  | otherError
  deriving DecidableEq, Repr

/-- The exceptions of a channel. -/
inductive SendError where
  | osError
  | otherError
  deriving DecidableEq, Repr

/-- The receivers: what happens to the message of a channel about an alert. -/
abbrev Receivers := Channel → Payload → Attempt

/-- Hand a message over; the value tells that it was. -/
def transmit : Attempt → Except SendError Bool
  | .accepted => .ok true
  | .osError => .error .osError
  | .otherError => .error .otherError

/-- `_slack` -/
def slack (receivers : Receivers) (alert : Payload) : Except SendError Bool :=
  transmit (receivers .slack alert)

/-- `_email` -/
def email (receivers : Receivers) (alert : Payload) : Except SendError Bool :=
  transmit (receivers .email alert)

/-- `_pagerduty` returns without a message unless the alert is critical or high. -/
def pagerduty (receivers : Receivers) (alert : Payload) : Except SendError Bool :=
  if alert.severity ∉ ["critical", "high"] then .ok false
  else transmit (receivers .pagerduty alert)

/-- `_syslog_cef` logs an `OSError` and returns. -/
def syslogCef (receivers : Receivers) (alert : Payload) : Except SendError Bool :=
  match transmit (receivers .syslog alert) with
  | .error .osError => .ok false
  | result => result

/-- `_default_channels` -/
def defaultChannels (severity : String) : List Channel :=
  if severity = "critical" then [.slack, .email, .pagerduty, .syslog]
  else if severity = "high" then [.slack, .email, .syslog]
  else if severity = "medium" then [.slack, .syslog]
  else [.syslog]

/-- The function that the loop calls for a channel, if the channel is switched on. -/
def call (settings : Settings) (receivers : Receivers) (alert : Payload) :
    Channel → Option (Except SendError Bool)
  | .slack => if settings.slackWebhookUrl ≠ "" then some (slack receivers alert) else none
  | .email => if settings.smtpHost ≠ "" then some (email receivers alert) else none
  | .pagerduty => if settings.pagerdutyKey ≠ "" then some (pagerduty receivers alert) else none
  | .syslog => some (syslogCef receivers alert)
  | .other _ => none

/-- One turn of the loop over the channels. -/
def tryChannel (settings : Settings) (receivers : Receivers) (alert : Payload)
    (sent : List Channel) (channel : Channel) : List Channel :=
  match call settings receivers alert channel with
  | some (.ok _) => sent ++ [channel]
  | _ => sent

/-- `channels or self._default_channels(severity)` -/
def channelsOr (channels : List Channel) (severity : String) : List Channel :=
  if channels = [] then defaultChannels severity else channels

/-- `dispatch` -/
def dispatch (settings : Settings) (receivers : Receivers) (alert : Payload)
    (channels : List Channel) : List Channel :=
  (channelsOr channels alert.severity).foldl (tryChannel settings receivers alert) []

/-- The channel took the alert and its message was handed over. -/
def Delivers (settings : Settings) (receivers : Receivers) (alert : Payload) (channel : Channel) :
    Prop :=
  channel ∈ defaultChannels alert.severity ∧
    call settings receivers alert channel = some (.ok true)

instance (settings : Settings) (receivers : Receivers) (alert : Payload) (channel : Channel) :
    Decidable (Delivers settings receivers alert channel) := by
  unfold Delivers
  infer_instance

section Dispatch
variable {settings : Settings} {receivers : Receivers} {alert : Payload} {channel : Channel}

theorem transmit_eq_ok {attempt : Attempt} {b : Bool} :
    transmit attempt = .ok b ↔ attempt = .accepted ∧ b = true := by
  cases attempt <;> simp [transmit, eq_comm]

theorem mem_tryChannel {sent : List Channel} {c : Channel} :
    channel ∈ tryChannel settings receivers alert sent c ↔ channel ∈ sent ∨
      channel = c ∧ ∃ b, call settings receivers alert channel = some (.ok b) := by
  unfold tryChannel
  by_cases hc : channel = c
  · subst hc
    cases call settings receivers alert channel with
    | none => simp
    | some result => cases result <;> simp
  · split
    · simp [hc]
    · simp [hc]

theorem mem_foldl_tryChannel {channels sent : List Channel} :
    channel ∈ channels.foldl (tryChannel settings receivers alert) sent ↔ channel ∈ sent ∨
      channel ∈ channels ∧ ∃ b, call settings receivers alert channel = some (.ok b) := by
  induction channels generalizing sent with
  | nil => simp
  | cons c channels ih =>
    rw [List.foldl_cons, ih, mem_tryChannel, List.mem_cons, or_and_right, or_assoc]

theorem mem_dispatch {channels : List Channel} :
    channel ∈ dispatch settings receivers alert channels ↔
      channel ∈ channelsOr channels alert.severity ∧
        ∃ b, call settings receivers alert channel = some (.ok b) := by
  rw [dispatch, mem_foldl_tryChannel]
  simp

theorem critical_of_pagerduty {severity : String} (h : .pagerduty ∈ defaultChannels severity) :
    severity = "critical" := by
  unfold defaultChannels at h
  split_ifs at h with hcritical
  · exact hcritical
  · simp at h
  · simp at h
  · simp at h

/-- A channel that is on by default stays silent about a failure only on syslog. -/
theorem call_default_eq_false (h : channel ∈ defaultChannels alert.severity) :
    call settings receivers alert channel = some (.ok false) ↔
      channel = .syslog ∧ receivers .syslog alert = .osError := by
  cases channel with
  | slack => simp [call, slack, transmit_eq_ok]
  | email => simp [call, email, transmit_eq_ok]
  | pagerduty =>
    have hcritical : alert.severity = "critical" := critical_of_pagerduty h
    simp [call, pagerduty, hcritical, transmit_eq_ok]
  | syslog =>
    simp only [call, syslogCef, Option.some.injEq, true_and]
    cases receivers .syslog alert <;> simp [transmit]
  | other name => simp [call]

/-- The channel is switched on. -/
def Configured (settings : Settings) : Channel → Prop
  | .slack => settings.slackWebhookUrl ≠ ""
  | .email => settings.smtpHost ≠ ""
  | .pagerduty => settings.pagerdutyKey ≠ ""
  | .syslog => True
  | .other _ => False

/-- A default channel delivers if and only if it is switched on and its receiver accepts. -/
theorem delivers_iff : Delivers settings receivers alert channel ↔
    channel ∈ defaultChannels alert.severity ∧ Configured settings channel ∧
      receivers channel alert = .accepted := by
  refine and_congr_right fun h => ?_
  cases channel with
  | slack => simp [call, slack, Configured, transmit_eq_ok]
  | email => simp [call, email, Configured, transmit_eq_ok]
  | pagerduty =>
    have hcritical : alert.severity = "critical" := critical_of_pagerduty h
    simp [call, pagerduty, Configured, hcritical, transmit_eq_ok]
  | syslog =>
    simp only [call, syslogCef, Configured, Option.some.injEq, true_and]
    cases receivers .syslog alert <;> simp [transmit]
  | other name => simp [call, Configured]

theorem syslog_mem_defaultChannels (severity : String) : .syslog ∈ defaultChannels severity := by
  unfold defaultChannels
  split_ifs <;> simp

/-- A channel listed for an alert delivered it, unless syslog failed with an `OSError`. -/
theorem delivers_of_mem_dispatch (h : channel ∈ dispatch settings receivers alert []) :
    Delivers settings receivers alert channel ∨
      channel = .syslog ∧ receivers .syslog alert = .osError := by
  obtain ⟨hmem, b, hcall⟩ := mem_dispatch.mp h
  have hdefault : channel ∈ defaultChannels alert.severity := hmem
  cases b with
  | true => exact .inl ⟨hdefault, hcall⟩
  | false => exact .inr ((call_default_eq_false hdefault).mp hcall)

theorem syslog_mem_dispatch (h : receivers .syslog alert = .osError) :
    .syslog ∈ dispatch settings receivers alert [] ∧
      ¬ Delivers settings receivers alert .syslog := by
  have hdefault := syslog_mem_defaultChannels alert.severity
  have hcall : call settings receivers alert .syslog = some (.ok false) :=
    (call_default_eq_false hdefault).mpr ⟨rfl, h⟩
  refine ⟨mem_dispatch.mpr ⟨hdefault, false, hcall⟩, fun hdelivers => ?_⟩
  have hdelivered := hdelivers.2
  rw [hcall] at hdelivered
  cases hdelivered

end Dispatch

/-! ## `_dispatch_pending` -/

/-- A row of `alerts`, as far as the worker reads and writes it. -/
structure AlertRow where
  id : ℕ
  alertType : String
  severity : String
  title : String
  description : String
  assetId : Option ℕ
  details : List (String × Option String) := []
  status : AlertStatus := .open
  notified : Bool := false
  notificationChannels : List Channel := []
  deriving DecidableEq, Repr

abbrev Alerts := Table AlertRow.id

/-- What a run meets: its settings, the receivers, the asset names, the order in which the query
returns its rows, and whether the run gets to its commit. An exception of the webhooks is caught
and changes none of it. -/
structure Round where
  settings : Settings
  receivers : Receivers
  assetName : ℕ → Option String
  order : List AlertRow → List AlertRow
  order_perm : ∀ rows, (order rows).Perm rows
  commits : Bool

/-- The rows that the query is about. -/
def awaits (a : AlertRow) : Bool := !a.notified && a.status = .open

/-- The rows that the query returns. -/
def selected (r : Round) (alerts : Alerts) : List AlertRow :=
  (r.order (alerts.rows.filter awaits)).take 100

/-- The payload of an alert. -/
def payload (r : Round) (a : AlertRow) : Payload where
  id := a.id
  alertType := a.alertType
  severity := a.severity
  title := a.title
  description := a.description
  assetId := a.assetId
  assetName := a.assetId.bind r.assetName
  details := a.details

/-- The channels that the notifier reports for an alert. -/
def channelsFor (r : Round) (a : AlertRow) : List Channel :=
  dispatch r.settings r.receivers (payload r a) []

/-- The assignments of the loop over the selected alerts. -/
def markNotified (r : Round) (alerts : Alerts) (a : AlertRow) : AlertRow :=
  if a ∈ selected r alerts then
    { a with notified := true, notificationChannels := channelsFor r a }
  else a

theorem markNotified_id (r : Round) (alerts : Alerts) (a : AlertRow) :
    (markNotified r alerts a).id = a.id := by
  unfold markNotified
  split
  · rfl
  · rfl

/-- `_dispatch_pending`: the alerts and the number that it returns, if it gets to its commit. -/
def dispatchPending (r : Round) (alerts : Alerts) : Option (Alerts × ℕ) :=
  if r.commits then
    some (alerts.mapRows (markNotified r alerts) (markNotified_id r alerts),
      (selected r alerts).length)
  else none

/-- The alerts after a run. -/
def step (alerts : Alerts) (r : Round) : Alerts :=
  match dispatchPending r alerts with
  | some (alerts, _) => alerts
  | none => alerts

/-- Some channel delivered the alert. -/
def Delivered (r : Round) (a : AlertRow) : Prop :=
  ∃ channel, Delivers r.settings r.receivers (payload r a) channel

/-- A run marks an open alert only if it delivered it, and lists only channels that delivered. An
alert that no channel delivered waits for the next run, which selects it unless more than its
limit are waiting. -/
def Faithful (alerts : Alerts) (r : Round) : Prop :=
  ∀ a ∈ alerts.rows, awaits a = true → ∀ b ∈ (step alerts r).rows, b.id = a.id →
    (b.notified = true → Delivered r a ∧
      ∀ channel ∈ b.notificationChannels,
        Delivers r.settings r.receivers (payload r a) channel) ∧
    (¬ Delivered r a → a ∈ selected r alerts → awaits b = true ∧ ∀ next : Round,
      ((step alerts r).rows.filter awaits).length ≤ 100 → b ∈ selected next (step alerts r))

/-- Every alert of a run that commits has a channel for its severity that is switched on and
accepts it, and syslog does not fail with an `OSError`. -/
def Reached (alerts : Alerts) (r : Round) : Prop :=
  r.commits → ∀ a ∈ selected r alerts,
    (∃ channel ∈ defaultChannels a.severity, Configured r.settings channel ∧
      r.receivers channel (payload r a) = .accepted) ∧
    r.receivers .syslog (payload r a) ≠ .osError

section Worker
variable {alerts : Alerts} {r : Round} {a : AlertRow}

theorem mem_selected (h : a ∈ selected r alerts) : a ∈ alerts.rows ∧ awaits a = true :=
  List.mem_filter.mp ((r.order_perm _).mem_iff.mp (List.mem_of_mem_take h))

/-- When few alerts wait, all of them are selected. -/
theorem selected_of_few (hmem : a ∈ alerts.rows) (hawaits : awaits a = true)
    (hfew : (alerts.rows.filter awaits).length ≤ 100) : a ∈ selected r alerts := by
  have hperm := r.order_perm (alerts.rows.filter awaits)
  have hall : selected r alerts = r.order (alerts.rows.filter awaits) :=
    List.take_of_length_le (hperm.length_eq.trans_le hfew)
  rw [hall]
  exact hperm.mem_iff.mpr (List.mem_filter.mpr ⟨hmem, hawaits⟩)

/-- A run changes no alert that it did not select. -/
theorem step_unselected (hmem : a ∈ alerts.rows) (h : a ∉ selected r alerts) :
    a ∈ (step alerts r).rows := by
  unfold step dispatchPending
  by_cases hcommits : r.commits = true
  · rw [if_pos hcommits]
    exact List.mem_map.mpr ⟨a, hmem, if_neg h⟩
  · rw [if_neg hcommits]
    exact hmem

/-- A selected alert after a run that commits. -/
theorem step_selected (hcommits : r.commits = true) (h : a ∈ selected r alerts) {b : AlertRow} :
    b ∈ (step alerts r).rows ∧ b.id = a.id ↔
      b = { a with notified := true, notificationChannels := channelsFor r a } := by
  have hstep : step alerts r =
      alerts.mapRows (markNotified r alerts) (markNotified_id r alerts) := by
    simp [step, dispatchPending, hcommits]
  have hmark : markNotified r alerts a =
      { a with notified := true, notificationChannels := channelsFor r a } := if_pos h
  have hmem : markNotified r alerts a ∈ (step alerts r).rows := by
    rw [hstep]
    exact List.mem_map_of_mem (mem_selected h).1
  rw [← hmark]
  constructor
  · rintro ⟨hb, hid⟩
    exact Table.eq_of_key hb hmem (hid.trans (markNotified_id r alerts a).symm)
  · rintro rfl
    exact ⟨hmem, markNotified_id r alerts a⟩

theorem step_interrupted (hcommits : r.commits = false) : step alerts r = alerts := by
  simp [step, dispatchPending, hcommits]

theorem delivered_iff : Delivered r a ↔ ∃ channel ∈ defaultChannels a.severity,
    Configured r.settings channel ∧ r.receivers channel (payload r a) = .accepted := by
  unfold Delivered
  simp only [delivers_iff]
  rfl

/-- Every listed channel delivered if and only if syslog did not fail with an `OSError`. -/
theorem channels_delivered_iff : (∀ channel ∈ channelsFor r a,
    Delivers r.settings r.receivers (payload r a) channel) ↔
      r.receivers .syslog (payload r a) ≠ .osError := by
  constructor
  · intro hall herror
    have hnot : ¬ Delivers r.settings r.receivers (payload r a) .syslog :=
      (syslog_mem_dispatch herror).2
    have hmem : .syslog ∈ channelsFor r a := (syslog_mem_dispatch herror).1
    exact hnot (hall .syslog hmem)
  · intro hok channel hchannel
    rcases delivers_of_mem_dispatch hchannel with hdelivers | ⟨-, herror⟩
    · exact hdelivers
    · exact absurd herror hok

/-- A run keeps the promise for an alert that it leaves as it was. -/
theorem faithful_of_kept (hmem : a ∈ (step alerts r).rows) (hawaits : awaits a = true)
    {b : AlertRow} (hb : b ∈ (step alerts r).rows) (hid : b.id = a.id) :
    b.notified = false ∧ awaits b = true ∧ ∀ next : Round,
      ((step alerts r).rows.filter awaits).length ≤ 100 → b ∈ selected next (step alerts r) := by
  have hsame : b = a := Table.eq_of_key hb hmem hid
  have hnotified : a.notified = false ∧ a.status = .open := by simpa [awaits] using hawaits
  rw [hsame]
  exact ⟨hnotified.1, hawaits, fun next hfew => selected_of_few hmem hawaits hfew⟩

theorem faithful_iff (alerts : Alerts) (r : Round) : Faithful alerts r ↔ Reached alerts r := by
  constructor
  · intro h hcommits a ha
    obtain ⟨hmem, hawaits⟩ := mem_selected ha
    obtain ⟨hb, hid⟩ := (step_selected hcommits ha).mpr rfl
    obtain ⟨hdelivered, hchannels⟩ := (h a hmem hawaits _ hb hid).1 rfl
    exact ⟨delivered_iff.mp hdelivered, channels_delivered_iff.mp hchannels⟩
  · intro h a hmem hawaits b hb hid
    by_cases hkept : r.commits = true ∧ a ∈ selected r alerts
    · obtain ⟨hcommits, ha⟩ := hkept
      obtain ⟨hdelivered, hsyslog⟩ := h hcommits a ha
      rw [(step_selected hcommits ha).mp ⟨hb, hid⟩]
      have hdelivers : Delivered r a := delivered_iff.mpr hdelivered
      exact ⟨fun _ => ⟨hdelivers, channels_delivered_iff.mpr hsyslog⟩,
        fun hnot => absurd hdelivers hnot⟩
    · have hstays : a ∈ (step alerts r).rows := by
        by_cases ha : a ∈ selected r alerts
        · rw [step_interrupted (by simpa [ha] using hkept)]
          exact hmem
        · exact step_unselected hmem ha
      obtain ⟨hnotified, hwaits, hnext⟩ := faithful_of_kept hstays hawaits hb hid
      refine ⟨fun hmarked => ?_, fun _ _ => ⟨hwaits, hnext⟩⟩
      rw [hnotified] at hmarked
      cases hmarked

end Worker

/-- Along any sequence of runs nothing is lost if and only if every alert of a run that commits
was reached. -/
theorem faithful_iff_reached (alerts : Alerts) (rounds : List Round) :
    Along step Faithful alerts rounds ↔ Along step Reached alerts rounds :=
  along_iff_of_invariant (fun _ => True) (fun alerts r _ => faithful_iff alerts r)
    (fun _ _ _ _ => trivial) trivial rounds

/-- One critical alert. -/
def critical : Alerts :=
  ⟨[{ id := 0, alertType := "shadow_it", severity := "critical", title := "Shadow host",
      description := "test", assetId := none }], by decide⟩

/-- A run in which every receiver fails, syslog with an `OSError`. -/
def outage : Round where
  settings := { slackWebhookUrl := "https://hooks.slack.com/services/T0", smtpHost := "smtp" }
  receivers := fun _ _ => .osError
  assetName := fun _ => none
  order := fun rows => rows
  order_perm := List.Perm.refl
  commits := true

/-- The alert is marked as notified, by syslog, though no channel delivered it. -/
theorem undelivered_alert_marked : ¬ Along step Faithful critical [outage] := by
  rintro ⟨h, -⟩
  have hmarked := (h _ (List.mem_singleton_self _) rfl
    { id := 0, alertType := "shadow_it", severity := "critical", title := "Shadow host",
      description := "test", assetId := none, notified := true,
      notificationChannels := [.syslog] } (by decide +kernel) rfl).1 rfl
  exact absurd (hmarked.2 .syslog (by decide)) (by decide +kernel)

end Kepryx.Notifications
