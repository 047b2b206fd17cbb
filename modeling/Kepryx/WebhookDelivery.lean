import Kepryx.WebhookDispatch

/-!
# Deliveries are recorded when every status fits

All deliveries of an event share one session and one commit. The text of a failed post is cut
to 60 characters, but the column takes 32, so one failure with a text of more than 24
characters makes the commit fail and nothing is recorded for any webhook. The error that
tenacity raises after the last attempt is always that long.
-/
namespace Kepryx.WebhookDispatch
open Kepryx.Models Kepryx.Tables Kepryx.JsonText

variable {Address : Type}

/-- The post that a delivery makes, if its checks let it through. -/
def posting (env : Surroundings Address) (w : Webhook) (eventType : String)
    (data : List (String × Json)) : Option (Except String ℕ) :=
  match checks env w with
  | .ok (.ok d) => some (postWithRetry env w.url d.hostname d.resolvedIp d.secret eventType data)
  | _ => none

/-- The checks raise nothing, and what the delivery records fits its columns. -/
def Recordable (env : Surroundings Address) (w : Webhook) (eventType : String)
    (data : List (String × Json)) : Prop :=
  (∃ r, checks env w = .ok r) ∧
    match posting env w eventType data with
    | none => True
    | some (.ok _) => w.deliveryCount < maxInteger
    | some (.error text) => text.length ≤ 24 ∧ w.failureCount < maxInteger

/-! ## What one delivery records -/

theorem answerOf_ok {a : Attempt} {code : ℕ} (h : answerOf a = .ok code) : code < 300 := by
  cases a with
  | answer c =>
    simp only [answerOf] at h
    split_ifs at h with h1 h2
    cases h
    exact h2.2
  | httpError className => simp [answerOf] at h
  | exception text => simp [answerOf] at h

theorem retrying_ok {address : String} {attempt : ℕ → Attempt} {left n code : ℕ}
    (h : retrying address attempt left n = .ok code) : code < 300 := by
  induction left generalizing n with
  | zero =>
    unfold retrying at h
    split at h
    · rename_i c hc
      cases h
      exact answerOf_ok hc
    · cases h
    · cases h
  | succ left ih =>
    unfold retrying at h
    split at h
    · rename_i c hc
      cases h
      exact answerOf_ok hc
    · cases h
    · exact ih h

theorem postWithRetry_ok {env : Surroundings Address} {url hostname resolvedIp secret : String}
    {eventType : String} {data : List (String × Json)} {code : ℕ}
    (h : postWithRetry env url hostname resolvedIp secret eventType data = .ok code) :
    code < 300 := by
  unfold postWithRetry at h
  split at h
  · cases h
  · exact retrying_ok h

theorem length_cut (n : ℕ) (text : String) : (cut n text).length = min n text.length := by
  simp [cut, String.length_ofList, String.length_toList]

theorem fits_iff {w : Webhook} : fits w ↔ (∀ s ∈ w.lastStatus, s.length ≤ 32) ∧
    w.deliveryCount ≤ maxInteger ∧ w.failureCount ≤ maxInteger := by
  simp [fits, Option.all_eq_true, and_assoc]

theorem fits_recordFailure {w : Webhook} (hw : fits w) (text : String) :
    fits (recordFailure text w) ↔ text.length ≤ 24 ∧ w.failureCount < maxInteger := by
  have hstart : "failed: ".length = 8 := by decide
  rw [fits_iff] at hw ⊢
  simp only [recordFailure, Option.mem_some_iff, forall_eq', String.length_append, length_cut,
    hstart]
  omega

theorem length_toString_le {n : ℕ} (h : n < 300) : (toString n).length ≤ 3 := by
  revert n
  decide +kernel

theorem fits_recordSuccess (w : Webhook) {code : ℕ} (hcode : code < 300) (now : Time) :
    fits (recordSuccess now code w) ↔ w.deliveryCount < maxInteger := by
  have hstart : "success_".length = 8 := by decide
  have hdigits := length_toString_le hcode
  rw [fits_iff]
  simp only [recordSuccess, Option.mem_some_iff, forall_eq', String.length_append, hstart]
  omega

/-- The row after a delivery; a delivery that raises changes nothing. -/
def outcome (env : Surroundings Address) (w : Webhook) (eventType : String)
    (data : List (String × Json)) : Webhook :=
  match dispatchOne env w eventType data with
  | .ok (w', _) => w'
  | .error _ => w

section One
variable {env : Surroundings Address} {w : Webhook} {eventType : String}
  {data : List (String × Json)}

/-- The statuses of the checks fit the column. -/
theorem checks_status {status error : String} (h : checks env w = .ok (.error (status, error))) :
    status.length ≤ 32 := by
  unfold checks at h
  split at h
  · cases h
  · split at h
    · cases h
      decide
    · split_ifs at h
      · cases h
        decide
      · split at h
        · cases h
        · cases h
          decide
        · split at h <;> cases h
          decide

variable (eventType data) in
/-- The three ways in which a delivery that raises nothing changes its row. -/
theorem outcome_cases {r : Except (String × String) Destination} (h : checks env w = .ok r) :
    (posting env w eventType data = none ∧
      ∃ status, status.length ≤ 32 ∧
        outcome env w eventType data = { w with lastStatus := some status }) ∨
    (∃ code, posting env w eventType data = some (.ok code) ∧ code < 300 ∧
      outcome env w eventType data = recordSuccess env.now code w) ∨
    ∃ text, posting env w eventType data = some (.error text) ∧
      outcome env w eventType data = recordFailure text w := by
  cases r with
  | error e =>
    exact .inl ⟨by simp only [posting, h], e.1, checks_status h,
      by simp only [outcome, dispatchOne, h]⟩
  | ok d =>
    cases hpost : postWithRetry env w.url d.hostname d.resolvedIp d.secret eventType data with
    | ok code =>
      exact .inr (.inl ⟨code, by simp only [posting, h, hpost], postWithRetry_ok hpost,
        by simp only [outcome, dispatchOne, h, hpost]⟩)
    | error text =>
      exact .inr (.inr ⟨text, by simp only [posting, h, hpost],
        by simp only [outcome, dispatchOne, h, hpost]⟩)

theorem dispatchOne_ok_iff :
    (∃ r, dispatchOne env w eventType data = .ok r) ↔ ∃ r, checks env w = .ok r := by
  unfold dispatchOne
  constructor
  · rintro ⟨r, h⟩
    cases hc : checks env w with
    | error text => simp [hc] at h
    | ok r => exact ⟨r, rfl⟩
  · rintro ⟨r, hc⟩
    rw [hc]
    cases r with
    | error e => exact ⟨_, rfl⟩
    | ok d =>
      dsimp only
      split <;> exact ⟨_, rfl⟩

/-- A delivery is recordable when it raises nothing and its row can be written. -/
theorem recordable_iff (hw : fits w) : Recordable env w eventType data ↔
    (∃ r, dispatchOne env w eventType data = .ok r) ∧ fits (outcome env w eventType data) := by
  rw [dispatchOne_ok_iff, Recordable]
  refine and_congr_right fun ⟨r, h⟩ => ?_
  rcases outcome_cases eventType data h with
    ⟨hpost, status, hlen, hrow⟩ | ⟨code, hpost, hcode, hrow⟩ | ⟨text, hpost, hrow⟩
  · rw [hpost, hrow, fits_iff]
    rw [fits_iff] at hw
    simpa [hlen] using hw.2
  · rw [hpost, hrow, fits_recordSuccess w hcode]
  · rw [hpost, hrow, fits_recordFailure hw]

theorem outcome_id : (outcome env w eventType data).id = w.id := by
  unfold outcome dispatchOne
  split
  · rename_i h
    split at h
    · cases h
    · cases h
      rfl
    · split at h <;> cases h <;> rfl
  · rfl

end One

/-! ## The loop over the webhooks -/

/-- The enabled webhooks whose filters match an event. -/
def matching (d : Webhooks) (eventType severity : String) : List Webhook :=
  (d.table.rows.filter (·.enabled)).filter (accepts eventType severity)

section Sweep
variable {env : ℕ → Surroundings Address} {eventType severity : String}
  {data : List (String × Json)} {ws : List Webhook}

theorem sweep_raised_isNone : (sweep env eventType severity data ws).raised.isNone ↔
    ∀ w ∈ ws.filter (accepts eventType severity),
      ∃ r, dispatchOne (env w.id) w eventType data = .ok r := by
  induction ws with
  | nil => simp [sweep]
  | cons w ws ih =>
    cases ha : accepts eventType severity w with
    | false =>
      rw [List.filter_cons_of_neg (by simp [ha]), ← ih]
      simp [sweep, ha]
    | true =>
      rw [List.filter_cons_of_pos ha, List.forall_mem_cons, ← ih]
      cases h : dispatchOne (env w.id) w eventType data with
      | error text => simp [sweep, ha, h]
      | ok r => simp [sweep, ha, h]

/-- A loop that nothing ends early attempts every matching webhook once and changes each row as
its own delivery does. -/
theorem sweep_eq (h : (sweep env eventType severity data ws).raised.isNone) :
    (sweep env eventType severity data ws).attempted =
        (ws.filter (accepts eventType severity)).map Webhook.id ∧
      (sweep env eventType severity data ws).changed =
        (ws.filter (accepts eventType severity)).map
          fun w => outcome (env w.id) w eventType data := by
  induction ws with
  | nil => simp [sweep]
  | cons w ws ih =>
    cases ha : accepts eventType severity w with
    | false =>
      simp only [sweep, ha] at h ⊢
      rw [List.filter_cons_of_neg (by simp [ha])]
      exact ih h
    | true =>
      rw [List.filter_cons_of_pos ha]
      cases hd : dispatchOne (env w.id) w eventType data with
      | error text => simp [sweep, ha, hd] at h
      | ok r =>
        simp only [sweep, ha, hd, ↓reduceIte] at h ⊢
        simp [ih h, outcome, hd]

end Sweep

section Fire
variable {env : ℕ → Surroundings Address} {eventType severity : String}
  {data : List (String × Json)} {d : Webhooks}

/-- The commit goes through exactly when every matching delivery is recordable. -/
theorem fireEvent_committed_iff : (fireEvent env eventType severity data d).committed ↔
    ∀ w ∈ matching d eventType severity, Recordable (env w.id) w eventType data := by
  have hfit : ∀ w ∈ matching d eventType severity, fits w := fun w hw =>
    d.fit w (List.mem_filter.mp (List.mem_filter.mp hw).1).1
  have hall : (∀ w ∈ matching d eventType severity, Recordable (env w.id) w eventType data) ↔
      (∀ w ∈ matching d eventType severity,
        ∃ r, dispatchOne (env w.id) w eventType data = .ok r) ∧
      ∀ w ∈ matching d eventType severity, fits (outcome (env w.id) w eventType data) := by
    rw [← forall₂_and]
    exact forall₂_congr fun w hw => recordable_iff (hfit w hw)
  rw [hall, matching, ← sweep_raised_isNone]
  unfold fireEvent
  constructor
  · intro h
    dsimp only at h
    split_ifs at h with hfits hraised
    refine ⟨hraised, ?_⟩
    rw [(sweep_eq hraised).2, List.all_map, List.all_eq_true] at hfits
    exact hfits
  · rintro ⟨hraised, hfits⟩
    have hall : (sweep env eventType severity data
        (d.table.rows.filter (·.enabled))).changed.all fits := by
      rw [(sweep_eq hraised).2, List.all_map, List.all_eq_true]
      exact hfits
    rw [dif_pos hall, if_pos hraised]

/-- What a committed event leaves: each matching webhook was attempted and has the row of its own
delivery, and every other row is as before. -/
theorem fireEvent_of_committed (h : (fireEvent env eventType severity data d).committed) :
    (fireEvent env eventType severity data d).attempted =
        (matching d eventType severity).map Webhook.id ∧
      (∀ w ∈ matching d eventType severity,
        (fireEvent env eventType severity data d).stored.table.find w.id =
          some (outcome (env w.id) w eventType data)) ∧
      ∀ k, k ∉ (matching d eventType severity).map Webhook.id →
        (fireEvent env eventType severity data d).stored.table.find k = d.table.find k := by
  unfold fireEvent at h ⊢
  dsimp only at h ⊢
  split_ifs at h ⊢ with hfits hraised
  obtain ⟨hattempted, hchanged⟩ := sweep_eq hraised
  have hids : ((matching d eventType severity).map
      fun w => outcome (env w.id) w eventType data).map Webhook.id =
      (matching d eventType severity).map Webhook.id := by
    rw [List.map_map]
    exact List.map_congr_left fun w _ => outcome_id
  have hnodup : ((matching d eventType severity).map Webhook.id).Nodup :=
    (((List.filter_sublist.trans List.filter_sublist)).map Webhook.id).nodup d.table.nodup
  refine ⟨hattempted, ?_, ?_⟩
  · intro w hw
    simp only [Webhooks.write, hchanged]
    have hstored : ∀ x ∈ (matching d eventType severity).map
        fun w => outcome (env w.id) w eventType data, (d.table.find x.id).isSome := by
      intro x hx
      obtain ⟨y, hy, rfl⟩ := List.mem_map.mp hx
      rw [outcome_id, Table.find_key (List.mem_filter.mp (List.mem_filter.mp hy).1).1]
      rfl
    have hfound := Table.find_foldl_put (hids ▸ hnodup) hstored (List.mem_map_of_mem hw)
    rwa [outcome_id] at hfound
  · intro k hk
    simp only [Webhooks.write, hchanged]
    exact Table.find_foldl_put_of_notMem (hids ▸ hk)

end Fire

/-! ## Isolated and recorded deliveries -/

/-- Every matching webhook is attempted once and its own outcome committed: a success adds one to
`delivery_count` and clears `failure_count`, a failed post adds one to `failure_count` and
disables the webhook from the tenth on, and a blocked delivery changes the status alone. -/
structure Recorded (env : ℕ → Surroundings Address) (eventType severity : String)
    (data : List (String × Json)) (d : Webhooks) (f : Fired) : Prop where
  attempts : f.attempted = (matching d eventType severity).map Webhook.id
  once : f.attempted.Nodup
  committed : f.committed
  succeeded : ∀ w ∈ matching d eventType severity, ∀ code,
    posting (env w.id) w eventType data = some (.ok code) →
      ∃ w', f.stored.table.find w.id = some w' ∧ w'.deliveryCount = w.deliveryCount + 1 ∧
        w'.failureCount = 0 ∧ w'.enabled
  failed : ∀ w ∈ matching d eventType severity, ∀ text,
    posting (env w.id) w eventType data = some (.error text) →
      ∃ w', f.stored.table.find w.id = some w' ∧ w'.deliveryCount = w.deliveryCount ∧
        w'.failureCount = w.failureCount + 1 ∧ w'.enabled = decide (w'.failureCount < 10)
  blocked : ∀ w ∈ matching d eventType severity, posting (env w.id) w eventType data = none →
    ∃ status, f.stored.table.find w.id = some { w with lastStatus := some status }
  others : ∀ k, k ∉ f.attempted → f.stored.table.find k = d.table.find k

/-- Deliveries are isolated and recorded exactly when no matching delivery raises in its checks
and none fails with a text of more than 24 characters or a full counter. -/
theorem recorded_iff (env : ℕ → Surroundings Address) (eventType severity : String)
    (data : List (String × Json)) (d : Webhooks) :
    Recorded env eventType severity data d (fireEvent env eventType severity data d) ↔
      ∀ w ∈ matching d eventType severity, Recordable (env w.id) w eventType data := by
  rw [← fireEvent_committed_iff]
  constructor
  · intro h
    exact h.committed
  · intro h
    obtain ⟨hattempted, hrows, hothers⟩ := fireEvent_of_committed h
    have henabled : ∀ w ∈ matching d eventType severity, w.enabled := fun w hw =>
      (List.mem_filter.mp (List.mem_filter.mp hw).1).2
    have hcases : ∀ w ∈ matching d eventType severity, _ := fun w hw =>
      outcome_cases eventType data
        (fireEvent_committed_iff.mp h w hw).1.choose_spec
    refine ⟨hattempted, ?_, h, ?_, ?_, ?_, hattempted ▸ hothers⟩
    · rw [hattempted]
      exact ((List.filter_sublist.trans List.filter_sublist).map Webhook.id).nodup d.table.nodup
    · intro w hw code hpost
      refine ⟨_, hrows w hw, ?_⟩
      rcases hcases w hw with ⟨hnone, _⟩ | ⟨code', _, _, hrow⟩ | ⟨text, herror, _⟩
      · simp [hpost] at hnone
      · rw [hrow]
        exact ⟨rfl, rfl, henabled w hw⟩
      · simp [hpost] at herror
    · intro w hw text hpost
      refine ⟨_, hrows w hw, ?_⟩
      rcases hcases w hw with ⟨hnone, _⟩ | ⟨code, hok, _⟩ | ⟨text', _, hrow⟩
      · simp [hpost] at hnone
      · simp [hpost] at hok
      · rw [hrow]
        refine ⟨rfl, rfl, ?_⟩
        show (w.enabled && !decide (10 ≤ w.failureCount + 1)) = decide (w.failureCount + 1 < 10)
        rw [henabled w hw, Bool.true_and, ← decide_not, decide_eq_decide]
        omega
    · intro w hw hpost
      rcases hcases w hw with ⟨_, status, _, hrow⟩ | ⟨code, hok, _⟩ | ⟨text, herror, _⟩
      · exact ⟨status, hrow ▸ hrows w hw⟩
      · simp [hpost] at hok
      · simp [hpost] at herror

/-- An enabled webhook without filters and without deliveries. -/
def newWebhook (id : ℕ) : Webhook where
  id := id
  name := "siem"
  url := "https://hooks.example.test/events"
  secretEncrypted := "secret"
  secretSalt := "salt"
  eventTypes := []
  severityFilter := []
  enabled := true
  lastDelivery := none
  deliveryCount := 0
  failureCount := 0
  lastStatus := none

def twoWebhooks : Webhooks where
  table := ⟨[newWebhook 1, newWebhook 2], by decide⟩
  fit := by decide +kernel

/-- One receiver answers 200 and the other 503: neither outcome is recorded. -/
theorem failed_post_discards_event :
    ¬ ∀ (env : ℕ → Surroundings String) (eventType severity : String)
      (data : List (String × Json)) (d : Webhooks),
      Recorded env eventType severity data d (fireEvent env eventType severity data d) := by
  intro h
  have hcommitted := (h (fun id => answering (if id = 1 then 200 else 503)) "alert.created"
    "high" [] twoWebhooks).committed
  revert hcommitted
  decide +kernel

end Kepryx.WebhookDispatch
