import Kepryx.AlertDeduplication

/-!
# Reconcilers that overlap

Scans, integrations and the checks run in tasks of their own. Each reads the committed alerts
and its own, inserts the alert that it did not find, and commits later. No constraint keeps two
of them from inserting the same alert, and the next query that finds both raises.
-/
namespace Kepryx.ConcurrentAlerts
open Kepryx.Models Kepryx.Results Kepryx.Tables Kepryx.Runs Kepryx.SuppressionWindow
open Kepryx.Reconciler Kepryx.AlertDeduplication

/-- A transaction of a task: `now()` is when it started, and nobody else sees what it
inserted. -/
structure Transaction where
  started : Time
  inserted : List Alert := []

/-- The committed alerts, the clock, and the transactions of the running tasks. -/
structure State where
  alerts : List Alert
  clock : Time
  running : List Transaction

/-- Time passes, a task starts a transaction, the one at a position calls `_raise_alert`, commits
or rolls back, or an alert is resolved. -/
inductive Event where
  | wait (microseconds : ℕ)
  | start
  | raiseAlert (n : ℕ) (alert : Alert)
  | commit (n : ℕ)
  | rollback (n : ℕ)
  | resolveAlert (n : ℕ)

/-- The row that a call inserts, with the defaults of its columns. -/
def newAlert (t : Transaction) (alert : Alert) : Alert :=
  { alert with status := .open, createdAt := t.started }

/-- `_raise_alert` in a transaction: its query sees what was committed and its own inserts. -/
def raiseIn (s : State) (t : Transaction) (alert : Alert) : Except DbError Transaction := do
  let visible ← raiseAlert s.clock (s.alerts ++ t.inserted) (newAlert t alert)
  return { t with inserted := visible.drop s.alerts.length }

/-- One event. A task whose query raises is rolled back. -/
def step (s : State) : Event → State
  | .wait microseconds => { s with clock := s.clock + microseconds }
  | .start => { s with running := s.running ++ [{ started := s.clock }] }
  | .raiseAlert n alert =>
    match s.running[n]? with
    | none => s
    | some t =>
      match raiseIn s t alert with
      | .ok t => { s with running := s.running.set n t }
      | .error _ => { s with running := s.running.eraseIdx n }
  | .commit n =>
    match s.running[n]? with
    | none => s
    | some t => { s with alerts := s.alerts ++ t.inserted, running := s.running.eraseIdx n }
  | .rollback n => { s with running := s.running.eraseIdx n }
  | .resolveAlert n => { s with alerts := resolveAlert n s.alerts }

/-- The query of the event raises and aborts its task. -/
def Aborts (s : State) : Event → Prop
  | .raiseAlert n alert =>
    ∃ t, s.running[n]? = some t ∧ raiseIn s t alert = .error .multipleResultsFound
  | _ => False

/-- The event aborts no task and leaves one open alert at most of the last 24 hours for each type
and asset. -/
def Deduplicated (s : State) (e : Event) : Prop :=
  OneYoungOpen (step s e).clock (step s e).alerts ∧ ¬ Aborts s e

/-- What a task inserts in the last 24 hours stays the only open alert of its type and asset: no
other is committed by the time that the task commits, or calls again for them. -/
def Alone (s : State) : Event → Prop
  | .raiseAlert n alert => ∀ t, s.running[n]? = some t → ∀ x ∈ t.inserted, Young s.clock x →
    alertKey x = alertKey alert → recentOpen s.clock s.alerts x.alertType x.assetId = []
  | .commit n => ∀ t, s.running[n]? = some t → ∀ x ∈ t.inserted, Young s.clock x →
    recentOpen s.clock s.alerts x.alertType x.assetId = []
  | _ => True

/-! ## Alerts and inserts together -/

section Together
variable {now : Time} {alerts inserted : List Alert}

/-- Both lists together hold one young open alert for each type and asset if and only if no young
insert meets a committed one. -/
theorem oneYoungOpen_append_iff (halerts : OneYoungOpen now alerts)
    (hinserted : OneYoungOpen now inserted) (hopen : ∀ x ∈ inserted, x.status = .open) :
    OneYoungOpen now (alerts ++ inserted) ↔
      ∀ x ∈ inserted, Young now x → recentOpen now alerts x.alertType x.assetId = [] := by
  unfold OneYoungOpen
  rw [openAlerts_append, oneRecent_append]
  constructor
  · rintro ⟨-, -, hcross⟩ x hx hyoung
    rw [List.eq_nil_iff_forall_not_mem]
    intro y hy
    obtain ⟨hmem, hkey, hyyoung⟩ := mem_recentOpen.mp hy
    exact hcross y hmem x (mem_openAlerts.mpr ⟨hx, hopen x hx⟩) hkey hyyoung hyoung
  · intro hfree
    refine ⟨halerts, hinserted, fun y hy x hx hkey hyyoung hyoung => ?_⟩
    have hnone := hfree x (mem_openAlerts.mp hx).1 hyoung
    have hfound : y ∈ recentOpen now alerts x.alertType x.assetId :=
      mem_recentOpen.mpr ⟨hy, hkey, hyyoung⟩
    rw [hnone] at hfound
    exact absurd hfound List.not_mem_nil

/-- The query over both lists raises if and only if each of them has a match. -/
theorem raiseAlert_error_iff (halerts : OneYoungOpen now alerts)
    (hinserted : OneYoungOpen now inserted) (x : Alert) :
    raiseAlert now (alerts ++ inserted) x = .error .multipleResultsFound ↔
      recentOpen now alerts x.alertType x.assetId ≠ [] ∧
      recentOpen now inserted x.alertType x.assetId ≠ [] := by
  have ha := recentOpen_length_le_one halerts x.alertType x.assetId
  have hi := recentOpen_length_le_one hinserted x.alertType x.assetId
  constructor
  · intro h
    rcases bind_eq_error.mp h with hquery | ⟨found, -, h⟩
    · have hmany := (scalarOneOrNone_error hquery).2
      rw [recentOpen_append, List.length_append] at hmany
      constructor
      · apply List.ne_nil_of_length_pos
        omega
      · apply List.ne_nil_of_length_pos
        omega
    · cases found <;> cases h
  · rintro ⟨hcommitted, hown⟩
    have hmany : 2 ≤ (recentOpen now (alerts ++ inserted) x.alertType x.assetId).length := by
      have ha' := List.length_pos_of_ne_nil hcommitted
      have hi' := List.length_pos_of_ne_nil hown
      rw [recentOpen_append, List.length_append]
      omega
    exact bind_eq_error.mpr (.inl (scalarOneOrNone_of_two_le hmany))

/-- What a call leaves: the same alerts, or one more that met no open one. -/
theorem raiseAlert_cases {visible : List Alert} {x : Alert}
    (h : raiseAlert now alerts x = .ok visible) :
    visible = alerts ∨
      visible = alerts ++ [x] ∧ recentOpen now alerts x.alertType x.assetId = [] := by
  unfold raiseAlert at h
  obtain ⟨found, hfound, h⟩ := bind_eq_ok.mp h
  cases found with
  | some y => exact .inl (Except.ok.inj h).symm
  | none => exact .inr ⟨(Except.ok.inj h).symm, scalarOneOrNone_none hfound⟩

end Together

/-! ## A task on its own -/

theorem newAlert_eq_self {t : Transaction} {x : Alert} (hopen : x.status = .open)
    (hcreated : x.createdAt = t.started) : newAlert t x = x := by
  unfold newAlert
  rw [← hopen, ← hcreated]

/-- The calls of a task that nobody overlaps with. -/
theorem run_calls {clock : Time} {alerts visible : List Alert} (calls : List Alert)
    (inserted : List Alert) (hcalls : ∀ x ∈ calls, x.createdAt = clock ∧ x.status = .open)
    (h : calls.foldlM (raiseAlert clock) (alerts ++ inserted) = .ok visible) :
    ∃ inserted', visible = alerts ++ inserted' ∧
      run step ⟨alerts, clock, [⟨clock, inserted⟩]⟩ (calls.map (.raiseAlert 0)) =
        ⟨alerts, clock, [⟨clock, inserted'⟩]⟩ := by
  induction calls generalizing inserted with
  | nil => exact ⟨inserted, (Except.ok.inj h).symm, rfl⟩
  | cons x calls ih =>
    rw [List.foldlM_cons] at h
    obtain ⟨next, hnext, h⟩ := bind_eq_ok.mp h
    have hx := hcalls x List.mem_cons_self
    have hprefix : ∃ inserted', next = alerts ++ inserted' := by
      rcases raiseAlert_cases hnext with rfl | ⟨rfl, -⟩
      · exact ⟨inserted, rfl⟩
      · exact ⟨inserted ++ [x], List.append_assoc ..⟩
    obtain ⟨inserted', rfl⟩ := hprefix
    obtain ⟨last, hlast, hrun⟩ := ih inserted'
      (fun y hy => hcalls y (List.mem_cons_of_mem _ hy)) h
    refine ⟨last, hlast, ?_⟩
    have hraise : raiseIn ⟨alerts, clock, [⟨clock, inserted⟩]⟩ ⟨clock, inserted⟩ x =
        .ok ⟨clock, inserted'⟩ := by
      unfold raiseIn
      rw [newAlert_eq_self hx.2 hx.1]
      dsimp only
      rw [hnext, ok_bind, List.drop_left]
      rfl
    have hstep : step ⟨alerts, clock, [⟨clock, inserted⟩]⟩ (.raiseAlert 0 x) =
        ⟨alerts, clock, [⟨clock, inserted'⟩]⟩ := by
      simp only [step, List.getElem?_cons_zero, hraise, List.set_cons_zero]
    rw [List.map_cons, run_cons, hstep, hrun]

/-- A task that starts, makes its calls and commits with nobody in between commits what the same
calls give one after the other. -/
theorem run_serial {clock : Time} {alerts visible calls : List Alert}
    (hcalls : ∀ x ∈ calls, x.createdAt = clock ∧ x.status = .open)
    (h : calls.foldlM (raiseAlert clock) alerts = .ok visible) :
    run step ⟨alerts, clock, []⟩ (.start :: calls.map (.raiseAlert 0) ++ [.commit 0]) =
      ⟨visible, clock, []⟩ := by
  obtain ⟨inserted, rfl, hrun⟩ := run_calls calls [] hcalls (by rwa [List.append_nil])
  show run step ⟨alerts, clock, [⟨clock, []⟩]⟩ (calls.map (.raiseAlert 0) ++ [.commit 0]) = _
  unfold run at hrun ⊢
  rw [List.foldl_append, hrun]
  rfl

/-! ## Any interleaving -/

/-- The committed alerts and the inserts of each transaction are in order by themselves. -/
structure Sound (s : State) : Prop where
  one : OneYoungOpen s.clock s.alerts
  inserted : ∀ t ∈ s.running, OneYoungOpen s.clock t.inserted
  opened : ∀ t ∈ s.running, ∀ x ∈ t.inserted, x.status = .open

section Interleavings
variable {s : State} {t t' : Transaction} {n : ℕ}

theorem raiseIn_ok {alert : Alert} (hone : OneYoungOpen s.clock t.inserted)
    (hopen : ∀ x ∈ t.inserted, x.status = .open) (h : raiseIn s t alert = .ok t') :
    OneYoungOpen s.clock t'.inserted ∧ ∀ x ∈ t'.inserted, x.status = .open := by
  unfold raiseIn at h
  obtain ⟨visible, hvisible, h⟩ := bind_eq_ok.mp h
  cases h
  rcases raiseAlert_cases hvisible with rfl | ⟨rfl, hfree⟩
  · rw [List.drop_left]
    exact ⟨hone, hopen⟩
  · rw [List.append_assoc, List.drop_left]
    rw [recentOpen_append] at hfree
    have hnone := (List.append_eq_nil_iff.mp hfree).2
    have hsingle : OneYoungOpen s.clock [newAlert t alert] := List.pairwise_singleton _ _
    constructor
    · refine (oneYoungOpen_append_iff hone hsingle fun x hx => ?_).mpr fun x hx _ => ?_
      · rw [List.mem_singleton.mp hx]
        rfl
      · rw [List.mem_singleton.mp hx]
        exact hnone
    · intro x hx
      rcases List.mem_append.mp hx with hx | hx
      · exact hopen x hx
      · rw [List.mem_singleton.mp hx]
        rfl

/-- A call aborts its task if and only if it meets an insert of its own and a committed alert. -/
theorem aborts_iff (hs : Sound s) (alert : Alert) :
    Aborts s (.raiseAlert n alert) ↔ ¬ Alone s (.raiseAlert n alert) := by
  simp only [Aborts, Alone, not_forall]
  constructor
  · rintro ⟨t, ht, herror⟩
    have hmem := List.mem_of_getElem? ht
    have hquery : raiseAlert s.clock (s.alerts ++ t.inserted) (newAlert t alert) =
        .error .multipleResultsFound := by
      rcases bind_eq_error.mp herror with h | ⟨visible, -, h⟩
      · exact h
      · cases h
    obtain ⟨hcommitted, hown⟩ := (raiseAlert_error_iff hs.one (hs.inserted t hmem) _).mp hquery
    obtain ⟨x, hx⟩ := List.exists_mem_of_ne_nil _ hown
    obtain ⟨hxopen, hkey, hyoung⟩ := mem_recentOpen.mp hx
    refine ⟨t, ht, x, (mem_openAlerts.mp hxopen).1, hyoung, hkey, ?_⟩
    have htype : x.alertType = alert.alertType := congrArg Prod.fst hkey
    have hasset : x.assetId = alert.assetId := congrArg Prod.snd hkey
    rw [htype, hasset]
    exact hcommitted
  · rintro ⟨t, ht, x, hx, hyoung, hkey, hcommitted⟩
    have hmem := List.mem_of_getElem? ht
    have htype : x.alertType = alert.alertType := congrArg Prod.fst hkey
    have hasset : x.assetId = alert.assetId := congrArg Prod.snd hkey
    rw [htype, hasset] at hcommitted
    have hown : x ∈ recentOpen s.clock t.inserted alert.alertType alert.assetId :=
      mem_recentOpen.mpr ⟨mem_openAlerts.mpr ⟨hx, hs.opened t hmem x hx⟩, hkey, hyoung⟩
    have hquery := (raiseAlert_error_iff hs.one (hs.inserted t hmem) (newAlert t alert)).mpr
      ⟨hcommitted, List.ne_nil_of_mem hown⟩
    refine ⟨t, ht, ?_⟩
    unfold raiseIn
    rw [hquery]
    rfl

/-- A call changes neither the committed alerts nor the clock. -/
theorem step_raiseAlert (s : State) (n : ℕ) (alert : Alert) :
    (step s (.raiseAlert n alert)).alerts = s.alerts ∧
      (step s (.raiseAlert n alert)).clock = s.clock := by
  simp only [step]
  split
  · exact ⟨rfl, rfl⟩
  · split
    · exact ⟨rfl, rfl⟩
    · exact ⟨rfl, rfl⟩

theorem deduplicated_step_iff (hs : Sound s) (e : Event) : Deduplicated s e ↔ Alone s e := by
  cases e with
  | wait microseconds =>
    have hlater : OneYoungOpen (s.clock + microseconds) s.alerts :=
      hs.one.later (Int.le_add_of_nonneg_right (Int.natCast_nonneg _))
    exact iff_of_true ⟨hlater, id⟩ trivial
  | start => exact iff_of_true ⟨hs.one, id⟩ trivial
  | raiseAlert n alert =>
    obtain ⟨halerts, hclock⟩ := step_raiseAlert s n alert
    rw [Deduplicated, halerts, hclock, aborts_iff hs, not_not]
    exact and_iff_right hs.one
  | commit n =>
    show OneYoungOpen (step s (.commit n)).clock (step s (.commit n)).alerts ∧ ¬ False ↔ _
    rw [not_false_eq_true, and_true]
    simp only [step, Alone]
    split
    · rename_i hnone
      refine iff_of_true hs.one fun t ht => ?_
      rw [hnone] at ht
      cases ht
    · rename_i t ht
      have hmem := List.mem_of_getElem? ht
      dsimp only
      rw [oneYoungOpen_append_iff hs.one (hs.inserted t hmem) (hs.opened t hmem)]
      constructor
      · intro h t' ht'
        cases ht.symm.trans ht'
        exact h
      · intro h
        exact h t ht
  | rollback n => exact iff_of_true ⟨hs.one, id⟩ trivial
  | resolveAlert n =>
    exact iff_of_true ⟨OneRecent.sublist (openAlerts_resolveAlert n s.alerts) hs.one, id⟩ trivial

/-- Dropping a transaction keeps the others in order. -/
theorem Sound.erase (hs : Sound s) {alerts : List Alert} (hone : OneYoungOpen s.clock alerts)
    (n : ℕ) : Sound ⟨alerts, s.clock, s.running.eraseIdx n⟩ where
  one := hone
  inserted t ht := hs.inserted t (List.mem_of_mem_eraseIdx ht)
  opened t ht := hs.opened t (List.mem_of_mem_eraseIdx ht)

theorem sound_step (hs : Sound s) (e : Event) (h : Deduplicated s e) : Sound (step s e) := by
  obtain ⟨hone, -⟩ := h
  cases e with
  | wait microseconds =>
    refine ⟨hone, fun t ht => ?_, hs.opened⟩
    exact (hs.inserted t ht).later (Int.le_add_of_nonneg_right (Int.natCast_nonneg _))
  | start =>
    refine ⟨hone, fun t ht => ?_, fun t ht => ?_⟩
    · rcases List.mem_append.mp ht with ht | ht
      · exact hs.inserted t ht
      · rw [List.mem_singleton.mp ht]
        exact List.Pairwise.nil
    · rcases List.mem_append.mp ht with ht | ht
      · exact hs.opened t ht
      · rw [List.mem_singleton.mp ht]
        exact fun x hx => absurd hx List.not_mem_nil
  | raiseAlert n alert =>
    simp only [step]
    split
    · exact hs
    · rename_i t ht
      have hmem := List.mem_of_getElem? ht
      split
      · rename_i t' hraise
        obtain ⟨hone', hopen'⟩ := raiseIn_ok (hs.inserted t hmem) (hs.opened t hmem) hraise
        refine ⟨hs.one, fun u hu => ?_, fun u hu => ?_⟩
        · rcases List.mem_or_eq_of_mem_set hu with hu | rfl
          · exact hs.inserted u hu
          · exact hone'
        · rcases List.mem_or_eq_of_mem_set hu with hu | rfl
          · exact hs.opened u hu
          · exact hopen'
      · exact hs.erase hs.one n
  | commit n =>
    simp only [step] at hone ⊢
    split at hone
    · exact hs
    · rename_i t ht
      exact hs.erase hone n
  | rollback n => exact hs.erase hs.one n
  | resolveAlert n => exact ⟨hone, hs.inserted, hs.opened⟩

end Interleavings

/-- In every interleaving the alerts stay de-duplicated and no query aborts its task if and only
if what each task inserts stays the only open alert of its type and asset. -/
theorem deduplicated_iff_alone (clock : Time) (alerts : List Alert)
    (hone : OneYoungOpen clock alerts) (events : List Event) :
    Along step Deduplicated ⟨alerts, clock, []⟩ events ↔
      Along step Alone ⟨alerts, clock, []⟩ events := by
  have hstart : Sound ⟨alerts, clock, []⟩ :=
    ⟨hone, fun _ h => absurd h List.not_mem_nil, fun _ h => absurd h List.not_mem_nil⟩
  exact along_iff_of_invariant Sound (fun s e hs => deduplicated_step_iff hs e)
    (fun s e hs h => sound_step hs e h) hstart events

/-- The call of the gap check for a server. -/
def gapCall : Alert where
  alertType := .edrGap
  severity := .high
  title := "EDR coverage gap: app-01"
  description := "No EDR agent detected on Server asset"
  assetId := some 0
  createdAt := 0

/-- Two checks that both query before either commits. -/
def overlapping : List Event :=
  [.start, .start, .raiseAlert 0 gapCall, .raiseAlert 1 gapCall, .commit 0, .commit 0]

theorem deduplicated_iff_alone_overlapping :
    Along step Deduplicated ⟨[], 0, []⟩ overlapping ↔ Along step Alone ⟨[], 0, []⟩ overlapping :=
  deduplicated_iff_alone 0 [] List.Pairwise.nil overlapping

/-- The alert is committed twice, and the next check of the server is aborted. -/
theorem overlapping_checks_abort :
    ¬ OneYoungOpen 0 (run step ⟨[], 0, []⟩ overlapping).alerts ∧
      Aborts (run step ⟨[], 0, []⟩ (overlapping ++ [.start])) (.raiseAlert 0 gapCall) := by
  constructor
  · decide +kernel
  · unfold Aborts
    exact ⟨{ started := 0 }, rfl, rfl⟩

end Kepryx.ConcurrentAlerts
