import Kepryx.AlertLifecycle

/-!
# Alerts about inactive users

A retention pass loads the users that have not logged in for long, asks for each of them whether
an open alert is there, adds an alert if not, and commits once at the end. Users change and alerts
are resolved in between, and passes may overlap.
-/
namespace Kepryx.InactiveUsers
open Kepryx.AlertLifecycle Kepryx.Models Kepryx.Runs Kepryx.Tables

/-! ## The users that a pass selects -/

/-- A row of `users`, as far as the pass reads it. -/
structure UserRow where
  id : String
  username : String
  isActive : Bool
  lastLogin : Option Time
  deriving DecidableEq, Repr

/-- `text LIKE pattern`: an underscore is any character, a percent sign any text. -/
def like : List Char → List Char → Bool
  | [], text => text.isEmpty
  | p :: pattern, text =>
    if p = '%' then text.tails.any (like pattern)
    else match text with
      | [] => false
      | c :: text => (p = '_' || p = c) && like pattern text

/-- The condition of the query; a login that never was is before no time. -/
def UserRow.inactive (cutoff : Time) (u : UserRow) : Bool :=
  u.isActive && u.lastLogin.any (· < cutoff) && !like "deleted_user_%".toList u.username.toList

structure Settings where
  inactiveUserFlagDays : ℤ
  isoformat : Time → String

variable (settings : Settings)

def newAlert (u : UserRow) : NewAlert where
  alertType := "inactive_user"
  severity := "medium"
  title := "Inactive user account: " ++ u.username
  description := "User " ++ u.username ++ " has not logged in for >" ++
    toString settings.inactiveUserFlagDays ++
    " days. Consider disabling per NIST 800-53 AC-2 (Account Management)."
  details := [("user_id", some u.id), ("username", some u.username),
    ("last_login", u.lastLogin.map settings.isoformat)]

/-- The query for an open alert about the user. -/
def about (userId : String) (a : StoredAlert) : Bool :=
  a.alertType = "inactive_user" && a.status = .open &&
    (a.details.lookup "user_id").any (· = some userId)

/-! ## Passes -/

/-- A pass between its begin and its commit: the users that it has not come to yet, and those for
whom it adds an alert. -/
structure Pass where
  began : Time
  remaining : List UserRow
  flagged : List UserRow

structure State where
  now : Time
  users : Table UserRow.id
  drawn : ℕ
  alerts : Table StoredAlert.id
  passes : List Pass

/-- Time passes, a user is stored, an alert is resolved, alerts are cleaned up, or a pass begins,
comes to its next user, commits or fails. -/
inductive Event where
  | tick (microseconds : ℕ)
  | store (user : UserRow)
  | resolve (alertId : ℕ) (username : String)
  | cleanup
  | begin
  | check (n : ℕ)
  | commit (n : ℕ)
  | fail (n : ℕ)

/-- The pass comes to its next user. With two open alerts about one user it raises. -/
def Pass.check (alerts : Table StoredAlert.id) (p : Pass) : Option Pass :=
  match p.remaining with
  | [] => some p
  | u :: us =>
    match scalarOneOrNone () (alerts.rows.filter (about u.id)) with
    | .ok none => some { p with remaining := us, flagged := p.flagged ++ [u] }
    | .ok (some _) => some { p with remaining := us }
    | .error _ => none

/-- The alert about a user, under the next identifier, which no row has yet. -/
def State.flag (began : Time) (s : State) (u : UserRow) : State :=
  { s with
    drawn := s.drawn + 1
    alerts := (s.alerts.insert? ((newAlert settings u).row s.drawn began)).getD s.alerts }

def resolveRow (alertId : ℕ) (username : String) (now : Time) (a : StoredAlert) : StoredAlert :=
  if a.id = alertId then a.resolve username now else a

theorem resolveRow_id (alertId : ℕ) (username : String) (now : Time) (a : StoredAlert) :
    (resolveRow alertId username now a).id = a.id := by
  unfold resolveRow
  split <;> rfl

def State.cutoff (s : State) : Time := s.now - days settings.inactiveUserFlagDays

/-- The users that a pass loads. -/
def State.selected (s : State) : List UserRow :=
  s.users.rows.filter (UserRow.inactive (s.cutoff settings))

def step (s : State) : Event → State
  | .tick microseconds => { s with now := s.now + microseconds }
  | .store user => { s with users := s.users.upsert user }
  | .resolve alertId username =>
    { s with
      alerts := s.alerts.mapRows (resolveRow alertId username s.now)
        (resolveRow_id alertId username s.now) }
  | .cleanup => { s with alerts := s.alerts.delete (expired s.now) }
  | .begin => { s with passes := s.passes ++ [⟨s.now, s.selected settings, []⟩] }
  | .check n =>
    match s.passes[n]? with
    | none => s
    | some p =>
      match p.check s.alerts with
      | some p' => { s with passes := s.passes.set n p' }
      | none => { s with passes := s.passes.eraseIdx n }
  | .commit n =>
    match s.passes[n]? with
    | some ⟨began, [], flagged⟩ =>
      flagged.foldl (State.flag settings began) { s with passes := s.passes.eraseIdx n }
    | _ => s
  | .fail n => { s with passes := s.passes.eraseIdx n }

def start (now : Time) : State := ⟨now, .empty, 0, .empty, []⟩

/-! ## Open alerts about a user -/

/-- The number of open alerts about a user. -/
def opened (alerts : Table StoredAlert.id) (userId : String) : ℕ :=
  alerts.rows.countP (about userId)

def AtMostOne (s : State) : Prop := ∀ userId, opened s.alerts userId ≤ 1

/-- Identifiers are drawn once, and a pass loads every user once. -/
structure Consistent (s : State) : Prop where
  drawn : ∀ a ∈ s.alerts.rows, a.id < s.drawn
  distinct : ∀ p ∈ s.passes, ((p.flagged ++ p.remaining).map UserRow.id).Nodup

/-- At a commit nobody has flagged a user of the pass since the pass asked. -/
def FlaggedAlone (s : State) : Event → Prop
  | .commit n => ∀ p, s.passes[n]? = some p → p.remaining = [] →
    ∀ u ∈ p.flagged, opened s.alerts u.id = 0
  | _ => True

/-- The pass does not raise at its next user. -/
def Passes (s : State) : Event → Prop
  | .check n => ∀ p, s.passes[n]? = some p → p.check s.alerts ≠ none
  | _ => True

variable {settings} {s : State}

theorem check_eq_none {alerts : Table StoredAlert.id} {p : Pass} :
    p.check alerts = none ↔ ∃ u us, p.remaining = u :: us ∧ 2 ≤ opened alerts u.id := by
  unfold Pass.check
  cases p.remaining with
  | nil => simp
  | cons u us =>
    have hcount : opened alerts u.id = (alerts.rows.filter (about u.id)).length :=
      List.countP_eq_length_filter
    have hraise : (∃ v vs, u :: us = v :: vs ∧ 2 ≤ opened alerts v.id) ↔
        2 ≤ (alerts.rows.filter (about u.id)).length := by
      rw [← hcount]
      constructor
      · rintro ⟨v, vs, heq, h⟩
        cases heq
        exact h
      · exact fun h => ⟨u, us, rfl, h⟩
    rw [hraise]
    dsimp only
    split
    · rename_i hnone
      rw [scalarOneOrNone_none hnone]
      simp
    · rename_i a hsome
      rw [scalarOneOrNone_some hsome]
      simp
    · rename_i herror
      simp [(scalarOneOrNone_error herror).2]

/-- What a check leaves of a pass. -/
theorem check_eq_some {alerts : Table StoredAlert.id} {p p' : Pass}
    (h : p.check alerts = some p') : p' = p ∨ ∃ u us, p.remaining = u :: us ∧
      (p' = ⟨p.began, us, p.flagged⟩ ∨ p' = ⟨p.began, us, p.flagged ++ [u]⟩) := by
  unfold Pass.check at h
  split at h
  · exact .inl (Option.some.inj h).symm
  · rename_i u us hremaining
    refine .inr ⟨u, us, hremaining, ?_⟩
    split at h
    · exact .inr (Option.some.inj h).symm
    · exact .inl (Option.some.inj h).symm
    · cases h

/-! ### What each event does to the open alerts -/

theorem about_newAlert (u : UserRow) (id : ℕ) (now : Time) (userId : String) :
    about userId ((newAlert settings u).row id now) = decide (u.id = userId) := by
  simp [about, newAlert, NewAlert.row]

variable (settings) in
theorem flag_rows (hs : ∀ a ∈ s.alerts.rows, a.id < s.drawn) (began : Time) (u : UserRow) :
    (s.flag settings began u).alerts.rows =
      s.alerts.rows ++ [(newAlert settings u).row s.drawn began] := by
  cases h : s.alerts.insert? ((newAlert settings u).row s.drawn began) with
  | some t =>
    have hflag : (s.flag settings began u).alerts = t := by rw [State.flag, h, Option.getD_some]
    rw [hflag, (Table.insert?_eq_some h).1]
  | none =>
    obtain ⟨a, ha⟩ := Option.isSome_iff_exists.mp (Table.insert?_eq_none.mp h)
    obtain ⟨ha, hid⟩ := Table.find_eq_some.mp ha
    exact absurd hid (Nat.ne_of_lt (hs a ha))

variable (settings) in
/-- Flagging a list of users adds one open alert about each. -/
theorem opened_foldl_flag (began : Time) (users : List UserRow) {s : State}
    (hs : ∀ a ∈ s.alerts.rows, a.id < s.drawn) :
    (∀ a ∈ (users.foldl (State.flag settings began) s).alerts.rows,
      a.id < (users.foldl (State.flag settings began) s).drawn) ∧
    (users.foldl (State.flag settings began) s).passes = s.passes ∧
    ∀ userId, opened (users.foldl (State.flag settings began) s).alerts userId =
      opened s.alerts userId + users.countP fun u => u.id = userId := by
  induction users generalizing s with
  | nil => exact ⟨hs, rfl, fun _ => rfl⟩
  | cons u users ih =>
    have hrows := flag_rows settings hs began u
    have hdrawn : ∀ a ∈ (s.flag settings began u).alerts.rows,
        a.id < (s.flag settings began u).drawn := by
      intro a ha
      rw [hrows] at ha
      rcases List.mem_append.mp ha with ha | ha
      · exact Nat.lt_succ_of_lt (hs a ha)
      · rw [List.mem_singleton.mp ha]
        exact Nat.lt_succ_self _
    obtain ⟨hids, hpasses, hcount⟩ := ih hdrawn
    refine ⟨hids, hpasses, fun userId => ?_⟩
    rw [List.foldl_cons, hcount, opened, hrows, List.countP_append, List.countP_singleton,
      about_newAlert, List.countP_cons, opened]
    omega

/-- A resolved alert is open about nobody. -/
theorem about_resolveRow {alertId : ℕ} {username userId : String} {now : Time} {a : StoredAlert}
    (h : about userId (resolveRow alertId username now a) = true) : about userId a = true := by
  unfold resolveRow at h
  split at h
  · simp [about, StoredAlert.resolve] at h
  · exact h

theorem opened_resolve_le (alertId : ℕ) (username : String) (now : Time)
    (alerts : Table StoredAlert.id) (userId : String) :
    opened (alerts.mapRows (resolveRow alertId username now) (resolveRow_id alertId username now))
      userId ≤ opened alerts userId := by
  have hmap : (alerts.mapRows (resolveRow alertId username now)
      (resolveRow_id alertId username now)).rows =
        alerts.rows.map (resolveRow alertId username now) := rfl
  rw [opened, hmap, List.countP_map]
  exact List.countP_mono_left fun a _ h => about_resolveRow h

/-- The cleanup deletes resolved alerts only. -/
theorem opened_cleanup (now : Time) (alerts : Table StoredAlert.id) (userId : String) :
    opened (alerts.delete (expired now)) userId = opened alerts userId := by
  have hrows : (alerts.delete (expired now)).rows = alerts.rows.filter fun a => !expired now a :=
    rfl
  rw [opened, hrows, List.countP_filter]
  refine List.countP_congr fun a _ => ?_
  simp only [about, expired, Bool.and_eq_true, Bool.not_eq_true', decide_eq_true_eq]
  constructor
  · exact fun h => h.1
  · intro h
    refine ⟨h, ?_⟩
    rw [h.1.2]
    simp

/-! ## One open alert about each user -/

theorem consistent_start (now : Time) : Consistent (start now) where
  drawn _ h := absurd h List.not_mem_nil
  distinct _ h := absurd h List.not_mem_nil

/-- A pass that comes to a user has loaded the same users. -/
theorem distinct_check {alerts : Table StoredAlert.id} {p p' : Pass}
    (hp : ((p.flagged ++ p.remaining).map UserRow.id).Nodup) (h : p.check alerts = some p') :
    ((p'.flagged ++ p'.remaining).map UserRow.id).Nodup := by
  rcases check_eq_some h with rfl | ⟨u, us, hremaining, rfl | rfl⟩
  · exact hp
  · rw [hremaining] at hp
    have hsub : (p.flagged ++ us).Sublist (p.flagged ++ u :: us) :=
      (List.Sublist.refl _).append (List.sublist_cons_self u us)
    exact (hsub.map UserRow.id).nodup hp
  · rw [hremaining] at hp
    dsimp only
    rw [List.append_assoc, List.singleton_append]
    exact hp

theorem consistent_step (hs : Consistent s) (e : Event) : Consistent (step settings s e) := by
  cases e with
  | tick microseconds => exact ⟨hs.drawn, hs.distinct⟩
  | store user => exact ⟨hs.drawn, hs.distinct⟩
  | resolve alertId username =>
    refine ⟨fun a ha => ?_, hs.distinct⟩
    obtain ⟨a₀, ha₀, rfl⟩ := List.mem_map.mp ha
    rw [resolveRow_id]
    exact hs.drawn a₀ ha₀
  | cleanup => exact ⟨fun a ha => hs.drawn a (Table.mem_delete.mp ha).1, hs.distinct⟩
  | begin =>
    refine ⟨hs.drawn, fun p hp => ?_⟩
    rcases List.mem_append.mp hp with hp | hp
    · exact hs.distinct p hp
    · rw [List.mem_singleton.mp hp]
      exact (List.filter_sublist.map UserRow.id).nodup s.users.nodup
  | check n =>
    unfold step
    dsimp only
    split
    · exact hs
    · rename_i p hp
      have hmem : p ∈ s.passes := List.mem_of_getElem? hp
      split
      · rename_i p' hcheck
        refine ⟨hs.drawn, fun q hq => ?_⟩
        rcases List.mem_or_eq_of_mem_set hq with hq | rfl
        · exact hs.distinct q hq
        · exact distinct_check (hs.distinct p hmem) hcheck
      · exact ⟨hs.drawn, fun q hq => hs.distinct q (List.mem_of_mem_eraseIdx hq)⟩
  | commit n =>
    unfold step
    dsimp only
    split
    · rename_i began flagged hp
      obtain ⟨hids, hpasses, -⟩ := opened_foldl_flag settings began flagged
        (s := { s with passes := s.passes.eraseIdx n }) hs.drawn
      refine ⟨hids, fun q hq => ?_⟩
      rw [hpasses] at hq
      exact hs.distinct q (List.mem_of_mem_eraseIdx hq)
    · exact hs
  | fail n => exact ⟨hs.drawn, fun q hq => hs.distinct q (List.mem_of_mem_eraseIdx hq)⟩

/-- A list of distinct users has a user once. -/
theorem countP_id_le_one {users : List UserRow} (h : (users.map UserRow.id).Nodup)
    (userId : String) : users.countP (fun u => u.id = userId) ≤ 1 := by
  have hcount := List.nodup_iff_count_le_one.mp h userId
  rw [List.count, List.countP_map] at hcount
  refine le_trans (le_of_eq (List.countP_congr fun u _ => ?_)) hcount
  simp

theorem atMostOne_step_iff (hs : Consistent s) (hone : AtMostOne s) (e : Event) :
    AtMostOne (step settings s e) ↔ FlaggedAlone s e := by
  cases e with
  | tick microseconds => exact iff_of_true hone trivial
  | store user => exact iff_of_true hone trivial
  | resolve alertId username =>
    exact iff_of_true (fun userId => (opened_resolve_le _ _ _ _ _).trans (hone userId)) trivial
  | cleanup =>
    exact iff_of_true (fun userId => (opened_cleanup _ _ _).trans_le (hone userId)) trivial
  | begin => exact iff_of_true hone trivial
  | check n =>
    refine iff_of_true ?_ trivial
    unfold step
    dsimp only
    split
    · exact hone
    · split
      · exact hone
      · exact hone
  | fail n => exact iff_of_true hone trivial
  | commit n =>
    unfold step FlaggedAlone
    dsimp only
    split
    · rename_i began flagged hp
      have hdistinct : (flagged.map UserRow.id).Nodup := by
        simpa using hs.distinct _ (List.mem_of_getElem? hp)
      obtain ⟨-, -, hopened⟩ := opened_foldl_flag settings began flagged
        (s := { s with passes := s.passes.eraseIdx n }) hs.drawn
      constructor
      · intro h p hp' _ u hu
        obtain rfl := Option.some.inj (hp.symm.trans hp')
        have hle : opened s.alerts u.id + flagged.countP (fun v => v.id = u.id) ≤ 1 :=
          (hopened u.id).symm.trans_le (h u.id)
        have hpos : 0 < flagged.countP fun v => v.id = u.id :=
          List.countP_pos_iff.mpr ⟨u, hu, decide_eq_true rfl⟩
        omega
      · intro h userId
        rw [hopened]
        change opened s.alerts userId + _ ≤ 1
        have hcount := countP_id_le_one hdistinct userId
        by_cases hflagged : ∃ u ∈ flagged, u.id = userId
        · obtain ⟨u, hu, rfl⟩ := hflagged
          have hzero := h _ hp rfl u hu
          omega
        · have hzero : flagged.countP (fun u => u.id = userId) = 0 :=
            List.countP_eq_zero.mpr fun u hu heq => hflagged ⟨u, hu, of_decide_eq_true heq⟩
          have hle := hone userId
          omega
    · rename_i hother
      refine iff_of_true hone fun p hp hremaining => ?_
      obtain ⟨began, remaining, flagged⟩ := p
      exact absurd (hremaining ▸ hp) (hother began flagged)

theorem passes_of_atMostOne (hone : AtMostOne s) (e : Event) : Passes s e := by
  cases e with
  | check n =>
    intro p _ hraise
    obtain ⟨u, us, -, htwo⟩ := check_eq_none.mp hraise
    exact absurd (hone u.id) (by omega)
  | _ => trivial

/-- There is at most one open alert about each user in every state of a run if and only if nobody
has flagged a user of a pass between its question and its commit; and then no pass raises. -/
theorem one_alert_iff (now : Time) (es : List Event) :
    (Always (step settings) AtMostOne (start now) es ↔
      Along (step settings) FlaggedAlone (start now) es) ∧
    (Along (step settings) FlaggedAlone (start now) es →
      Along (step settings) Passes (start now) es) := by
  have hiff : Always (step settings) AtMostOne (start now) es ↔
      Along (step settings) FlaggedAlone (start now) es :=
    always_iff_along_of_invariant (J := fun s => Consistent s ∧ AtMostOne s) (fun _ hs => hs.2)
      (fun _ e hs => atMostOne_step_iff hs.1 hs.2 e)
      (fun _ e hs he => ⟨consistent_step hs.1 e, (atMostOne_step_iff hs.1 hs.2 e).mpr he⟩)
      ⟨consistent_start now, fun _ => Nat.zero_le 1⟩ es
  exact ⟨hiff, fun h => (hiff.mpr h).along fun _ hone e => passes_of_atMostOne hone e⟩

/-! ## After a second alert -/

/-- The pass has still to come to the user. -/
def Pass.Awaits (userId : String) (p : Pass) : Prop := ∃ u ∈ p.remaining, u.id = userId

variable (settings) in
/-- Two open alerts are about a user who is still inactive. -/
structure Blocked (userId : String) (s : State) : Prop where
  twice : 2 ≤ opened s.alerts userId
  inactive : ∃ u ∈ s.users.rows, u.id = userId ∧ u.inactive (s.cutoff settings) = true

variable (settings) in
/-- Two open alerts about the user are left, and the user does not log in, get another name or
become inactive in the other sense. -/
def LeavesBlocked (userId : String) (s : State) : Event → Prop
  | .store u => u.id = userId → u.inactive (s.cutoff settings) = true
  | .resolve alertId _ => 2 ≤ s.alerts.rows.countP fun a => about userId a && a.id ≠ alertId
  | _ => True

/-- What has become of the passes and the alerts of the state `s`. Only a pass that was past the
user in `s` gets past the user, and all alerts that were added are about the users of such passes;
a pass that comes to the user raises. -/
structure Stuck (userId : String) (s t : State) : Prop where
  past : ∀ p ∈ t.passes, ¬ p.Awaits userId → ∃ q ∈ s.passes, ¬ q.Awaits userId ∧
    ∀ u ∈ p.flagged ++ p.remaining, u ∈ q.flagged ++ q.remaining
  added : ∀ a ∈ t.alerts.rows, (∃ b ∈ s.alerts.rows, b.id = a.id) ∨
    ∃ q ∈ s.passes, ¬ q.Awaits userId ∧
      ∃ u ∈ q.flagged ++ q.remaining, a.details.lookup "user_id" = some (some u.id)
  raises : ∀ p ∈ t.passes, ∀ u us, p.remaining = u :: us → u.id = userId → p.check t.alerts = none

/-- No alert was added. -/
def NoneAdded (s t : State) : Prop := ∀ a ∈ t.alerts.rows, ∃ b ∈ s.alerts.rows, b.id = a.id

theorem inactive_mono {cutoff cutoff' : Time} (h : cutoff ≤ cutoff') {u : UserRow}
    (hu : u.inactive cutoff = true) : u.inactive cutoff' = true := by
  unfold UserRow.inactive at hu ⊢
  simp only [Bool.and_eq_true] at hu ⊢
  obtain ⟨⟨hactive, hlogin⟩, hname⟩ := hu
  obtain ⟨time, htime, hlt⟩ := (Option.any_eq_true _ _).mp hlogin
  refine ⟨⟨hactive, (Option.any_eq_true _ _).mpr ⟨time, htime, ?_⟩⟩, hname⟩
  exact decide_eq_true ((of_decide_eq_true hlt).trans_le h)

variable (settings) in
/-- Flagging a user adds at most the alert about that user. -/
theorem flag_rows_cases (s : State) (began : Time) (u : UserRow) :
    (s.flag settings began u).alerts.rows = s.alerts.rows ∨
      (s.flag settings began u).alerts.rows =
        s.alerts.rows ++ [(newAlert settings u).row s.drawn began] := by
  cases h : s.alerts.insert? ((newAlert settings u).row s.drawn began) with
  | none => exact .inl (by rw [State.flag, h, Option.getD_none])
  | some t => exact .inr (by rw [State.flag, h, Option.getD_some, (Table.insert?_eq_some h).1])

variable (settings) in
theorem foldl_flag (began : Time) (users : List UserRow) (s : State) :
    (users.foldl (State.flag settings began) s).passes = s.passes ∧
    (users.foldl (State.flag settings began) s).users = s.users ∧
    (users.foldl (State.flag settings began) s).now = s.now ∧
    s.alerts.rows ⊆ (users.foldl (State.flag settings began) s).alerts.rows ∧
    (∀ userId, opened s.alerts userId ≤
      opened (users.foldl (State.flag settings began) s).alerts userId) ∧
    ∀ a ∈ (users.foldl (State.flag settings began) s).alerts.rows, a ∈ s.alerts.rows ∨
      ∃ u ∈ users, a.details.lookup "user_id" = some (some u.id) := by
  induction users generalizing s with
  | nil => exact ⟨rfl, rfl, rfl, List.Subset.refl _, fun _ => le_refl _, fun a ha => .inl ha⟩
  | cons u users ih =>
    obtain ⟨hpasses, husers, hnow, hsub, hopened, hrows⟩ := ih (s.flag settings began u)
    have hflag := flag_rows_cases settings s began u
    refine ⟨hpasses, husers, hnow, fun a ha => hsub ?_, fun userId => ?_, fun a ha => ?_⟩
    · rcases hflag with hflag | hflag
      · rwa [hflag]
      · exact hflag ▸ List.mem_append_left _ ha
    · refine le_trans ?_ (hopened userId)
      unfold opened
      rcases hflag with hflag | hflag
      · rw [hflag]
      · rw [hflag, List.countP_append]
        exact Nat.le_add_right _ _
    · rcases hrows a ha with ha | ⟨v, hv, hdetails⟩
      · rcases hflag with hflag | hflag
        · exact .inl (hflag ▸ ha)
        · rw [hflag, List.mem_append, List.mem_singleton] at ha
          rcases ha with ha | rfl
          · exact .inl ha
          · exact .inr ⟨u, List.mem_cons_self, by simp [newAlert, NewAlert.row]⟩
      · exact .inr ⟨v, List.mem_cons_of_mem u hv, hdetails⟩

/-- A resolution leaves the open alerts that are not the resolved one. -/
theorem opened_resolve (alertId : ℕ) (username : String) (now : Time)
    (alerts : Table StoredAlert.id) (userId : String) :
    alerts.rows.countP (fun a => about userId a && a.id ≠ alertId) ≤
      opened (alerts.mapRows (resolveRow alertId username now)
        (resolveRow_id alertId username now)) userId := by
  have hmap : (alerts.mapRows (resolveRow alertId username now)
      (resolveRow_id alertId username now)).rows =
        alerts.rows.map (resolveRow alertId username now) := rfl
  rw [opened, hmap, List.countP_map]
  refine List.countP_mono_left fun a _ habout => ?_
  rw [Bool.and_eq_true, decide_eq_true_eq] at habout
  simpa [resolveRow, habout.2] using habout.1

theorem blocked_step {userId : String} (hs : Blocked settings userId s) {e : Event}
    (he : LeavesBlocked settings userId s e) : Blocked settings userId (step settings s e) := by
  obtain ⟨u, hu, hid, hinactive⟩ := hs.inactive
  cases e with
  | tick microseconds =>
    refine ⟨hs.twice, u, hu, hid, inactive_mono ?_ hinactive⟩
    change s.now - _ ≤ s.now + (microseconds : ℤ) - _
    exact sub_le_sub_right (le_add_of_nonneg_right (Int.natCast_nonneg microseconds)) _
  | store user =>
    refine ⟨hs.twice, ?_⟩
    by_cases hsame : user.id = userId
    · exact ⟨user, Table.mem_upsert.mpr (.inl rfl), hsame, he hsame⟩
    · exact ⟨u, Table.mem_upsert.mpr (.inr ⟨hu, hid.trans_ne (Ne.symm hsame)⟩), hid, hinactive⟩
  | resolve alertId username =>
    have hleft : 2 ≤ s.alerts.rows.countP fun a => about userId a && a.id ≠ alertId := he
    exact ⟨hleft.trans (opened_resolve alertId username s.now s.alerts userId), hs.inactive⟩
  | cleanup => exact ⟨(opened_cleanup _ _ _).symm ▸ hs.twice, hs.inactive⟩
  | begin => exact ⟨hs.twice, hs.inactive⟩
  | check n =>
    unfold step
    dsimp only
    split
    · exact hs
    · split
      · exact ⟨hs.twice, hs.inactive⟩
      · exact ⟨hs.twice, hs.inactive⟩
  | commit n =>
    unfold step
    dsimp only
    split
    · rename_i began flagged hp
      obtain ⟨-, husers, hnow, -, hopened, -⟩ := foldl_flag settings began flagged
        { s with passes := s.passes.eraseIdx n }
      refine ⟨hs.twice.trans (hopened userId), ?_⟩
      rw [husers, State.cutoff, hnow]
      exact hs.inactive
    · exact hs
  | fail n => exact ⟨hs.twice, hs.inactive⟩

/-- A pass that comes to the user raises. -/
theorem raises_of_twice {userId : String} (htwice : 2 ≤ opened s.alerts userId) {p : Pass}
    {u : UserRow} {us : List UserRow} (hp : p.remaining = u :: us) (hu : u.id = userId) :
    p.check s.alerts = none :=
  check_eq_none.mpr ⟨u, us, hp, hu.symm ▸ htwice⟩

/-- A check does not bring a pass past the user, and loads no other users. -/
theorem check_awaits {userId : String} (htwice : 2 ≤ opened s.alerts userId) {p p' : Pass}
    (h : p.check s.alerts = some p') :
    (p.Awaits userId → p'.Awaits userId) ∧
      ∀ u ∈ p'.flagged ++ p'.remaining, u ∈ p.flagged ++ p.remaining := by
  have hlater : ∀ {u us}, p.remaining = u :: us → p.Awaits userId → ∃ v ∈ us, v.id = userId := by
    rintro u us hremaining ⟨v, hv, hid⟩
    rw [hremaining] at hv
    rcases List.mem_cons.mp hv with rfl | hv
    · rw [raises_of_twice htwice hremaining hid] at h
      cases h
    · exact ⟨v, hv, hid⟩
  rcases check_eq_some h with rfl | ⟨u, us, hremaining, rfl | rfl⟩
  · exact ⟨id, fun u hu => hu⟩
  · refine ⟨hlater hremaining, fun v hv => ?_⟩
    rw [hremaining]
    exact ((List.Sublist.refl p.flagged).append (List.sublist_cons_self u us)).subset hv
  · refine ⟨hlater hremaining, fun v hv => ?_⟩
    rw [hremaining]
    rwa [List.append_assoc, List.singleton_append] at hv

/-- No step brings another pass past the user. -/
theorem past_step {userId : String} {t : State} (ht : Blocked settings userId t)
    (hstuck : Stuck userId s t) (e : Event) :
    ∀ p ∈ (step settings t e).passes, ¬ p.Awaits userId → ∃ q ∈ s.passes, ¬ q.Awaits userId ∧
      ∀ u ∈ p.flagged ++ p.remaining, u ∈ q.flagged ++ q.remaining := by
  have herase : ∀ n, ∀ p ∈ t.passes.eraseIdx n, p ∈ t.passes :=
    fun n p hp => List.mem_of_mem_eraseIdx hp
  intro p hp hpast
  cases e with
  | begin =>
    rcases List.mem_append.mp hp with hp | hp
    · exact hstuck.past p hp hpast
    · obtain ⟨u, hu, hid, hinactive⟩ := ht.inactive
      rw [List.mem_singleton.mp hp] at hpast
      exact absurd ⟨u, List.mem_filter.mpr ⟨hu, hinactive⟩, hid⟩ hpast
  | check n =>
    unfold step at hp
    dsimp only at hp
    split at hp
    · exact hstuck.past p hp hpast
    · rename_i q hq
      split at hp
      · rename_i q' hcheck
        rcases List.mem_or_eq_of_mem_set hp with hp | rfl
        · exact hstuck.past p hp hpast
        · obtain ⟨hawaits, hsub⟩ := check_awaits ht.twice hcheck
          obtain ⟨r, hr, hrpast, hrsub⟩ :=
            hstuck.past q (List.mem_of_getElem? hq) (mt hawaits hpast)
          exact ⟨r, hr, hrpast, fun u hu => hrsub u (hsub u hu)⟩
      · exact hstuck.past p (herase n p hp) hpast
  | commit n =>
    unfold step at hp
    dsimp only at hp
    split at hp
    · rename_i began flagged _
      rw [(foldl_flag settings began flagged _).1] at hp
      exact hstuck.past p (herase n p hp) hpast
    · exact hstuck.past p hp hpast
  | fail n => exact hstuck.past p (herase n p hp) hpast
  | _ => exact hstuck.past p hp hpast

variable (settings) in
/-- An alert after a step was there before, or is one of a pass that has come to all its users. -/
theorem alert_origin (t : State) (e : Event) :
    ∀ a ∈ (step settings t e).alerts.rows,
      (∃ b ∈ t.alerts.rows, b.id = a.id ∧ b.details = a.details) ∨
        ∃ p ∈ t.passes, p.remaining = [] ∧
          ∃ u ∈ p.flagged, a.details.lookup "user_id" = some (some u.id) := by
  intro a ha
  cases e with
  | resolve alertId username =>
    obtain ⟨b, hb, rfl⟩ := List.mem_map.mp ha
    refine .inl ⟨b, hb, (resolveRow_id _ _ _ _).symm, ?_⟩
    unfold resolveRow
    split <;> rfl
  | cleanup => exact .inl ⟨a, (Table.mem_delete.mp ha).1, rfl, rfl⟩
  | check n =>
    unfold step at ha
    dsimp only at ha
    split at ha
    · exact .inl ⟨a, ha, rfl, rfl⟩
    · split at ha
      · exact .inl ⟨a, ha, rfl, rfl⟩
      · exact .inl ⟨a, ha, rfl, rfl⟩
  | commit n =>
    unfold step at ha
    dsimp only at ha
    split at ha
    · rename_i began flagged hp
      rcases (foldl_flag settings began flagged _).2.2.2.2.2 a ha with ha | ⟨u, hu, hdetails⟩
      · exact .inl ⟨a, ha, rfl, rfl⟩
      · exact .inr ⟨_, List.mem_of_getElem? hp, rfl, u, hu, hdetails⟩
    · exact .inl ⟨a, ha, rfl, rfl⟩
  | _ => exact .inl ⟨a, ha, rfl, rfl⟩

theorem stuck_step {userId : String} {t : State} (ht : Blocked settings userId t)
    (hstuck : Stuck userId s t) {e : Event} (he : LeavesBlocked settings userId t e) :
    Stuck userId s (step settings t e) where
  past := past_step ht hstuck e
  added a ha := by
    rcases alert_origin settings t e a ha with ⟨b, hb, hid, hdetails⟩ |
      ⟨p, hp, hremaining, u, hu, hdetails⟩
    · rw [← hid, ← hdetails]
      exact hstuck.added b hb
    · have hpast : ¬ p.Awaits userId := by
        rintro ⟨v, hv, -⟩
        rw [hremaining] at hv
        exact List.not_mem_nil hv
      obtain ⟨q, hq, hqpast, hsub⟩ := hstuck.past p hp hpast
      exact .inr ⟨q, hq, hqpast, u, hsub u (List.mem_append_left _ hu), hdetails⟩
  raises _ _ _ _ hp hu := raises_of_twice (blocked_step ht he).twice hp hu

theorem stuck_refl {userId : String} (hs : Blocked settings userId s) : Stuck userId s s where
  past p hp hpast := ⟨p, hp, hpast, fun _ hu => hu⟩
  added a ha := .inl ⟨a, ha, rfl⟩
  raises _ _ _ _ hp hu := raises_of_twice hs.twice hp hu

/-- Once two open alerts are about an inactive user, every pass raises when it comes to that user,
as long as two are open and the user stays inactive. Only passes that were past the user before
can still commit, and without such a pass no alert is added about anybody. -/
theorem no_alert_after_second {userId : String} {es : List Event}
    (hs : Blocked settings userId s)
    (hes : Along (step settings) (LeavesBlocked settings userId) s es) :
    Always (step settings) (fun t => Blocked settings userId t ∧ Stuck userId s t ∧
      ((∀ p ∈ s.passes, p.Awaits userId) →
        (∀ p ∈ t.passes, p.Awaits userId) ∧ NoneAdded s t)) s es := by
  have hall : Always (step settings) (fun t => Blocked settings userId t ∧ Stuck userId s t)
      s es := by
    refine always_of_along (fun t e ht he => ?_) ⟨hs, stuck_refl hs⟩ hes
    exact ⟨blocked_step ht.1 he, stuck_step ht.1 ht.2 he⟩
  intro es' hes'
  obtain ⟨hblocked, hstuck⟩ := hall es' hes'
  refine ⟨hblocked, hstuck, fun hawait => ⟨fun p hp => ?_, fun a ha => ?_⟩⟩
  · by_contra hpast
    obtain ⟨q, hq, hqpast, -⟩ := hstuck.past p hp hpast
    exact hqpast (hawait q hq)
  · rcases hstuck.added a ha with h | ⟨q, hq, hqpast, -⟩
    · exact h
    · exact absurd (hawait q hq) hqpast

def yearly : Settings := ⟨365, fun t => toString t⟩

/-- A user who logged in when the clock showed zero. -/
def alice : UserRow := ⟨"7", "alice", true, some 0⟩

/-- Two passes that overlap flag one user twice. -/
def flaggedTwice : State :=
  run (step yearly) (start (days 400))
    [.store alice, .begin, .begin, .check 0, .check 1, .commit 0, .commit 0]

theorem flaggedTwice_blocked : Blocked yearly "7" flaggedTwice where
  twice := by decide +kernel
  inactive := ⟨alice, by decide +kernel, rfl, by decide +kernel⟩

/-- Another user becomes inactive, and the next day a pass comes to the first. -/
def nextPass : List Event :=
  [.store ⟨"8", "bob", true, some 0⟩, .tick 86400000000, .begin, .check 0, .commit 0]

theorem bob_unflagged : NoneAdded flaggedTwice (run (step yearly) flaggedTwice nextPass) := by
  have hleaves : Along (step yearly) (LeavesBlocked yearly "7") flaggedTwice nextPass :=
    ⟨fun h => absurd h (by decide), trivial, trivial, trivial, trivial, trivial⟩
  have hnone : flaggedTwice.passes = [] := List.eq_nil_of_length_eq_zero (by decide +kernel)
  obtain ⟨-, -, hadded⟩ :=
    no_alert_after_second flaggedTwice_blocked hleaves _ (List.prefix_refl _)
  exact (hadded (by rw [hnone]; exact List.forall_mem_nil _)).2

end Kepryx.InactiveUsers
