import Kepryx.Erasure
import Kepryx.Runs

/-!
# The last administrator

Requests that deactivate a user, by deletion or by erasure. Each of them reads the acting user,
then the target, then the number of active administrators, and commits later, so that requests
overlap in any way. A commit writes only the columns that the request has changed.
-/
namespace Kepryx.Administrators
open Kepryx.Accounts Kepryx.IpNetworks Kepryx.ManagementNetwork Kepryx.Redaction Kepryx.Tables
open Kepryx.Erasure Kepryx.Results Kepryx.Runs Kepryx.UnitOfWork

abbrev Users := Table (fun p : Person => p.id)

inductive Operation where
  | delete | erase
  deriving DecidableEq, Repr

/-- A request on its way, with what it has read: the acting user, the row of the target, and
the row that it may write once its checks have passed. -/
structure Pending where
  operation : Operation
  request : ErasureRequest
  current : Person
  target : Option Person := none
  approved : Option Person := none

structure State where
  users : Users
  pending : List Pending

inductive Event where
  | begin (operation : Operation) (request : ErasureRequest)
  | load (n : ℕ)
  | check (n : ℕ)
  | commit (n : ℕ) (salt : String)

variable (T : Texts) (boundary : Boundary) (services : Services) (P : Primitives)

/-- The checks of `delete_user` on what it has read. -/
def checkDeletion (current : Person) (r : ErasureRequest) (target : Option Person) :
    Except HttpError Person := do
  let _ ← requireRole T boundary ["admin"] true r.origin current.toUser
  if current.id = r.userId then throw ⟨400, "Cannot delete self"⟩
  match target with
  | none => throw ⟨404, "Not Found"⟩
  | some user => return user

def checkOperation (p : Pending) (admins : ℕ) : Except HttpError Person :=
  match p.operation with
  | .delete => checkDeletion T boundary p.current p.request p.target
  | .erase => checkErasure T boundary p.current p.request p.target admins

/-- The object of the target after the request has changed it. -/
def changed (operation : Operation) (salt : String) (user : Person) : Person :=
  match operation with
  | .delete => { user with isActive := false }
  | .erase => anonymize services P salt user

/-- The UPDATE of a row: the changed columns, over the stored row. -/
def updatePerson (loaded current stored : Person) : Person where
  id := stored.id
  username := writeBack loaded.username current.username stored.username
  passwordHash := writeBack loaded.passwordHash current.passwordHash stored.passwordHash
  role := writeBack loaded.role current.role stored.role
  mfaSecret := writeBack loaded.mfaSecret current.mfaSecret stored.mfaSecret
  mfaEnabled := writeBack loaded.mfaEnabled current.mfaEnabled stored.mfaEnabled
  failedAttempts := writeBack loaded.failedAttempts current.failedAttempts stored.failedAttempts
  lockedUntil := writeBack loaded.lockedUntil current.lockedUntil stored.lockedUntil
  lastLogin := writeBack loaded.lastLogin current.lastLogin stored.lastLogin
  isActive := writeBack loaded.isActive current.isActive stored.isActive
  email := writeBack loaded.email current.email stored.email

/-- The commit of an approved request. -/
def write (operation : Operation) (salt : String) (loaded : Person) (users : Users) : Users :=
  match users.find loaded.id with
  | none => users
  | some stored => users.put (updatePerson loaded (changed services P operation salt loaded) stored)

/-- The row that a pending request may write. -/
def State.approval (s : State) (n : ℕ) : Option (Pending × Person) :=
  s.pending[n]?.bind fun p => p.approved.map fun user => (p, user)

/-- Replace a pending request. -/
def State.setPending (s : State) (n : ℕ) (p : Pending) : State :=
  { s with pending := s.pending.set n p }

/-- One step of one request; a request that fails writes nothing. -/
def step (s : State) : Event → State
  | .begin operation request =>
    match currentUser ⟨s.users, []⟩ request.toRequest with
    | .error _ => s
    | .ok current => { s with pending := s.pending ++ [⟨operation, request, current, none, none⟩] }
  | .load n =>
    match s.pending[n]? with
    | none => s
    | some p => s.setPending n { p with target := s.users.find p.request.userId }
  | .check n =>
    match s.pending[n]? with
    | none => s
    | some p =>
      match checkOperation T boundary p (activeAdmins s.users) with
      | .error _ => s
      | .ok user => s.setPending n { p with approved := some user }
  | .commit n salt =>
    match s.approval n with
    | none => s
    | some (p, user) =>
      { s.setPending n { p with approved := none } with
        users := write services P p.operation salt user s.users }

/-- An active administrator remains after the step. -/
def Administered (s : State) (e : Event) : Prop :=
  0 < activeAdmins (step T boundary services P s e).users

/-- The condition that `erase_user_data` checks when it reads, at the commit: where the stored
row is an active administrator, it is not the last one. -/
def NotTheLast (s : State) : Event → Prop
  | .commit n _ =>
    ∀ p user stored, s.approval n = some (p, user) → s.users.find user.id = some stored →
      activeAdmin stored → 1 < activeAdmins s.users
  | _ => True

/-! ## What a commit writes -/

theorem id_of_find {users : Users} {id : String} {user : Person}
    (h : users.find id = some user) : user.id = id := by
  have hkey := Table.find_some_key h
  exact hkey

section Write
variable {services P} {operation : Operation} {salt : String} {loaded stored : Person}
  {users : Users}

theorem changed_isActive : (changed services P operation salt loaded).isActive = false := by
  cases operation <;> rfl

/-- A request that has read an active user leaves the user inactive. -/
theorem updatePerson_inactive (h : stored.isActive → loaded.isActive) :
    (updatePerson loaded (changed services P operation salt loaded) stored).isActive = false := by
  show writeBack loaded.isActive _ stored.isActive = false
  rw [changed_isActive]
  cases hloaded : loaded.isActive with
  | true => exact writeBack_changed (by simp) _
  | false =>
    rw [writeBack_unchanged]
    rw [hloaded] at h
    simpa using h

/-- No commit makes a user active. -/
theorem active_of_updatePerson
    (h : (updatePerson loaded (changed services P operation salt loaded) stored).isActive) :
    stored.isActive := by
  change (writeBack loaded.isActive _ stored.isActive) = true at h
  rw [changed_isActive] at h
  cases hloaded : loaded.isActive with
  | true =>
    rw [hloaded, writeBack_changed (by simp)] at h
    cases h
  | false =>
    rwa [hloaded, writeBack_unchanged] at h

/-- A user who is active after a commit was active before. -/
theorem active_of_write {id : String} {after : Person}
    (h : (write services P operation salt loaded users).find id = some after)
    (hactive : after.isActive) : ∃ before, users.find id = some before ∧ before.isActive := by
  unfold write at h
  split at h
  · exact ⟨after, h, hactive⟩
  rename_i stored hstored
  let updated := updatePerson loaded (changed services P operation salt loaded) stored
  have hid := id_of_find hstored
  have hkey : updated.id = loaded.id := hid
  by_cases hsame : id = updated.id
  · have hsome : (users.find updated.id).isSome := by rw [hkey, hstored]; rfl
    have hself := Table.find_put_self (t := users) (r := updated) hsome
    rw [hsame] at h
    obtain rfl : updated = after := Option.some.inj (hself.symm.trans h)
    exact ⟨stored, by rw [hsame, hkey, hstored], active_of_updatePerson hactive⟩
  · rw [Table.find_put_of_ne (t := users) (r := updated) hsame] at h
    exact ⟨after, h, hactive⟩

/-- A commit takes the stored row from the active administrators, and no other. -/
theorem activeAdmins_write (hstored : users.find loaded.id = some stored)
    (hloaded : stored.isActive → loaded.isActive) :
    activeAdmins (write services P operation salt loaded users) + [stored].countP activeAdmin =
      activeAdmins users := by
  let updated := updatePerson loaded (changed services P operation salt loaded) stored
  have hid := id_of_find hstored
  have hkey : updated.id = loaded.id := hid
  have hfind : users.find updated.id = some stored := by rw [hkey, hstored]
  have hcount := Table.countP_put (w := updated) hfind activeAdmin
  have hinactive : activeAdmin updated = false := by
    unfold activeAdmin
    rw [updatePerson_inactive hloaded, Bool.and_false]
  have hnone : [updated].countP activeAdmin = 0 := by simp [hinactive]
  rw [hnone] at hcount
  simpa [activeAdmins, write, hstored] using hcount

end Write

/-! ## Runs -/

variable {T boundary services P}

/-- A row that a request has read was active then if it is now: no operation makes a user
active. -/
def Faithful (users : Users) (read : Option Person) : Prop :=
  ∀ user stored, read = some user → users.find user.id = some stored →
    stored.isActive → user.isActive

/-- What the requests on their way have read, and that an active administrator is left. -/
structure Invariant (s : State) : Prop where
  read : ∀ p ∈ s.pending, Faithful s.users p.target ∧ Faithful s.users p.approved
  administered : 0 < activeAdmins s.users

theorem Faithful.write {users : Users} {read : Option Person} (h : Faithful users read)
    (operation : Operation) (salt : String) (loaded : Person) :
    Faithful (write services P operation salt loaded users) read := by
  intro user stored hread hfind hactive
  obtain ⟨before, hbefore, hactive⟩ := active_of_write hfind hactive
  exact h user before hread hbefore hactive

theorem faithful_find (users : Users) (id : String) : Faithful users (users.find id) := by
  intro user stored hread hfind hactive
  rw [id_of_find hread] at hfind
  obtain rfl : user = stored := Option.some.inj (hread.symm.trans hfind)
  exact hactive

theorem faithful_none (users : Users) : Faithful users none := by
  intro user stored hread
  cases hread

theorem requireRole_admin {o : Origin} {user user' : User}
    (h : requireRole T boundary ["admin"] true o user = .ok user') : user.role = "admin" := by
  unfold requireRole at h
  simp only [throw_eq_error, error_bind, guard_eq_ok] at h
  by_contra hne
  exact h.1 ⟨by simpa using hne, hne⟩

/-- What the checks of a deletion have established. -/
theorem checkDeletion_ok {current user : Person} {r : ErasureRequest} {target : Option Person}
    (h : checkDeletion T boundary current r target = .ok user) :
    target = some user ∧ current.role = "admin" ∧ current.id ≠ r.userId := by
  unfold checkDeletion at h
  simp only [throw_eq_error, error_bind, pure_eq_ok, bind_eq_ok, guard_eq_ok] at h
  obtain ⟨_, hrole, hself, h⟩ := h
  cases target with
  | none => cases h
  | some found =>
    cases h
    exact ⟨rfl, requireRole_admin hrole, hself⟩

/-- The checks approve the row that the request has read. -/
theorem checkOperation_ok {p : Pending} {admins : ℕ} {user : Person}
    (h : checkOperation T boundary p admins = .ok user) : p.target = some user := by
  unfold checkOperation at h
  split at h
  · exact (checkDeletion_ok h).1
  · exact (checkErasure_ok h).1

/-- A step that writes no user. -/
theorem step_users (s : State) (e : Event) (h : ∀ n salt, e ≠ .commit n salt) :
    (step T boundary services P s e).users = s.users := by
  cases e with
  | begin operation request =>
    unfold step
    dsimp only
    split <;> rfl
  | load n =>
    unfold step
    dsimp only
    split <;> rfl
  | check n =>
    unfold step
    dsimp only
    split
    · rfl
    · split <;> rfl
  | commit n salt => exact absurd rfl (h n salt)

theorem approval_eq_some {s : State} {n : ℕ} {p : Pending} {user : Person} :
    s.approval n = some (p, user) ↔ s.pending[n]? = some p ∧ p.approved = some user := by
  simp only [State.approval, Option.bind_eq_some_iff, Option.map_eq_some_iff, Prod.mk.injEq]
  constructor
  · rintro ⟨_, hp, _, hu, rfl, rfl⟩
    exact ⟨hp, hu⟩
  · rintro ⟨hp, hu⟩
    exact ⟨p, hp, user, hu, rfl, rfl⟩

theorem step_commit {s : State} {n : ℕ} {p : Pending} {user : Person} (salt : String)
    (h : s.approval n = some (p, user)) :
    step T boundary services P s (.commit n salt) =
      { s.setPending n { p with approved := none } with
        users := write services P p.operation salt user s.users } := by
  simp only [step, h]

theorem step_commit_none {s : State} {n : ℕ} (salt : String) (h : s.approval n = none) :
    step T boundary services P s (.commit n salt) = s := by
  simp only [step, h]

theorem Invariant.approved {s : State} (hs : Invariant s) {n : ℕ} {p : Pending} {user : Person}
    (h : s.approval n = some (p, user)) {stored : Person}
    (hstored : s.users.find user.id = some stored) (hactive : stored.isActive) :
    user.isActive := by
  obtain ⟨hp, happroved⟩ := approval_eq_some.mp h
  exact (hs.read p (List.mem_of_getElem? hp)).2 user stored happroved hstored hactive

theorem notTheLast_commit_iff {s : State} {n : ℕ} {p : Pending} {user : Person} (salt : String)
    (h : s.approval n = some (p, user)) :
    NotTheLast s (.commit n salt) ↔ ∀ stored, s.users.find user.id = some stored →
      activeAdmin stored → 1 < activeAdmins s.users := by
  constructor
  · intro hlast stored
    exact hlast p user stored h
  · intro hlast p' user' stored h'
    obtain ⟨rfl, rfl⟩ := Prod.mk.inj (Option.some.inj (h.symm.trans h'))
    exact hlast stored

theorem administered_iff {s : State} {e : Event} (hs : Invariant s) :
    Administered T boundary services P s e ↔ NotTheLast s e := by
  have hunchanged : (step T boundary services P s e).users = s.users →
      Administered T boundary services P s e := by
    intro husers
    unfold Administered
    rw [husers]
    exact hs.administered
  cases e with
  | begin operation request =>
    exact iff_of_true (hunchanged (step_users s _ (by simp))) trivial
  | load n => exact iff_of_true (hunchanged (step_users s _ (by simp))) trivial
  | check n => exact iff_of_true (hunchanged (step_users s _ (by simp))) trivial
  | commit n salt =>
    cases h : s.approval n with
    | none =>
      refine iff_of_true (hunchanged ?_) ?_
      · rw [step_commit_none salt h]
      · simp [NotTheLast, h]
    | some approved =>
      obtain ⟨p, user⟩ := approved
      cases hstored : s.users.find user.id with
      | none =>
        refine iff_of_true (hunchanged ?_) ?_
        · simp [step_commit salt h, write, hstored]
        · simp [notTheLast_commit_iff salt h, hstored]
      | some stored =>
        have hcount : activeAdmins (write services P p.operation salt user s.users) +
            [stored].countP activeAdmin = activeAdmins s.users :=
          activeAdmins_write hstored (hs.approved h hstored)
        have hpositive := hs.administered
        rw [notTheLast_commit_iff salt h, Administered, step_commit salt h]
        simp only [hstored, Option.some.injEq, forall_eq']
        by_cases hadmin : activeAdmin stored
        · simp only [List.countP_singleton, hadmin, if_true] at hcount
          simp only [hadmin, forall_const]
          omega
        · simp only [List.countP_singleton, hadmin, Bool.false_eq_true, if_false] at hcount
          simp only [hadmin, Bool.false_eq_true, false_implies, iff_true]
          omega

/-- Replacing a pending request keeps what all of them have read. -/
theorem read_setPending {s : State} (hs : Invariant s) (n : ℕ) {p : Pending}
    (htarget : Faithful s.users p.target) (happroved : Faithful s.users p.approved) :
    ∀ q ∈ (s.setPending n p).pending, Faithful s.users q.target ∧ Faithful s.users q.approved := by
  intro q hq
  rcases List.mem_or_eq_of_mem_set hq with hq | rfl
  · exact hs.read q hq
  · exact ⟨htarget, happroved⟩

theorem invariant_step {s : State} {e : Event} (hs : Invariant s)
    (h : Administered T boundary services P s e) : Invariant (step T boundary services P s e) := by
  refine ⟨?_, h⟩
  cases e with
  | begin operation request =>
    unfold step
    dsimp only
    split
    · exact hs.read
    · intro p hp
      rcases List.mem_append.mp hp with hp | hp
      · exact hs.read p hp
      · rw [List.mem_singleton.mp hp]
        exact ⟨faithful_none _, faithful_none _⟩
  | load n =>
    unfold step
    dsimp only
    split
    · exact hs.read
    · rename_i p hp
      exact read_setPending hs n (faithful_find _ _) (hs.read p (List.mem_of_getElem? hp)).2
  | check n =>
    unfold step
    dsimp only
    split
    · exact hs.read
    · rename_i p hp
      obtain ⟨htarget, happroved⟩ := hs.read p (List.mem_of_getElem? hp)
      split
      · exact hs.read
      · rename_i user huser
        have hread := checkOperation_ok huser
        exact read_setPending hs n htarget (hread ▸ htarget)
  | commit n salt =>
    cases h : s.approval n with
    | none =>
      rw [step_commit_none salt h]
      exact hs.read
    | some approved =>
      obtain ⟨p, user⟩ := approved
      obtain ⟨hp, -⟩ := approval_eq_some.mp h
      rw [step_commit salt h]
      intro q hq
      obtain ⟨htarget, happroved⟩ := read_setPending hs n (p := { p with approved := none })
        (hs.read p (List.mem_of_getElem? hp)).1 (faithful_none _) q hq
      exact ⟨htarget.write _ _ _, happroved.write _ _ _⟩

/-- At every moment of a run there is an active administrator, if and only if every commit on an
active administrator finds another one. -/
theorem always_administered_iff {users : Users} (h : 0 < activeAdmins users) (es : List Event) :
    Along (step T boundary services P) (Administered T boundary services P) ⟨users, []⟩ es ↔
      Along (step T boundary services P) NotTheLast ⟨users, []⟩ es :=
  along_iff_of_invariant Invariant (fun _ _ hs => administered_iff hs)
    (fun _ _ hs hc => invariant_step hs hc) ⟨by simp, h⟩ es

/-! ## What the guards are enough for -/

/-- Two active administrators are more than one. -/
theorem one_lt_activeAdmins {users : Users} {a b : Person} (ha : a ∈ users.rows)
    (hb : b ∈ users.rows) (hne : a.id ≠ b.id) (hadmin : activeAdmin a) (hadmin' : activeAdmin b) :
    1 < activeAdmins users := by
  rw [activeAdmins, List.countP_eq_length_filter]
  by_contra hle
  have hunique := Table.filter_length_le_one_iff.mp (Nat.le_of_not_lt hle)
  exact hne (congrArg (fun p : Person => p.id) (hunique a ha b hb hadmin hadmin'))

/-- Each guard alone is enough for a request that commits before anything else is written: the
deletion leaves the acting user, the erasure one of those that it has counted. -/
theorem notTheLast_of_current {s : State} {n : ℕ} {p : Pending} {user : Person} (salt : String)
    (h : s.approval n = some (p, user))
    (hcurrent : s.users.find p.request.currentId = some p.current) (hactive : p.current.isActive)
    (htarget : p.target = s.users.find p.request.userId)
    (hcheck : checkOperation T boundary p (activeAdmins s.users) = .ok user) :
    NotTheLast s (.commit n salt) := by
  have hread := checkOperation_ok hcheck
  rw [htarget] at hread
  have huser : user.id = p.request.userId := id_of_find hread
  rw [notTheLast_commit_iff salt h, huser]
  intro stored hstored hadmin
  obtain rfl : user = stored := Option.some.inj (hread.symm.trans hstored)
  unfold checkOperation at hcheck
  split at hcheck
  · obtain ⟨-, hrole, hself⟩ := checkDeletion_ok hcheck
    refine one_lt_activeAdmins (Table.find_eq_some.mp hcurrent).1 (Table.find_eq_some.mp hread).1
      (huser ▸ hself) ?_ hadmin
    rw [activeAdmin, hactive, hrole]
    rfl
  · exact (checkErasure_ok hcheck).2.2 hadmin

/-! ## Two administrators -/

instance (s : State) (e : Event) : Decidable (Administered T boundary services P s e) :=
  inferInstanceAs (Decidable (0 < _))

def ops : Person := { root with id := "3", username := "ops", email := "ops@kepryx.local" }

def twoAdmins : Users := ⟨[root, ops], by decide⟩

def asking (currentId userId : String) : ErasureRequest :=
  ⟨fromOffice currentId, userId, "ERASE MY DATA"⟩

/-- One administrator deletes the other. -/
def deletion : List Event :=
  [.begin .delete (asking "1" "3"), .load 0, .check 0, .commit 0 ""]

theorem deletion_administered :
    Along (step office officeBoundary noServices zeros)
        (Administered office officeBoundary noServices zeros) ⟨twoAdmins, []⟩ deletion ↔
      Along (step office officeBoundary noServices zeros) NotTheLast ⟨twoAdmins, []⟩ deletion :=
  always_administered_iff (by decide) deletion

/-- Each administrator removes the other, and both requests have passed their checks before one
of them commits. -/
def mutualRemoval (operation : Operation) : List Event :=
  [.begin operation (asking "1" "3"), .begin operation (asking "3" "1"), .load 0, .load 1,
    .check 0, .check 1, .commit 0 "", .commit 1 ""]

theorem no_administrator_left :
    activeAdmins twoAdmins = 2 ∧ ∀ operation,
      activeAdmins (run (step office officeBoundary noServices zeros) ⟨twoAdmins, []⟩
        (mutualRemoval operation)).users = 0 ∧
      ¬ Along (step office officeBoundary noServices zeros)
        (Administered office officeBoundary noServices zeros) ⟨twoAdmins, []⟩
        (mutualRemoval operation) := by
  refine ⟨by decide, fun operation => ?_⟩
  cases operation <;> decide +kernel

end Kepryx.Administrators
