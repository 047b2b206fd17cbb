import Kepryx.Accounts
import Kepryx.Runs

/-!
# The lockout and overlapping logins

A login loads the row of its user, hashes the password, and commits `failed_attempts` as the
value that it read plus one. Logins that overlap overwrite each other's count, so the lock
comes late or never. It comes in time when no failed login commits over a greater count than
it read.
-/
namespace Kepryx.LoginLockout
open Kepryx.Accounts Kepryx.TokenBlocklist Kepryx.UnitOfWork Kepryx.Runs

/-- The account is locked at an instant. -/
def locked (now : ℕ) (user : User) : Bool := user.lockedUntil.any (now < ·)

/-- A login between its read and its commit. -/
structure Pending where
  body : LoginRequest
  salt : String
  loaded : User
  deriving DecidableEq, Repr

/-- The row of the user, the clock, the logins in flight, and the failed verifications since the
last successful login or expired lock. -/
structure State where
  user : User
  now : ℕ
  inflight : List Pending := []
  guesses : ℕ := 0
  deriving DecidableEq, Repr

/-- A login reads the row, the login at a position verifies and commits, or time passes. -/
inductive Event where
  | read (body : LoginRequest) (salt : String)
  | commit (n : ℕ)
  | tick (ms : ℕ)
  deriving DecidableEq, Repr

/-- The verdict counts a failed verification. -/
def failed (loaded : User) : Verdict → Bool
  | .refused _ current => loaded.failedAttempts < current.failedAttempts
  | .granted _ => false

variable (settings : Settings) (services : Services)

/-- What a login decides about the row that it loaded. -/
def verdict (now : ℕ) (p : Pending) : Verdict := login settings services now p.salt p.body p.loaded

/-- The row that a login commits, and whether it was refused or granted. -/
def commitLogin (p : Pending) (s : State) : State :=
  match verdict settings services s.now p with
  | .granted current => { s with user := updateUser p.loaded current s.user, guesses := 0 }
  | .refused error current =>
    { s with
      user := updateUser p.loaded current s.user
      guesses := if failed p.loaded (.refused error current) && !locked s.now s.user
        then s.guesses + 1 else s.guesses }

def step (s : State) : Event → State
  | .read body salt =>
    if locked s.now s.user then s
    else { s with inflight := s.inflight ++ [⟨body, salt, s.user⟩] }
  | .commit n =>
    match s.inflight[n]? with
    | none => s
    | some p => commitLogin settings services p { s with inflight := s.inflight.eraseIdx n }
  | .tick ms =>
    { s with
      now := s.now + ms
      guesses := if locked s.now s.user && !locked (s.now + ms) s.user then 0 else s.guesses }

/-- No failed login commits over a greater count than it read, unless the account is locked. -/
def KeepsCount (s : State) : Event → Prop
  | .commit n => ∀ p ∈ s.inflight[n]?, failed p.loaded (verdict settings services s.now p) →
      locked s.now s.user = false → s.user.failedAttempts ≤ p.loaded.failedAttempts
  | .read _ _ => True
  | .tick _ => True

instance (s : State) : DecidablePred (KeepsCount settings services s)
  | .commit n => inferInstanceAs (Decidable (∀ p ∈ s.inflight[n]?,
      failed p.loaded (verdict settings services s.now p) →
        locked s.now s.user = false → s.user.failedAttempts ≤ p.loaded.failedAttempts))
  | .read _ _ => isTrue trivial
  | .tick _ => isTrue trivial

/-! ## What a login does to the row -/

variable {settings services}

variable (settings services) in
/-- A login of an account that was not locked leaves the row, counts a failure, or goes on with
no failures. -/
theorem verdict_cases {now : ℕ} {p : Pending} (hunlocked : locked now p.loaded = false) :
    (∃ error, verdict settings services now p = .refused error p.loaded) ∨
    (∃ error, verdict settings services now p =
      .refused error (countFailure settings now p.loaded)) ∨
    ∃ current, verdict settings services now p = .granted current := by
  unfold verdict login
  split
  · exact .inl ⟨_, rfl⟩
  · split
    · rename_i hlocked
      rw [locked] at hunlocked
      rw [hunlocked] at hlocked
      cases hlocked
    · split
      · exact .inr (.inl ⟨_, rfl⟩)
      · split
        · dsimp only [checkMfa]
          split
          · exact .inr (.inl ⟨_, rfl⟩)
          · split
            · exact .inl ⟨_, rfl⟩
            · split
              · exact .inl ⟨_, rfl⟩
              · split
                · exact .inr (.inr ⟨_, rfl⟩)
                · exact .inr (.inl ⟨_, rfl⟩)
        · exact .inr (.inr ⟨_, rfl⟩)

theorem updateUser_self (loaded stored : User) : updateUser loaded loaded stored = stored := by
  simp [updateUser]

/-- A failed login writes the count that it read plus one. -/
theorem updateUser_failedAttempts (now : ℕ) (loaded stored : User) :
    (updateUser loaded (countFailure settings now loaded) stored).failedAttempts =
      loaded.failedAttempts + 1 := by
  simp [updateUser, countFailure, writeBack]

/-- The last failure that is allowed writes the lock. -/
theorem locked_updateUser {now : ℕ} {loaded : User} (hunlocked : locked now loaded = false)
    (hduration : 0 < settings.lockoutDurationMin)
    (hmany : settings.maxLoginAttempts ≤ loaded.failedAttempts + 1) (stored : User) :
    locked now (updateUser loaded (countFailure settings now loaded) stored) := by
  have hlate : now < now + settings.lockoutDurationMin * 60000 := by omega
  have hchanged : some (now + settings.lockoutDurationMin * 60000) ≠ loaded.lockedUntil := by
    intro heq
    simp [locked, ← heq] at hunlocked
    omega
  simp [locked, updateUser, countFailure, hmany, writeBack_changed hchanged, hlate]

/-- An earlier failure leaves the lock as it is stored. -/
theorem lockedUntil_updateUser {now : ℕ} {loaded : User}
    (hfew : ¬ settings.maxLoginAttempts ≤ loaded.failedAttempts + 1) (stored : User) :
    (updateUser loaded (countFailure settings now loaded) stored).lockedUntil =
      stored.lockedUntil := by
  simp [updateUser, countFailure, hfew]

/-! ## Counting guesses -/

/-- The guesses are bounded; while the account is open, they are counted and another one is
allowed, and no login in flight was read under a lock. -/
structure Bounded (settings : Settings) (s : State) : Prop where
  guesses : s.guesses ≤ settings.maxLoginAttempts
  counted : locked s.now s.user = false →
    s.guesses ≤ s.user.failedAttempts ∧ s.guesses < settings.maxLoginAttempts
  inflight : ∀ p ∈ s.inflight, locked s.now p.loaded = false

theorem locked_of_later {now ms : ℕ} {user : User} (h : locked now user = false) :
    locked (now + ms) user = false := by
  cases huntil : user.lockedUntil with
  | none => simp [locked, huntil]
  | some t =>
    simp only [locked, huntil, Option.any_some, decide_eq_false_iff_not] at h ⊢
    omega

theorem bounded_commitLogin {p : Pending} {s : State} (hbounded : Bounded settings s)
    (hunlocked : locked s.now p.loaded = false) (hattempts : 0 < settings.maxLoginAttempts)
    (hduration : 0 < settings.lockoutDurationMin)
    (hkeeps : failed p.loaded (verdict settings services s.now p) →
      locked s.now s.user = false → s.user.failedAttempts ≤ p.loaded.failedAttempts) :
    Bounded settings (commitLogin settings services p s) := by
  rcases verdict_cases settings services hunlocked with
    ⟨error, hv⟩ | ⟨error, hv⟩ | ⟨current, hv⟩
  · have hsame : commitLogin settings services p s = s := by
      simp [commitLogin, hv, updateUser_self, failed]
    rw [hsame]
    exact hbounded
  · have hfailed : failed p.loaded (.refused error (countFailure settings s.now p.loaded)) := by
      simp [failed, countFailure]
    have hstays : ∀ u : User, locked s.now u → locked s.now
        (updateUser p.loaded (countFailure settings s.now p.loaded) u) := by
      intro u hu
      by_cases hmany : settings.maxLoginAttempts ≤ p.loaded.failedAttempts + 1
      · exact locked_updateUser hunlocked hduration hmany u
      · rw [locked, lockedUntil_updateUser hmany]
        exact hu
    simp only [commitLogin, hv, hfailed, Bool.true_and]
    cases hlock : locked s.now s.user with
    | true =>
      refine ⟨by simpa using hbounded.guesses, fun hopen => ?_, hbounded.inflight⟩
      exact absurd (hstays s.user hlock) (by simpa using hopen)
    | false =>
      obtain ⟨hcount, hless⟩ := hbounded.counted hlock
      have hread : s.user.failedAttempts ≤ p.loaded.failedAttempts :=
        hkeeps (by rw [hv]; exact hfailed) hlock
      refine ⟨by simpa using Nat.succ_le_of_lt hless, fun hopen => ?_, hbounded.inflight⟩
      have hfew : ¬ settings.maxLoginAttempts ≤ p.loaded.failedAttempts + 1 := by
        intro hmany
        exact absurd (locked_updateUser hunlocked hduration hmany s.user) (by simpa using hopen)
      simp only [Bool.not_false, ↓reduceIte, updateUser_failedAttempts]
      omega
  · simp only [commitLogin, hv]
    exact ⟨Nat.zero_le _, fun _ => ⟨Nat.zero_le _, hattempts⟩, hbounded.inflight⟩

theorem bounded_step {s : State} (hattempts : 0 < settings.maxLoginAttempts)
    (hduration : 0 < settings.lockoutDurationMin) (e : Event) (hbounded : Bounded settings s)
    (hkeeps : KeepsCount settings services s e) :
    Bounded settings (step settings services s e) := by
  cases e with
  | read body salt =>
    simp only [step]
    split
    · exact hbounded
    · rename_i hopen
      refine ⟨hbounded.guesses, hbounded.counted, fun p hp => ?_⟩
      rcases List.mem_append.mp hp with hp | hp
      · exact hbounded.inflight p hp
      · rw [List.mem_singleton.mp hp]
        exact Bool.not_eq_true _ ▸ hopen
  | commit n =>
    simp only [step]
    split
    · exact hbounded
    · rename_i p hp
      have hmem : p ∈ s.inflight := List.mem_of_getElem? hp
      refine bounded_commitLogin ⟨hbounded.guesses, hbounded.counted, fun q hq => ?_⟩
        (hbounded.inflight p hmem) hattempts hduration (hkeeps p hp)
      exact hbounded.inflight q (List.mem_of_mem_eraseIdx hq)
  | tick ms =>
    have hinflight : ∀ p ∈ s.inflight, locked (s.now + ms) p.loaded = false := fun p hp =>
      locked_of_later (hbounded.inflight p hp)
    simp only [step]
    cases hlock : locked s.now s.user with
    | false =>
      exact ⟨by simpa using hbounded.guesses, fun _ => by simpa using hbounded.counted hlock,
        hinflight⟩
    | true =>
      cases hlater : locked (s.now + ms) s.user with
      | true =>
        refine ⟨by simpa using hbounded.guesses, fun hopen => ?_, hinflight⟩
        rw [hlater] at hopen
        cases hopen
      | false => exact ⟨Nat.zero_le _, fun _ => ⟨Nat.zero_le _, hattempts⟩, hinflight⟩

/-- Services under which the hash of a password is the password. -/
def plainServices : Services where
  hash password _ := password
  verifyHash password hash := password = hash
  verifyTotp _ _ _ := false
  encryptSecret secret _ := secret
  decryptSecret ciphertext _ := some ciphertext
  validatePassword _ _ := .ok ()

def alice : User where
  id := "1"
  username := "alice"
  passwordHash := "correct horse"
  role := "viewer"
  mfaSecret := none
  mfaEnabled := false
  failedAttempts := 0
  lockedUntil := none
  lastLogin := none
  isActive := true

end Kepryx.LoginLockout
