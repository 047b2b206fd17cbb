import Kepryx.TokenBlocklist
import Kepryx.UnitOfWork

/-!
# Accounts

The row of a user and what `login` and `change_password` decide about it. A request loads the
row first and writes the columns that it changed later. Instants are milliseconds.
-/
namespace Kepryx.Accounts
open Kepryx.UnitOfWork Kepryx.TokenBlocklist

/-- The columns of `users` that the authentication endpoints read or write. -/
structure User where
  id : String
  username : String
  passwordHash : String
  role : String
  mfaSecret : Option String
  mfaEnabled : Bool
  failedAttempts : ℕ
  lockedUntil : Option ℕ
  lastLogin : Option ℕ
  isActive : Bool
  deriving DecidableEq, Repr

/-- The password hasher, the one-time passwords, the encryption of secrets and the password
policy. A salt is drawn for each hash and each encryption. -/
structure Services where
  hash : String → String → String
  verifyHash : String → String → Bool
  verifyTotp : String → String → ℕ → Bool
  encryptSecret : String → String → String
  decryptSecret : String → String → Option String
  validatePassword : String → String → Except String Unit

/-- An answer that is not a success. -/
structure HttpError where
  status : ℕ
  detail : String
  deriving DecidableEq, Repr

def unauthorized (detail : String) : HttpError := ⟨401, detail⟩

/-- An exception that no handler turns into an answer. -/
def serverError : HttpError := ⟨500, "Internal Server Error"⟩

variable (settings : Settings) (services : Services)

/-! ## Second factor -/

/-- `mfa_secret_is_protected` -/
def mfaSecretIsProtected (secret : String) : Bool := secret.startsWith "v1:"

/-- `protect_mfa_secret` -/
def protectMfaSecret (salt secret : String) : String :=
  "v1:" ++ salt ++ ":" ++ services.encryptSecret secret salt

/-- `reveal_mfa_secret`, with nothing for an exception. -/
def revealMfaSecret (secret : String) : Option String :=
  if mfaSecretIsProtected secret then
    match (secret.toList.drop 3).span (· ≠ ':') with
    | (salt, _ :: ciphertext) =>
      services.decryptSecret (String.ofList ciphertext) (String.ofList salt)
    | (_, []) => none
  else some secret

/-! ## Login -/

structure LoginRequest where
  username : String
  password : String
  mfaCode : Option String
  deriving DecidableEq, Repr

/-- A refused login and the row that it commits, or the row with which it goes on. -/
inductive Verdict where
  | refused (error : HttpError) (user : User)
  | granted (user : User)

/-- One more failed attempt, and the lock when there are too many. -/
def countFailure (now : ℕ) (user : User) : User :=
  { user with
    failedAttempts := user.failedAttempts + 1
    lockedUntil :=
      if settings.maxLoginAttempts ≤ user.failedAttempts + 1 then
        some (now + settings.lockoutDurationMin * 60000)
      else user.lockedUntil }

/-- The row of a login that succeeds. -/
def loggedIn (now : ℕ) (user : User) : User :=
  { user with failedAttempts := 0, lockedUntil := none, lastLogin := some now }

/-- The second factor of `login`. A secret that cannot be read is an exception. -/
def checkMfa (now : ℕ) (salt : String) (body : LoginRequest) (user : User) : Verdict :=
  let wrong := .refused (unauthorized "MFA required or invalid") (countFailure settings now user)
  match body.mfaCode.filter (· ≠ "") with
  | none => wrong
  | some code =>
    match user.mfaSecret with
    | none => .refused serverError user
    | some secret =>
      match revealMfaSecret services secret with
      | none => .refused serverError user
      | some plain =>
        if services.verifyTotp plain code now then
          .granted (loggedIn now (if mfaSecretIsProtected secret then user
            else { user with mfaSecret := some (protectMfaSecret services salt secret) }))
        else wrong

/-- `login`, from the loaded row to the tokens. -/
def login (now : ℕ) (salt : String) (body : LoginRequest) (user : User) : Verdict :=
  if user.username ≠ body.username then .refused (unauthorized "Invalid credentials") user
  else if user.lockedUntil.any (now < ·) then
    .refused ⟨423, "Account locked for " ++
      toString ((user.lockedUntil.getD now - now) / 60000) ++ "m"⟩ user
  else if services.verifyHash body.password user.passwordHash = false then
    .refused (unauthorized "Invalid credentials") (countFailure settings now user)
  else if user.mfaEnabled then checkMfa settings services now salt body user
  else .granted (loggedIn now user)

/-- A login that goes on has verified its password against the loaded hash, and keeps it. -/
theorem login_granted {now : ℕ} {salt : String} {body : LoginRequest} {user current : User}
    (h : login settings services now salt body user = .granted current) :
    services.verifyHash body.password user.passwordHash = true ∧
      current.passwordHash = user.passwordHash := by
  have hrow : ∀ u : User, (loggedIn now u).passwordHash = u.passwordHash := fun _ => rfl
  unfold login at h
  split at h
  · cases h
  split at h
  · cases h
  split at h
  · cases h
  rename_i hverify
  refine ⟨by simpa using hverify, ?_⟩
  split at h
  · simp only [checkMfa] at h
    split at h
    · cases h
    split at h
    · cases h
    split at h
    · cases h
    split at h
    · cases h
      rw [hrow]
      split <;> rfl
    · cases h
  · cases h
    exact hrow user

/-! ## Password change -/

structure PasswordChange where
  currentPassword : String
  newPassword : String
  deriving DecidableEq, Repr

/-- `change_password`, from the loaded row to the revocation: the hash to be stored. -/
def checkPasswordChange (salt : String) (body : PasswordChange) (user : User) :
    Except HttpError String :=
  if services.verifyHash body.currentPassword user.passwordHash = false then
    .error (unauthorized "Current password wrong")
  else
    match services.validatePassword body.newPassword user.username with
    | .error detail => .error ⟨400, detail⟩
    | .ok () => .ok (services.hash body.newPassword salt)

/-- The UPDATE of a row: the changed columns, over the stored row. -/
def updateUser (loaded current stored : User) : User where
  id := stored.id
  username := stored.username
  passwordHash := writeBack loaded.passwordHash current.passwordHash stored.passwordHash
  role := stored.role
  mfaSecret := writeBack loaded.mfaSecret current.mfaSecret stored.mfaSecret
  mfaEnabled := stored.mfaEnabled
  failedAttempts := writeBack loaded.failedAttempts current.failedAttempts stored.failedAttempts
  lockedUntil := writeBack loaded.lockedUntil current.lockedUntil stored.lockedUntil
  lastLogin := writeBack loaded.lastLogin current.lastLogin stored.lastLogin
  isActive := stored.isActive

end Kepryx.Accounts
