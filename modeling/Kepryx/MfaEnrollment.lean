import Mathlib.Data.List.TakeDrop
import Kepryx.Accounts
import Kepryx.Runs

/-!
# Enrolment of the second factor

`mfa_enroll` stores a new secret while MFA is disabled, and `mfa_confirm` enables MFA after it
verified a code for the secret that it loaded. Each checks the column that the other writes
only when it reads, so overlapping requests can enable MFA with a secret that nobody
confirmed.
-/
namespace Kepryx.MfaEnrollment
open Kepryx.Accounts Kepryx.TokenBlocklist Kepryx.UnitOfWork Kepryx.Runs

/-- A salt of `token_urlsafe`, whose alphabet has no colon. -/
structure Salt where
  text : String
  colonless : ':' ∉ text.toList
  deriving DecidableEq, Repr

inductive Request where
  | enroll (currentPassword secret : String) (salt : Salt)
  | confirm (currentPassword code : String)
  | login (body : LoginRequest) (salt : Salt)
  deriving DecidableEq, Repr

/-- What a request decides: the object of the user, and the secret for which it verified a code
as a confirmation. -/
structure Decision where
  current : User
  verified : Option String := none
  deriving DecidableEq, Repr

variable (settings : Settings) (services : Services)

/-! ## The requests -/

/-- `mfa_enroll` -/
def mfaEnroll (currentPassword secret : String) (salt : Salt) (user : User) : Decision :=
  if user.mfaEnabled then { current := user }
  else if services.verifyHash currentPassword user.passwordHash = false then { current := user }
  else { current := { user with mfaSecret := some (protectMfaSecret services salt.text secret) } }

/-- `mfa_confirm`. A secret that cannot be read is an exception. -/
def mfaConfirm (now : ℕ) (currentPassword code : String) (user : User) : Decision :=
  match user.mfaSecret.filter (· ≠ "") with
  | none => { current := user }
  | some secret =>
    if services.verifyHash currentPassword user.passwordHash = false then { current := user }
    else
      match revealMfaSecret services secret with
      | none => { current := user }
      | some plain =>
        if services.verifyTotp plain code now then
          { current := { user with mfaEnabled := true }, verified := some plain }
        else { current := user }

/-- The object of the user after a login, refused or granted. -/
def decided : Verdict → User
  | .refused _ current => current
  | .granted current => current

/-- `login` -/
def decideLogin (now : ℕ) (body : LoginRequest) (salt : Salt) (user : User) : Decision :=
  { current := decided (login settings services now salt.text body user) }

def Request.decide (now : ℕ) (user : User) : Request → Decision
  | .enroll currentPassword secret salt => mfaEnroll services currentPassword secret salt user
  | .confirm currentPassword code => mfaConfirm services now currentPassword code user
  | .login body salt => decideLogin settings services now body salt user

/-! ## Reads and commits -/

/-- The row, the requests between their read and their commit, and the secrets for which a
confirmation verified a code. -/
structure State where
  user : User
  inflight : List (Request × User) := []
  confirmed : List String := []
  deriving DecidableEq, Repr

/-- A request reads the row, or the request at a position commits. -/
inductive Event where
  | read (request : Request)
  | commit (n now : ℕ)
  deriving DecidableEq, Repr

/-- The UPDATE of the row: the changed columns, over the stored row. -/
def commitUser (loaded current stored : User) : User :=
  { updateUser loaded current stored with
    mfaEnabled := writeBack loaded.mfaEnabled current.mfaEnabled stored.mfaEnabled }

/-- The commit of a request that loaded a row. -/
def commit (now : ℕ) (request : Request) (loaded : User) (s : State) : State :=
  let d := request.decide settings services now loaded
  { s with
    user := commitUser loaded d.current s.user
    confirmed := d.verified.toList ++ s.confirmed }

def step (s : State) : Event → State
  | .read request => { s with inflight := s.inflight ++ [(request, s.user)] }
  | .commit n now =>
    match s.inflight[n]? with
    | none => s
    | some (request, loaded) =>
      commit settings services now request loaded { s with inflight := s.inflight.eraseIdx n }

/-- The column reveals a secret that was confirmed. -/
def RevealsConfirmed (confirmed : List String) (column : Option String) : Prop :=
  ∃ secret ∈ column, ∃ plain ∈ revealMfaSecret services secret, plain ∈ confirmed

instance (confirmed : List String) : DecidablePred (RevealsConfirmed services confirmed) :=
  fun _ => inferInstanceAs (Decidable (∃ _, _))

/-- MFA is enabled only with a confirmed secret. -/
def EnabledConfirmed (s : State) : Prop :=
  s.user.mfaEnabled → RevealsConfirmed services s.confirmed s.user.mfaSecret

instance : DecidablePred (EnabledConfirmed services) :=
  fun _ => inferInstanceAs (Decidable (_ → _))

/-- An enrolment that stores another secret finds MFA disabled in the row, or its secret
confirmed before. A confirmation whose code is right for the secret that it loaded finds that
secret, or another confirmed one, in the row. -/
def Pairs (s : State) (now : ℕ) (loaded : User) : Request → Prop
  | .enroll currentPassword secret salt =>
    loaded.mfaEnabled = false → services.verifyHash currentPassword loaded.passwordHash →
      loaded.mfaSecret ≠ some (protectMfaSecret services salt.text secret) →
        s.user.mfaEnabled → secret ∈ s.confirmed
  | .confirm currentPassword code =>
    services.verifyHash currentPassword loaded.passwordHash →
      ∀ secret ∈ loaded.mfaSecret, secret ≠ "" → ∀ plain ∈ revealMfaSecret services secret,
        services.verifyTotp plain code now →
          RevealsConfirmed services (plain :: s.confirmed) s.user.mfaSecret
  | .login _ _ => True

instance (s : State) (now : ℕ) (loaded : User) : DecidablePred (Pairs services s now loaded)
  | .enroll _ _ _ => inferInstanceAs (Decidable (_ → _))
  | .confirm _ _ => inferInstanceAs (Decidable (_ → _))
  | .login _ _ => isTrue trivial

/-- What the commits of a run have to find in the row. -/
def Paired (s : State) : Event → Prop
  | .read _ => True
  | .commit n now => ∀ p ∈ s.inflight[n]?, Pairs services s now p.2 p.1

instance (s : State) : DecidablePred (Paired services s)
  | .read _ => isTrue trivial
  | .commit _ _ => inferInstanceAs (Decidable (∀ _, _))

/-! ## Secrets at rest -/

variable {services}

theorem span_append {xs ys : List Char} (h : ':' ∉ xs) :
    (xs ++ ':' :: ys).span (· ≠ ':') = (xs, ':' :: ys) := by
  rw [List.span_eq_takeWhile_dropWhile]
  have hkept : ∀ c ∈ xs, decide (c ≠ ':') = true := by
    intro c hc
    simpa using fun hcolon : c = ':' => h (hcolon ▸ hc)
  rw [List.takeWhile_append_of_pos hkept, List.dropWhile_append_of_pos hkept]
  simp

theorem mfaSecretIsProtected_protect (salt secret : String) :
    mfaSecretIsProtected (protectMfaSecret services salt secret) := by
  rw [mfaSecretIsProtected, String.startsWith_string_iff, protectMfaSecret]
  simp only [String.toList_append, List.append_assoc]
  exact List.prefix_append _ _

/-- A protected secret is revealed by decrypting it with its salt. -/
theorem reveal_protect (salt : Salt) (secret : String) :
    revealMfaSecret services (protectMfaSecret services salt.text secret) =
      services.decryptSecret (services.encryptSecret secret salt.text) salt.text := by
  rw [revealMfaSecret, if_pos (mfaSecretIsProtected_protect salt.text secret)]
  have hdrop : (protectMfaSecret services salt.text secret).toList.drop 3 =
      salt.text.toList ++ ':' :: (services.encryptSecret secret salt.text).toList := by
    simp [protectMfaSecret, String.toList_append]
  rw [hdrop, span_append salt.colonless]
  simp

/-! ## What the requests decide -/

/-- The object keeps the flag, and its secret changes only from a readable legacy form to the
protected one, with MFA enabled. -/
structure Migrates (services : Services) (salt : Salt) (user current : User) : Prop where
  flag : current.mfaEnabled = user.mfaEnabled
  secret : current.mfaSecret = user.mfaSecret ∨
    user.mfaEnabled ∧ ∃ secret, user.mfaSecret = some secret ∧
      revealMfaSecret services secret = some secret ∧
      current.mfaSecret = some (protectMfaSecret services salt.text secret)

theorem checkMfa_migrates (now : ℕ) (body : LoginRequest) (salt : Salt) {user : User}
    (henabled : user.mfaEnabled) :
    Migrates services salt user (decided (checkMfa settings services now salt.text body user)) := by
  unfold checkMfa
  dsimp only
  split
  · exact ⟨rfl, .inl rfl⟩
  split
  · exact ⟨rfl, .inl rfl⟩
  rename_i secret hsecret
  split
  · exact ⟨rfl, .inl rfl⟩
  split
  · by_cases hprotected : mfaSecretIsProtected secret
    · rw [if_pos hprotected]
      exact ⟨rfl, .inl rfl⟩
    · rw [if_neg hprotected]
      have hplain : revealMfaSecret services secret = some secret := by
        rw [revealMfaSecret, if_neg hprotected]
      exact ⟨rfl, .inr ⟨henabled, secret, hsecret, hplain, rfl⟩⟩
  · exact ⟨rfl, .inl rfl⟩

variable (services) in
theorem login_migrates (now : ℕ) (body : LoginRequest) (salt : Salt) (user : User) :
    Migrates services salt user (decided (login settings services now salt.text body user)) := by
  unfold login
  split_ifs with h1 h2 h3 henabled
  · exact ⟨rfl, .inl rfl⟩
  · exact ⟨rfl, .inl rfl⟩
  · exact ⟨rfl, .inl rfl⟩
  · exact checkMfa_migrates settings now body salt henabled
  · exact ⟨rfl, .inl rfl⟩

variable (services) in
/-- An enrolment keeps the flag. It stores its own protected secret while MFA is disabled, or
nothing. -/
theorem mfaEnroll_spec (currentPassword secret : String) (salt : Salt) (user : User) :
    (mfaEnroll services currentPassword secret salt user).verified = none ∧
    (mfaEnroll services currentPassword secret salt user).current.mfaEnabled = user.mfaEnabled ∧
    (mfaEnroll services currentPassword secret salt user).current.mfaSecret =
      if user.mfaEnabled = false ∧ services.verifyHash currentPassword user.passwordHash
      then some (protectMfaSecret services salt.text secret) else user.mfaSecret := by
  unfold mfaEnroll
  split_ifs <;> simp_all

variable (services) in
/-- A confirmation enables MFA after it verified a code for the secret that it loaded, or changes
nothing. -/
theorem mfaConfirm_spec (now : ℕ) (currentPassword code : String) (user : User) :
    (∃ secret ∈ user.mfaSecret, secret ≠ "" ∧ ∃ plain ∈ revealMfaSecret services secret,
      services.verifyHash currentPassword user.passwordHash ∧
      services.verifyTotp plain code now ∧
      mfaConfirm services now currentPassword code user =
        { current := { user with mfaEnabled := true }, verified := some plain }) ∨
    mfaConfirm services now currentPassword code user = { current := user } ∧
      (services.verifyHash currentPassword user.passwordHash →
        ∀ secret ∈ user.mfaSecret, secret ≠ "" → ∀ plain ∈ revealMfaSecret services secret,
          services.verifyTotp plain code now = false) := by
  cases hsecret : user.mfaSecret with
  | none => exact .inr ⟨by simp [mfaConfirm, hsecret], by simp⟩
  | some secret =>
    by_cases hempty : secret = ""
    · have hfilter : user.mfaSecret.filter (· ≠ "") = none := by
        simp [Option.filter, hsecret, hempty]
      exact .inr ⟨by simp only [mfaConfirm, hfilter], by simp [hempty]⟩
    have hfilter : user.mfaSecret.filter (· ≠ "") = some secret := by
      simp [Option.filter, hsecret, hempty]
    cases hpassword : services.verifyHash currentPassword user.passwordHash with
    | false =>
      refine .inr ⟨?_, by simp⟩
      simp only [mfaConfirm, hfilter, hpassword, if_true]
    | true =>
      cases hplain : revealMfaSecret services secret with
      | none =>
        refine .inr ⟨?_, by simp [hplain]⟩
        simp only [mfaConfirm, hfilter, hpassword, hplain, Bool.true_eq_false, if_false]
      | some plain =>
        cases hcode : services.verifyTotp plain code now with
        | false =>
          refine .inr ⟨?_, by simp [hplain, hcode]⟩
          simp only [mfaConfirm, hfilter, hpassword, hplain, hcode, Bool.true_eq_false,
            Bool.false_eq_true, if_false]
        | true =>
          refine .inl ⟨secret, rfl, hempty, plain, hplain, rfl, hcode, ?_⟩
          simp only [mfaConfirm, hfilter, hpassword, hplain, hcode, Bool.true_eq_false, if_false,
            if_true]
          rw [hsecret]

/-! ## The pairing of secret and flag -/

theorem RevealsConfirmed.mono {confirmed confirmed' : List String} {column : Option String}
    (h : RevealsConfirmed services confirmed column) (hsub : confirmed ⊆ confirmed') :
    RevealsConfirmed services confirmed' column := by
  obtain ⟨secret, hcolumn, plain, hreveal, hmem⟩ := h
  exact ⟨secret, hcolumn, plain, hreveal, hsub hmem⟩

/-- The secret of a user with MFA is confirmed, in the row and in every request in flight. -/
structure Invariant (services : Services) (s : State) : Prop where
  row : EnabledConfirmed services s
  inflight : ∀ p ∈ s.inflight, p.2.mfaEnabled →
    s.user.mfaEnabled ∧ RevealsConfirmed services s.confirmed p.2.mfaSecret

/-- A protected secret is revealed as it was. -/
def RoundTrip (services : Services) : Prop := ∀ (secret : String) (salt : Salt),
  services.decryptSecret (services.encryptSecret secret salt.text) salt.text = some secret

theorem revealsConfirmed_protect (hround : RoundTrip services) {confirmed : List String}
    (salt : Salt) (secret : String) :
    RevealsConfirmed services confirmed (some (protectMfaSecret services salt.text secret)) ↔
      secret ∈ confirmed := by
  have hreveal : revealMfaSecret services (protectMfaSecret services salt.text secret) =
      some secret := by
    rw [reveal_protect, hround]
  constructor
  · rintro ⟨stored, hcolumn, plain, hplain, hmem⟩
    cases hcolumn
    rw [hreveal] at hplain
    cases hplain
    exact hmem
  · intro hmem
    exact ⟨_, rfl, secret, hreveal, hmem⟩

/-! ## Commits -/

section Commit
variable {settings : Settings} {s : State} {now : ℕ} {loaded : User}

theorem commitUser_secret_of_eq {current stored : User} (h : current.mfaSecret = loaded.mfaSecret) :
    (commitUser loaded current stored).mfaSecret = stored.mfaSecret := by
  simp [commitUser, updateUser, h]

theorem commitUser_secret_of_ne {current stored : User} (h : current.mfaSecret ≠ loaded.mfaSecret) :
    (commitUser loaded current stored).mfaSecret = current.mfaSecret := by
  simp [commitUser, updateUser, writeBack_changed h]

theorem commitUser_flag_of_eq {current stored : User} (h : current.mfaEnabled = loaded.mfaEnabled) :
    (commitUser loaded current stored).mfaEnabled = stored.mfaEnabled := by
  simp [commitUser, h]

theorem enabledConfirmed_enroll (hround : RoundTrip services)
    (hrow : EnabledConfirmed services s) (currentPassword secret : String) (salt : Salt) :
    EnabledConfirmed services
        (commit settings services now (.enroll currentPassword secret salt) loaded s) ↔
      Pairs services s now loaded (.enroll currentPassword secret salt) := by
  obtain ⟨hverified, hflag, hsecret⟩ := mfaEnroll_spec services currentPassword secret salt loaded
  unfold EnabledConfirmed Pairs commit Request.decide
  simp only [hverified, Option.toList_none, List.nil_append, commitUser_flag_of_eq hflag]
  by_cases hstores : loaded.mfaEnabled = false ∧
      services.verifyHash currentPassword loaded.passwordHash ∧
      loaded.mfaSecret ≠ some (protectMfaSecret services salt.text secret)
  · obtain ⟨hdisabled, hpassword, hne⟩ := hstores
    rw [if_pos ⟨hdisabled, hpassword⟩] at hsecret
    rw [commitUser_secret_of_ne (hsecret ▸ hne.symm), hsecret, revealsConfirmed_protect hround]
    exact ⟨fun h _ _ _ => h, fun h => h hdisabled hpassword hne⟩
  · have hsame : (mfaEnroll services currentPassword secret salt loaded).current.mfaSecret =
        loaded.mfaSecret := by
      rw [hsecret]
      split_ifs with hboth
      · by_contra hne
        exact hstores ⟨hboth.1, hboth.2, Ne.symm hne⟩
      · rfl
    rw [commitUser_secret_of_eq hsame]
    refine iff_of_true hrow fun hdisabled hpassword hne => ?_
    exact absurd ⟨hdisabled, hpassword, hne⟩ hstores

theorem enabledConfirmed_confirm (hrow : EnabledConfirmed services s)
    (hloaded : loaded.mfaEnabled → s.user.mfaEnabled) (currentPassword code : String) :
    EnabledConfirmed services
        (commit settings services now (.confirm currentPassword code) loaded s) ↔
      Pairs services s now loaded (.confirm currentPassword code) := by
  unfold EnabledConfirmed Pairs commit Request.decide
  rcases mfaConfirm_spec services now currentPassword code loaded with
    ⟨secret, hsecret, hempty, plain, hplain, hpassword, hcode, h⟩ | ⟨h, hwrong⟩
  · have hflag : (commitUser loaded { loaded with mfaEnabled := true } s.user).mfaEnabled := by
      cases henabled : loaded.mfaEnabled with
      | true => simp [commitUser, henabled, hloaded henabled]
      | false => simp [commitUser, henabled, writeBack]
    simp only [h, hflag, Option.toList_some, List.singleton_append, forall_const,
      commitUser_secret_of_eq]
    constructor
    · intro hreveals _ secret' hsecret' _ plain' hplain' _
      cases hsecret.symm.trans hsecret'
      cases hplain.symm.trans hplain'
      exact hreveals
    · intro hpairs
      exact hpairs hpassword secret hsecret hempty plain hplain hcode
  · simp only [h, Option.toList_none, List.nil_append, commitUser_flag_of_eq,
      commitUser_secret_of_eq]
    refine iff_of_true hrow fun hpassword secret hsecret hempty plain hplain hcode => ?_
    rw [hwrong hpassword secret hsecret hempty plain hplain] at hcode
    cases hcode

theorem enabledConfirmed_login (hround : RoundTrip services) (hrow : EnabledConfirmed services s)
    (hloaded : loaded.mfaEnabled → RevealsConfirmed services s.confirmed loaded.mfaSecret)
    (body : LoginRequest) (salt : Salt) :
    EnabledConfirmed services (commit settings services now (.login body salt) loaded s) := by
  obtain ⟨hflag, hsecret⟩ := login_migrates settings services now body salt loaded
  unfold EnabledConfirmed commit Request.decide
  simp only [decideLogin, Option.toList_none, List.nil_append, commitUser_flag_of_eq hflag]
  by_cases hsame : (decided (login settings services now salt.text body loaded)).mfaSecret =
      loaded.mfaSecret
  · rw [commitUser_secret_of_eq hsame]
    exact hrow
  · obtain ⟨henabled, secret, hcolumn, hplain, hnew⟩ := hsecret.resolve_left hsame
    rw [commitUser_secret_of_ne hsame, hnew, revealsConfirmed_protect hround]
    intro _
    obtain ⟨secret', hcolumn', plain, hreveal, hmem⟩ := hloaded henabled
    rw [hcolumn] at hcolumn'
    cases hcolumn'
    rw [hplain] at hreveal
    cases hreveal
    exact hmem

/-- No request switches MFA off. -/
theorem commit_flag (request : Request) (h : s.user.mfaEnabled) :
    (commit settings services now request loaded s).user.mfaEnabled := by
  unfold commit Request.decide
  cases request with
  | enroll currentPassword secret salt =>
    have hflag := (mfaEnroll_spec services currentPassword secret salt loaded).2.1
    simp only [commitUser_flag_of_eq hflag, h]
  | confirm currentPassword code =>
    rcases mfaConfirm_spec services now currentPassword code loaded with
      ⟨_, _, _, _, _, _, _, hc⟩ | ⟨hc, -⟩
    · simp [hc, commitUser, writeBack, h]
    · simp only [hc, commitUser_flag_of_eq, h]
  | login body salt =>
    have hflag := (login_migrates settings services now body salt loaded).flag
    simp only [decideLogin, commitUser_flag_of_eq hflag, h]

theorem enabledConfirmed_commit (hround : RoundTrip services) (hrow : EnabledConfirmed services s)
    (hloaded : loaded.mfaEnabled →
      s.user.mfaEnabled ∧ RevealsConfirmed services s.confirmed loaded.mfaSecret)
    (request : Request) :
    EnabledConfirmed services (commit settings services now request loaded s) ↔
      Pairs services s now loaded request := by
  cases request with
  | enroll currentPassword secret salt =>
    exact enabledConfirmed_enroll hround hrow currentPassword secret salt
  | confirm currentPassword code =>
    exact enabledConfirmed_confirm hrow (fun h => (hloaded h).1) currentPassword code
  | login body salt =>
    exact iff_of_true (enabledConfirmed_login hround hrow (fun h => (hloaded h).2) body salt)
      trivial

theorem pairs_inflight (inflight : List (Request × User)) {request : Request} :
    Pairs services { s with inflight := inflight } now loaded request ↔
      Pairs services s now loaded request := by
  cases request <;> rfl

end Commit

/-! ## Runs -/

variable {settings : Settings}

theorem enabledConfirmed_step (hround : RoundTrip services) {s : State}
    (h : Invariant services s) (e : Event) :
    EnabledConfirmed services (step settings services s e) ↔ Paired services s e := by
  cases e with
  | read request => exact iff_of_true h.row trivial
  | commit n now =>
    cases hn : s.inflight[n]? with
    | none =>
      simp only [step, Paired, hn]
      exact iff_of_true h.row fun p hp => by cases hp
    | some p =>
      simp only [step, Paired, hn, Option.mem_some_iff, forall_eq']
      rw [← pairs_inflight (s.inflight.eraseIdx n)]
      exact enabledConfirmed_commit hround h.row (h.inflight p (List.mem_of_getElem? hn)) p.1

theorem invariant_step (hround : RoundTrip services) {s : State} (h : Invariant services s)
    (e : Event) (hpaired : Paired services s e) :
    Invariant services (step settings services s e) := by
  refine ⟨(enabledConfirmed_step hround h e).mpr hpaired, ?_⟩
  cases e with
  | read request =>
    intro p hp henabled
    rcases List.mem_append.mp hp with hp | hp
    · exact h.inflight p hp henabled
    · rw [List.mem_singleton.mp hp] at henabled ⊢
      exact ⟨henabled, h.row henabled⟩
  | commit n now =>
    simp only [step]
    split
    · exact h.inflight
    · rename_i request loaded hn
      intro q hq henabled
      obtain ⟨hflag, hreveals⟩ := h.inflight q (List.mem_of_mem_eraseIdx hq) henabled
      exact ⟨commit_flag request hflag, hreveals.mono (List.subset_append_right _ _)⟩

/-- MFA is enabled only with a confirmed secret in every state of a run, exactly when its commits
find in the row what their checks read: an enrolment MFA disabled, and a confirmation the secret
that it verified, unless the secret in question was confirmed as well. -/
theorem enabled_confirmed_iff (settings : Settings) (services : Services)
    (hround : RoundTrip services) (user : User) (hdisabled : user.mfaEnabled = false)
    (events : List Event) :
    Always (step settings services) (EnabledConfirmed services) { user := user } events ↔
      Along (step settings services) (Paired services) { user := user } events := by
  refine always_iff_along_of_invariant (fun s hs => hs.row)
    (fun s e hs => enabledConfirmed_step hround hs e)
    (fun s e hs => invariant_step hround hs e) ⟨?_, ?_⟩ events
  · intro henabled
    rw [hdisabled] at henabled
    cases henabled
  · intro p hp
    exact absurd hp List.not_mem_nil

/-- Services that hash and encrypt nothing, and whose code for a secret is the secret. -/
def plainServices : Services where
  hash password _ := password
  verifyHash password hash := password = hash
  verifyTotp secret code _ := secret = code
  encryptSecret secret _ := secret
  decryptSecret ciphertext _ := some ciphertext
  validatePassword _ _ := .ok ()

theorem plainServices_roundTrip : RoundTrip plainServices := fun _ _ => rfl

def alice : User where
  id := "1"
  username := "alice"
  passwordHash := "correct horse"
  role := "viewer"
  mfaSecret := none
  mfaEnabled := false
  failedAttempts := 0
  lockedUntil := none
  lastLogin := none
  isActive := true

def salt : Salt := ⟨"salt", by decide⟩

def enroll (secret : String) : Event := .read (.enroll "correct horse" secret salt)

def confirm (code : String) : Event := .read (.confirm "correct horse" code)

/-- Two enrolments and a confirmation of the second one, each committed before the next. -/
theorem enabled_confirmed_sequential :
    Always (step {} plainServices) (EnabledConfirmed plainServices) { user := alice }
      [enroll "111111", .commit 0 0, enroll "222222", .commit 0 1, confirm "222222",
        .commit 0 2, .read (.login ⟨"alice", "correct horse", some "222222"⟩ salt),
        .commit 0 3] :=
  (enabled_confirmed_iff {} plainServices plainServices_roundTrip alice rfl _).mpr
    (by decide +kernel)

/-- An enrolment that read before a confirmation commits after it. -/
theorem overlapping_enrolment_unconfirmed :
    ¬ ∀ (settings : Settings) (services : Services), RoundTrip services → ∀ user : User,
      user.mfaEnabled = false → ∀ events : List Event,
        Always (step settings services) (EnabledConfirmed services) { user := user } events := by
  intro h
  have hconfirmed := h {} plainServices plainServices_roundTrip alice rfl
    [enroll "111111", .commit 0 0, enroll "222222", confirm "111111", .commit 1 1, .commit 0 2]
    _ List.prefix_rfl
  revert hconfirmed
  decide +kernel

end Kepryx.MfaEnrollment
