import Kepryx.Accounts
import Kepryx.Runs

/-!
# Sessions

Requests of one user that run concurrently: any number of logins and refreshes and one change
of the password. The clock, Redis and the database are shared, and a request does one of its
steps at a time: a step reads or writes Redis once, reads or commits the row once, or issues a
pair of tokens. A request may stop between any two of its steps.
-/
namespace Kepryx.Sessions
open Kepryx.TokenBlocklist Kepryx.Accounts Kepryx.Runs

variable (settings : Settings) (services : Services)

/-- A login: the password that it verified and the stored hash that it verified it against. -/
structure Session where
  password : String
  hash : String
  verified : services.verifyHash password hash = true

/-- A token and the login at which its chain of refreshes starts. -/
structure Token where
  payload : Payload
  session : Session services

/-- A request between two of its steps. -/
inductive Request where
  | decoded (token : Token services)
  | checked (token : Token services)
  | consumed (token : Token services)
  | loaded (token : Token services) (user : User)
  | verified (session : Session services) (loaded current : User)
  | ending (loaded current : User)

/-- How far the change of the password is, with the hash to be stored and the millisecond that
the revocation recorded. -/
inductive Change where
  | idle
  | verified (loaded : User) (newHash : String)
  | revoked (loaded : User) (newHash : String) (instant : ℕ)
  | committed (newHash : String) (instant : ℕ)
  | failed

structure State where
  now : ℕ
  redis : Redis
  user : User
  issued : List (Token services)
  requests : List (Request services)
  change : Change

/-- Time passes, a request arrives or does its next step, or the change of the password does.
Salts and token identifiers are drawn. -/
inductive Event where
  | tick (elapsed : ℕ)
  | login (body : LoginRequest) (salt : String)
  | refresh (n : ℕ)
  | next (n : ℕ) (accessJti refreshJti : String)
  | fail (n : ℕ)
  | verifyPassword (body : PasswordChange) (salt : String)
  | revokeTokens
  | commitPassword
  | failChange

variable {services}

/-- An identifier that no token has. -/
def Unused (s : State services) (jti : String) : Prop :=
  jti ≠ "" ∧ s.redis.revoked.get s.now jti = none ∧ ∀ t ∈ s.issued, t.payload.jti ≠ jti

/-- Identifiers that can be drawn for a pair. -/
def Drawn (s : State services) (accessJti refreshJti : String) : Prop :=
  Unused s accessJti ∧ Unused s refreshJti ∧ accessJti ≠ refreshJti

instance (s : State services) (jti : String) : Decidable (Unused s jti) :=
  inferInstanceAs (Decidable (_ ∧ _ ∧ _))

instance (s : State services) (accessJti refreshJti : String) :
    Decidable (Drawn s accessJti refreshJti) :=
  inferInstanceAs (Decidable (_ ∧ _ ∧ _))

/-- The pair of tokens that ends a login and a refresh. -/
def issuePair (s : State services) (accessJti refreshJti : String) (user : User)
    (session : Session services) : State services :=
  { s with
    issued := s.issued ++ [
      ⟨createAccessToken settings s.now user.id [user.role] accessJti, session⟩,
      ⟨createRefreshToken settings s.now user.id refreshJti, session⟩] }

/-- The first step of `refresh`. -/
def decodeRefresh (now : ℕ) (token : Token services) : Except HttpError (Request services) :=
  match decodeToken now token.payload with
  | none => .error (unauthorized "Invalid token")
  | some payload =>
    if payload.type = .refresh then .ok (.decoded token)
    else .error (unauthorized "Invalid token type")

/-- The first step of `login`. -/
def loadAndVerify (s : State services) (body : LoginRequest) (salt : String) : Request services :=
  match h : Accounts.login settings services s.now salt body s.user with
  | .refused _ user => .ending s.user user
  | .granted user =>
    .verified ⟨body.password, s.user.passwordHash, (login_granted settings services h).1⟩ s.user
      user

/-- The next step of a request: what is left of it and the new state. -/
def advance (s : State services) (accessJti refreshJti : String) :
    Request services → Except HttpError (Option (Request services) × State services)
  | .decoded token =>
    if isTokenRevoked s.redis s.now token.payload then
      .error (unauthorized "Refresh token revoked or reused")
    else .ok (some (.checked token), s)
  | .checked token =>
    match markConsumed s.redis s.now token.payload with
    | none => .error (unauthorized "Refresh token revoked or reused")
    | some redis => .ok (some (.consumed token), { s with redis })
  | .consumed token =>
    if s.user.id = token.payload.sub ∧ s.user.isActive then
      .ok (some (.loaded token s.user), s)
    else .error (unauthorized "User inactive")
  | .loaded token user =>
    .ok (none, issuePair settings s accessJti refreshJti user token.session)
  | .verified session loaded current =>
    .ok (some (.ending loaded current),
      issuePair settings s accessJti refreshJti loaded session)
  | .ending loaded current => .ok (none, { s with user := updateUser loaded current s.user })

/-- Put back what is left of a request. -/
def place (n : ℕ) (rs : List (Request services)) : Option (Request services) →
    List (Request services)
  | some r => rs.set n r
  | none => rs.eraseIdx n

def step (s : State services) : Event → State services
  | .tick elapsed => { s with now := s.now + elapsed }
  | .login body salt => { s with requests := s.requests ++ [loadAndVerify settings s body salt] }
  | .refresh n =>
    match s.issued[n]? with
    | none => s
    | some token =>
      match decodeRefresh s.now token with
      | .error _ => s
      | .ok r => { s with requests := s.requests ++ [r] }
  | .next n accessJti refreshJti =>
    match s.requests[n]? with
    | none => s
    | some r =>
      if Drawn s accessJti refreshJti then
        match advance settings s accessJti refreshJti r with
        | .error _ => { s with requests := s.requests.eraseIdx n }
        | .ok (left, s') => { s' with requests := place n s.requests left }
      else s
  | .fail n => { s with requests := s.requests.eraseIdx n }
  | .verifyPassword body salt =>
    match s.change with
    | .idle =>
      match checkPasswordChange services salt body s.user with
      | .error _ => s
      | .ok newHash => { s with change := .verified s.user newHash }
    | _ => s
  | .revokeTokens =>
    match s.change with
    | .verified loaded newHash =>
      { s with
        redis := revokeUserTokens settings s.redis s.now loaded.id
        change := .revoked loaded newHash s.now }
    | _ => s
  | .commitPassword =>
    match s.change with
    | .revoked loaded newHash instant =>
      { s with
        user := updateUser loaded { loaded with passwordHash := newHash } s.user
        change := .committed newHash instant }
    | _ => s
  | .failChange =>
    match s.change with
    | .verified _ _ => { s with change := .failed }
    | .revoked _ _ _ => { s with change := .failed }
    | _ => s

/-- A user, tokens that were issued before, and no request yet. -/
structure Start (services : Services) where
  now : ℕ
  redis : Redis
  user : User
  named : user.id ≠ ""
  issued : List (Token services)
  genuine : ∀ t ∈ issued, Issued settings now t.payload

def Start.state (start : Start settings services) : State services :=
  ⟨start.now, start.redis, start.user, start.issued, [], .idle⟩

/-! ## What a step can do -/

/-- The row and the login with which the next step of a request issues a pair. -/
def Request.issues : Request services → Option (User × Session services)
  | .loaded token user => some (user, token.session)
  | .verified session row _ => some (row, session)
  | _ => none

/-- The row and the login with which an event issues a pair. -/
def issuing (s : State services) : Event → Option (User × Session services)
  | .next n accessJti refreshJti =>
    if Drawn s accessJti refreshJti then s.requests[n]?.bind Request.issues else none
  | _ => none

/-- The hash to be stored and the millisecond of the revocation, once the tokens of the user
are revoked. -/
def Change.recorded : Change → Option (String × ℕ)
  | .revoked _ newHash instant => some (newHash, instant)
  | .committed newHash instant => some (newHash, instant)
  | _ => none

/-- What a step leaves of the things that a revocation check depends on. -/
structure Same (s s' : State services) : Prop where
  now : s'.now = s.now
  user : s'.user.id = s.user.id
  revokedAfter : s'.redis.revokedAfter = s.redis.revokedAfter
  blocked : ∀ p, Blocked s.redis s.now p → Blocked s'.redis s.now p

theorem Same.refl (s : State services) : Same s s := ⟨rfl, rfl, rfl, fun _ h => h⟩

/-- The steps, each with what it needs, and the events that change nothing. -/
inductive Transition (settings : Settings) (s : State services) :
    Event → State services → Prop where
  | tick (elapsed : ℕ) : Transition settings s (.tick elapsed) { s with now := s.now + elapsed }
  | login (body : LoginRequest) (salt : String) : Transition settings s (.login body salt)
      { s with requests := s.requests ++ [loadAndVerify settings s body salt] }
  | refresh (n : ℕ) (token : Token services) (r : Request services)
      (found : s.issued[n]? = some token) (decoded : decodeRefresh s.now token = .ok r) :
      Transition settings s (.refresh n) { s with requests := s.requests ++ [r] }
  | next (n : ℕ) (accessJti refreshJti : String) (r : Request services)
      (left : Option (Request services)) (s' : State services)
      (drawn : Drawn s accessJti refreshJti) (request : s.requests[n]? = some r)
      (advanced : advance settings s accessJti refreshJti r = .ok (left, s')) :
      Transition settings s (.next n accessJti refreshJti)
        { s' with requests := place n s.requests left }
  | refuse (n : ℕ) (accessJti refreshJti : String) (r : Request services) (error : HttpError)
      (drawn : Drawn s accessJti refreshJti) (request : s.requests[n]? = some r)
      (refused : advance settings s accessJti refreshJti r = .error error) :
      Transition settings s (.next n accessJti refreshJti)
        { s with requests := s.requests.eraseIdx n }
  | fail (n : ℕ) : Transition settings s (.fail n) { s with requests := s.requests.eraseIdx n }
  | verifyPassword (body : PasswordChange) (salt newHash : String) (before : s.change = .idle)
      (checked : checkPasswordChange services salt body s.user = .ok newHash) :
      Transition settings s (.verifyPassword body salt)
        { s with change := .verified s.user newHash }
  | revokeTokens (loaded : User) (newHash : String) (before : s.change = .verified loaded newHash) :
      Transition settings s .revokeTokens { s with
        redis := revokeUserTokens settings s.redis s.now loaded.id
        change := .revoked loaded newHash s.now }
  | commitPassword (loaded : User) (newHash : String) (instant : ℕ)
      (before : s.change = .revoked loaded newHash instant) :
      Transition settings s .commitPassword { s with
        user := updateUser loaded { loaded with passwordHash := newHash } s.user
        change := .committed newHash instant }
  | failChange : Transition settings s .failChange { s with change := .failed }
  | still (e : Event) (timeless : ∀ elapsed, e ≠ .tick elapsed)
      (idle : ∀ n accessJti refreshJti, e = .next n accessJti refreshJti →
        Drawn s accessJti refreshJti → s.requests[n]? = none) : Transition settings s e s

theorem transition (settings : Settings) (s : State services) (e : Event) :
    Transition settings s e (step settings s e) := by
  cases e with
  | tick elapsed => exact .tick elapsed
  | login body salt => exact .login body salt
  | refresh n =>
    simp only [step]
    split
    · exact .still _ (by simp) (by simp)
    · split
      · exact .still _ (by simp) (by simp)
      · rename_i token hn _ r hdecode
        exact .refresh n token r hn hdecode
  | next n accessJti refreshJti =>
    simp only [step]
    split
    · rename_i hn
      refine .still _ (by simp) ?_
      rintro _ _ _ ⟨⟩ -
      exact hn
    rename_i r hn
    split
    · rename_i hdrawn
      split
      · rename_i error herror
        exact .refuse n accessJti refreshJti r error hdrawn hn herror
      · rename_i left s' hok
        exact .next n accessJti refreshJti r left s' hdrawn hn hok
    · rename_i hdrawn
      refine .still _ (by simp) ?_
      rintro _ _ _ ⟨⟩ hdrawn'
      exact absurd hdrawn' hdrawn
  | fail n => exact .fail n
  | verifyPassword body salt =>
    simp only [step]
    split
    · rename_i hidle
      split
      · exact .still _ (by simp) (by simp)
      · rename_i newHash hcheck
        exact .verifyPassword body salt newHash hidle hcheck
    · exact .still _ (by simp) (by simp)
  | revokeTokens =>
    simp only [step]
    split
    · rename_i loaded newHash hchange
      exact .revokeTokens loaded newHash hchange
    · exact .still _ (by simp) (by simp)
  | commitPassword =>
    simp only [step]
    split
    · rename_i loaded newHash instant hchange
      exact .commitPassword loaded newHash instant hchange
    · exact .still _ (by simp) (by simp)
  | failChange =>
    simp only [step]
    split
    · exact .failChange
    · exact .failChange
    · exact .still _ (by simp) (by simp)

variable {settings}

/-- Whatever is accepted after such a step was accepted before it. -/
theorem Same.accepted {s s' : State services} (h : Same s s') {p : Payload}
    (hp : Accepted s'.redis s'.now p) : Accepted s.redis s.now p := by
  rw [h.now] at hp
  obtain ⟨hfree, hsub, hafter⟩ := isTokenRevoked_eq_false.mp hp.2
  rw [h.revokedAfter] at hafter
  exact ⟨hp.1, isTokenRevoked_eq_false.mpr ⟨fun hb => hfree (h.blocked p hb), hsub, hafter⟩⟩

theorem advance_ok {s s' : State services} {accessJti refreshJti : String}
    {r : Request services} {left : Option (Request services)}
    (h : advance settings s accessJti refreshJti r = .ok (left, s')) :
    (r.issues = none ∧ Same s s' ∧ s'.issued = s.issued ∧ s'.change = s.change) ∨
      ∃ user session, r.issues = some (user, session) ∧
        s' = issuePair settings s accessJti refreshJti user session := by
  cases r with
  | decoded token =>
    simp only [advance] at h
    split at h
    · cases h
    · cases h
      exact .inl ⟨rfl, Same.refl s, rfl, rfl⟩
  | checked token =>
    simp only [advance] at h
    split at h
    · cases h
    · rename_i redis hmark
      cases h
      refine .inl ⟨rfl, ⟨rfl, rfl, ?_, fun p hp => blocked_of_markConsumed hmark hp⟩, rfl, rfl⟩
      obtain ⟨revoked, -, rfl⟩ := Option.map_eq_some_iff.mp hmark
      rfl
  | consumed token =>
    simp only [advance] at h
    split at h
    · cases h
      exact .inl ⟨rfl, Same.refl s, rfl, rfl⟩
    · cases h
  | loaded token user =>
    cases h
    exact .inr ⟨user, token.session, rfl, rfl⟩
  | verified session loaded current =>
    cases h
    exact .inr ⟨loaded, session, rfl, rfl⟩
  | ending loaded current =>
    cases h
    exact .inl ⟨rfl, ⟨rfl, rfl, rfl, fun _ hp => hp⟩, rfl, rfl⟩

/-- A request whose next step issues a pair is not refused. -/
theorem advance_issues (settings : Settings) (s : State services) (accessJti refreshJti : String)
    {r : Request services} {user : User} {session : Session services}
    (h : r.issues = some (user, session)) :
    ∃ left, advance settings s accessJti refreshJti r =
      .ok (left, issuePair settings s accessJti refreshJti user session) := by
  cases r with
  | loaded token loaded =>
    cases h
    exact ⟨_, rfl⟩
  | verified session' loaded current =>
    cases h
    exact ⟨_, rfl⟩
  | _ => cases h

/-- The four kinds of steps: time passes, the tokens of the user are revoked, a pair is issued,
or nothing happens that could make a token acceptable. -/
inductive Effect (settings : Settings) (s s' : State services) (e : Event) : Prop where
  | tick (elapsed : ℕ) (event : e = .tick elapsed)
      (state : s' = { s with now := s.now + elapsed })
  | revoke (loaded : User) (newHash : String) (event : e = .revokeTokens)
      (before : s.change = .verified loaded newHash)
      (state : s' = { s with
        redis := revokeUserTokens settings s.redis s.now loaded.id
        change := .revoked loaded newHash s.now })
  | issue (user : User) (session : Session services) (accessJti refreshJti : String)
      (requests : List (Request services))
      (issuing : issuing s e = some (user, session)) (drawn : Drawn s accessJti refreshJti)
      (state : s' = { issuePair settings s accessJti refreshJti user session with requests })
  | quiet (event : ∀ elapsed, e ≠ .tick elapsed) (issuing : issuing s e = none)
      (same : Same s s') (issued : s'.issued = s.issued)
      (recorded : s'.change.recorded = s.change.recorded ∨ s'.change.recorded = none)

theorem quiet_of_requests {s : State services} {e : Event} (event : ∀ elapsed, e ≠ .tick elapsed)
    (issuing : issuing s e = none) (requests : List (Request services)) :
    Effect settings s { s with requests } e :=
  .quiet event issuing ⟨rfl, rfl, rfl, fun _ h => h⟩ rfl (.inl rfl)

theorem quiet_of_change {s : State services} {e : Event} (event : ∀ elapsed, e ≠ .tick elapsed)
    (issuing : issuing s e = none) {change : Change} (recorded : change.recorded = none) :
    Effect settings s { s with change } e :=
  .quiet event issuing ⟨rfl, rfl, rfl, fun _ h => h⟩ rfl (.inr recorded)

theorem step_effect (settings : Settings) (s : State services) (e : Event) :
    Effect settings s (step settings s e) e := by
  have htransition := transition settings s e
  generalize step settings s e = s' at htransition ⊢
  cases htransition with
  | tick elapsed => exact .tick elapsed rfl rfl
  | login body salt => exact quiet_of_requests (by simp) rfl _
  | refresh n token r found decoded => exact quiet_of_requests (by simp) rfl _
  | next n accessJti refreshJti r left s' drawn request advanced =>
    have hissuing : issuing s (.next n accessJti refreshJti) = r.issues := by
      simp [issuing, drawn, request]
    rcases advance_ok advanced with ⟨hi, hsame, hissued, hchange⟩ | ⟨user, session, hi, rfl⟩
    · exact .quiet (by simp) (hissuing.trans hi)
        ⟨hsame.now, hsame.user, hsame.revokedAfter, hsame.blocked⟩ hissued
        (.inl (by rw [hchange]))
    · exact .issue user session accessJti refreshJti _ (hissuing.trans hi) drawn rfl
  | refuse n accessJti refreshJti r error drawn request refused =>
    have hissuing : issuing s (.next n accessJti refreshJti) = r.issues := by
      simp [issuing, drawn, request]
    refine quiet_of_requests (by simp) (hissuing.trans ?_) _
    cases hi : r.issues with
    | none => rfl
    | some p =>
      obtain ⟨left, hok⟩ := advance_issues settings s accessJti refreshJti hi
      rw [hok] at refused
      cases refused
  | fail n => exact quiet_of_requests (by simp) rfl _
  | verifyPassword body salt newHash before checked => exact quiet_of_change (by simp) rfl rfl
  | revokeTokens loaded newHash before => exact .revoke loaded newHash rfl before rfl
  | commitPassword loaded newHash instant before =>
    exact .quiet (by simp) rfl ⟨rfl, rfl, rfl, fun _ h => h⟩ rfl (.inl (by rw [before]; rfl))
  | failChange => exact quiet_of_change (by simp) rfl rfl
  | still _ timeless idle =>
    refine quiet_of_requests timeless ?_ s.requests
    unfold issuing
    split
    · rename_i n accessJti refreshJti
      split
      · rename_i hdrawn
        rw [idle n accessJti refreshJti rfl hdrawn]
        rfl
      · rfl
    · rfl

theorem user_id_step (s : State services) (e : Event) :
    (step settings s e).user.id = s.user.id := by
  cases step_effect settings s e with
  | tick elapsed event state => rw [state]
  | revoke loaded newHash event before state => rw [state]
  | issue user session accessJti refreshJti requests issuing drawn state => rw [state]; rfl
  | quiet event issuing same issued recorded => exact same.user

/-- The change holds the row from the last step, or held it before. -/
theorem verified_step {s : State services} {e : Event} {row : User} {newHash : String}
    (h : (step settings s e).change = .verified row newHash) :
    row = s.user ∨ s.change = .verified row newHash := by
  have htransition := transition settings s e
  generalize step settings s e = s' at h htransition
  cases htransition with
  | next n accessJti refreshJti r left s' drawn request advanced =>
    rcases advance_ok advanced with ⟨-, -, -, hchange⟩ | ⟨user, session, -, rfl⟩
    · exact .inr (hchange.symm.trans h)
    · exact .inr h
  | verifyPassword body salt newHash before checked =>
    cases h
    exact .inl rfl
  | revokeTokens loaded newHash before => cases h
  | commitPassword loaded newHash instant before => cases h
  | failChange => cases h
  | _ => exact .inr h

theorem decodeRefresh_issues {now : ℕ} {token : Token services} {r : Request services}
    (h : decodeRefresh now token = .ok r) : r.issues = none := by
  unfold decodeRefresh at h
  split at h
  · cases h
  · split at h
    · cases h
      rfl
    · cases h

theorem loadAndVerify_issues {s : State services} {body : LoginRequest} {salt : String}
    {user : User} {session : Session services}
    (h : (loadAndVerify settings s body salt).issues = some (user, session)) : user = s.user := by
  unfold loadAndVerify at h
  split at h
  · cases h
  · cases h
    rfl

/-- What is left of a request after a step issues a pair only if it has just loaded the row. -/
theorem advance_left_issues {s s' : State services} {accessJti refreshJti : String}
    {r left : Request services} {user : User} {session : Session services}
    (h : advance settings s accessJti refreshJti r = .ok (some left, s'))
    (hi : left.issues = some (user, session)) : user = s.user := by
  cases r with
  | decoded token =>
    simp only [advance] at h
    split at h
    · cases h
    · cases h
      cases hi
  | checked token =>
    simp only [advance] at h
    split at h
    · cases h
    · cases h
      cases hi
  | consumed token =>
    simp only [advance] at h
    split at h
    · cases h
      cases hi
      rfl
    · cases h
  | loaded token user => cases h
  | verified session loaded current =>
    cases h
    cases hi
  | ending loaded current => cases h

/-- A request that will issue a pair has the row from the last step, or had it before. -/
theorem issues_step {s : State services} {e : Event} {r : Request services}
    (h : r ∈ (step settings s e).requests) {user : User} {session : Session services}
    (hi : r.issues = some (user, session)) :
    user = s.user ∨ ∃ r' ∈ s.requests, r'.issues = some (user, session) := by
  have hold : r ∈ s.requests →
      user = s.user ∨ ∃ r' ∈ s.requests, r'.issues = some (user, session) :=
    fun h => .inr ⟨r, h, hi⟩
  have htransition := transition settings s e
  generalize step settings s e = s' at h htransition
  cases htransition with
  | login body salt =>
    rcases List.mem_append.mp h with h | h
    · exact hold h
    · rw [List.mem_singleton.mp h] at hi
      exact .inl (loadAndVerify_issues hi)
  | refresh n token r' found decoded =>
    rcases List.mem_append.mp h with h | h
    · exact hold h
    · rw [List.mem_singleton.mp h, decodeRefresh_issues decoded] at hi
      cases hi
  | next n accessJti refreshJti r' left s' drawn request advanced =>
    cases left with
    | none => exact hold (List.mem_of_mem_eraseIdx h)
    | some left =>
      rcases List.mem_or_eq_of_mem_set h with h | rfl
      · exact hold h
      · exact .inl (advance_left_issues advanced hi)
  | refuse n accessJti refreshJti r' error drawn request refused =>
    exact hold (List.mem_of_mem_eraseIdx h)
  | fail n => exact hold (List.mem_of_mem_eraseIdx h)
  | _ => exact hold h

end Kepryx.Sessions
