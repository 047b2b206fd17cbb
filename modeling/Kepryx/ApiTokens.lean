import Kepryx.Erasure
import Kepryx.Issuance

/-!
# API tokens

An administrator creates a token for a service and may revoke it. A request that presents the
token writes when it was used last and how often, in the transaction of the request. Instants
are microseconds. Requests overlap: each loads a row first and commits later, and nobody sees
before the commit what it writes.
-/
namespace Kepryx.ApiTokens
open Kepryx.Accounts Kepryx.Erasure Kepryx.IpNetworks Kepryx.Issuance Kepryx.ManagementNetwork
open Kepryx.Redaction Kepryx.Results Kepryx.Runs Kepryx.Tables Kepryx.UnitOfWork

/-- A row of `api_tokens`. -/
structure TokenRow extends APIToken where
  tokenHash : String
  tokenPrefix : String
  createdBy : String
  expiresAt : Option ℤ
  lastUsed : Option ℤ
  revoked : Bool
  usageCount : ℕ
  deriving DecidableEq, Repr

/-- `timedelta(days=1)` -/
def dayLength : ℤ := 86400000000

/-- `ALLOWED_SCOPES` -/
def allowedScopes : List String :=
  ["assets:read", "assets:write", "alerts:read", "alerts:resolve", "scans:trigger", "scans:read",
    "compliance:read", "integrations:read", "self_security:read", "audit:read", "exports:read", "*"]

/-- The order in which a query without `ORDER BY` returns its rows. -/
structure RowOrder where
  arrange : List TokenRow → List TokenRow
  perm : ∀ rows, (arrange rows).Perm rows

/-! ## Creating a token -/

structure TokenCreate where
  name : String
  scopes : List String := []
  expiresInDays : Option ℤ := some 90
  deriving DecidableEq, Repr

/-- The bounds of the fields. -/
def TokenCreate.valid (body : TokenCreate) : Bool :=
  3 ≤ body.name.length && body.name.length ≤ 128 &&
    body.expiresInDays.all fun n => 1 ≤ n && n ≤ 3650

/-- What is drawn for a new token: its identifier, `token_urlsafe(32)` and the salt of its
hash. -/
structure Draw where
  id : String
  secret : String
  salt : String
  deriving DecidableEq, Repr

/-- The answer to the administrator, with the token in plain text. -/
structure Issue where
  id : String
  name : String
  token : String
  tokenPrefix : String
  scopes : List String
  expiresAt : Option ℤ
  deriving DecidableEq, Repr

/-- `token[:12]` -/
def firstTwelve (token : String) : String := String.ofList (token.toList.take 12)

/-- `token.startswith("kpx_")` -/
def hasMark (token : String) : Bool := "kpx_".toList.isPrefixOf token.toList

/-- A request that has loaded a row: it uses the token, or revokes it with an audit row. -/
inductive Pending where
  | use (loaded : TokenRow) (time : ℤ)
  | revoke (loaded : TokenRow) (entry : AuditLog)

def Pending.loaded : Pending → TokenRow
  | .use loaded _ => loaded
  | .revoke loaded _ => loaded

/-- The committed rows, the clock, and the requests between their load and their commit. -/
structure State where
  now : ℤ
  tokens : Table fun t : TokenRow => t.id
  auditLog : List AuditLog
  inflight : List Pending

/-- What the text of a list of strings is, and the settings and services of the application. -/
structure Environment where
  texts : Texts
  boundary : Boundary
  services : Services
  primitives : Primitives
  listText : List String → String

variable (env : Environment)

/-- `require_admin`, on the user that `get_current_user` gives. -/
def requireAdmin (r : Erasure.Request) (user : Except HttpError Person) :
    Except HttpError Person := do
  let user ← user
  let _ ← requireRole env.texts env.boundary ["admin"] true r.origin user.toUser
  return user

/-- `sorted`, for a set of strings. -/
def sorted (texts : List String) : List String := texts.dedup.mergeSort (· ≤ ·)

/-- The row of a new token. -/
def newToken (s : State) (user : Person) (body : TokenCreate) (draw : Draw) : TokenRow where
  id := draw.id
  name := body.name
  scopes := body.scopes
  tokenHash := env.services.hash ("kpx_" ++ draw.secret) draw.salt
  tokenPrefix := firstTwelve ("kpx_" ++ draw.secret)
  createdBy := user.username
  expiresAt := body.expiresInDays.map fun n => s.now + n * dayLength
  lastUsed := none
  revoked := false
  usageCount := 0

/-- `create_token`. The audit row names no identifier: it is drawn by the flush. -/
def createToken (s : State) (r : Erasure.Request) (user : Except HttpError Person)
    (body : TokenCreate) (draw : Draw) : Except HttpError (State × Issue) := do
  let user ← requireAdmin env r user
  let invalid := body.scopes.filter (· ∉ allowedScopes)
  let token := newToken env s user body draw
  let entry := audit env.primitives r "api_token_created" user "api_token" (some "None") "info"
    [("name", .str body.name), ("scopes", .arr (body.scopes.map .str))]
  if body.valid = false then .error ⟨422, "Unprocessable Entity"⟩
  else if invalid ≠ [] then
    .error ⟨400, "Invalid scopes: " ++ env.listText (sorted invalid) ++ ". Allowed: " ++
      env.listText (sorted allowedScopes)⟩
  else match s.tokens.insert? token with
    | none => .error serverError
    | some tokens => .ok ({ s with tokens := tokens, auditLog := s.auditLog ++ [entry] },
      { id := token.id
        name := token.name
        token := "kpx_" ++ draw.secret
        tokenPrefix := token.tokenPrefix
        scopes := body.scopes
        expiresAt := token.expiresAt })

/-! ## Using and revoking a token -/

/-- `verify_api_token`: the first row that the loop accepts. -/
def verifyApiToken (order : RowOrder) (s : State) (token : String) : Option TokenRow :=
  if token = "" ∨ ¬ hasMark token then none
  else (order.arrange (s.tokens.rows.filter fun t =>
      t.tokenPrefix = firstTwelve token ∧ t.revoked = false)).find? fun candidate =>
    candidate.expiresAt.all (s.now ≤ ·) && env.services.verifyHash token candidate.tokenHash

/-- A request to a route that is guarded by `require_scope(scope, *user_roles)`. -/
structure Query where
  scope : String
  userRoles : List String
  origin : Origin
  credentials : Credentials
  jwtUser : String → Except HttpError User
  order : RowOrder

/-- The guard of the route. -/
def authorize (s : State) (q : Query) : Except HttpError Principal :=
  requireScope env.texts env.boundary
    { jwtUser := q.jwtUser
      verifyApiToken := fun key => (verifyApiToken env q.order s key).map TokenRow.toAPIToken }
    q.scope q.userRoles q.origin q.credentials

/-- The row that an admitted service has loaded and changed. -/
def admitted (s : State) (q : Query) : Option TokenRow :=
  match authorize env s q with
  | .ok (.service _ _) => (sent q.credentials.apiKey).bind (verifyApiToken env q.order s)
  | _ => none

/-- The first part of `revoke_token`, up to its commit. -/
def revokeToken (s : State) (r : Erasure.Request) (user : Except HttpError Person) (id : String) :
    Except HttpError Pending := do
  let user ← requireAdmin env r user
  match s.tokens.find id with
  | none => throw ⟨404, "Not Found"⟩
  | some token =>
    return .revoke token
      (audit env.primitives r "api_token_revoked" user "api_token" (some id) "info" [])

/-- What the commit leaves of the stored row: the columns that were changed are written. -/
def Pending.written (p : Pending) (stored : TokenRow) : TokenRow :=
  match p with
  | .use loaded time =>
    { stored with
      lastUsed := writeBack loaded.lastUsed (some time) stored.lastUsed
      usageCount := writeBack loaded.usageCount (loaded.usageCount + 1) stored.usageCount }
  | .revoke loaded _ => { stored with revoked := writeBack loaded.revoked true stored.revoked }

def Pending.entries : Pending → List AuditLog
  | .use _ _ => []
  | .revoke _ entry => [entry]

/-- The row under the identifier that was loaded is written, and no other. -/
def Pending.overwrite (p : Pending) (stored : TokenRow) : TokenRow :=
  if stored.id = p.loaded.id then p.written stored else stored

theorem Pending.overwrite_id (p : Pending) (stored : TokenRow) :
    (p.overwrite stored).id = stored.id := by
  unfold Pending.overwrite
  split
  · cases p <;> rfl
  · rfl

/-- `commit` of a request: without an error it writes its changes. -/
def Pending.commit (p : Pending) (s : State) : State :=
  { s with
    tokens := s.tokens.mapRows p.overwrite p.overwrite_id
    auditLog := s.auditLog ++ p.entries }

/-- Time passes, an administrator creates or begins to revoke a token, a request is made, or the
request at a position ends, with its commit or with an exception. -/
inductive Event where
  | tick (microseconds : ℕ)
  | create (r : Erasure.Request) (user : Except HttpError Person) (body : TokenCreate) (draw : Draw)
  | request (q : Query)
  | revoke (r : Erasure.Request) (user : Except HttpError Person) (id : String)
  | finish (n : ℕ) (committed : Bool)

def step (s : State) : Event → State
  | .tick microseconds => { s with now := s.now + microseconds }
  | .create r user body draw =>
    match createToken env s r user body draw with
    | .ok (s', _) => s'
    | .error _ => s
  | .request q =>
    match admitted env s q with
    | some loaded => { s with inflight := s.inflight ++ [.use loaded s.now] }
    | none => s
  | .revoke r user id =>
    match revokeToken env s r user id with
    | .ok p => { s with inflight := s.inflight ++ [p] }
    | .error _ => s
  | .finish n committed =>
    match s.inflight[n]? with
    | none => s
    | some p =>
      let s := { s with inflight := s.inflight.eraseIdx n }
      if committed then p.commit s else s

/-- No token yet. -/
def start (now : ℤ) : State := ⟨now, .empty, [], []⟩

/-! ## What was created and what was revoked -/

/-- The event creates the token. -/
def Issues (s : State) (e : Event) (a : Issue) : Prop :=
  ∃ r user body draw s', e = .create r user body draw ∧
    createToken env s r user body draw = .ok (s', a)

/-- The event commits a revocation of the token. -/
def Revokes (s : State) (e : Event) (a : Issue) : Prop :=
  ∃ n loaded entry, e = .finish n true ∧ s.inflight[n]? = some (.revoke loaded entry) ∧
    loaded.id = a.id

end Kepryx.ApiTokens
