import Kepryx.ApiTokens
import Kepryx.StaleWrites
import Kepryx.WebhookDispatch

/-!
# The secrets of webhooks

An administrator creates a webhook, rotates its secret and deletes it, while deliveries load the
row and write back how they went. The plain secret is shown once and stored encrypted, with a hash
and a prefix. Requests overlap: each loads its rows first and commits later.
-/
namespace Kepryx.WebhookSecrets
open Kepryx.Accounts Kepryx.ApiTokens Kepryx.Erasure Kepryx.Models Kepryx.Redaction Kepryx.Results
open Kepryx.Runs Kepryx.StaleWrites Kepryx.Tables Kepryx.UnitOfWork Kepryx.WebhookDispatch

/-- A row of `webhooks`. -/
structure WebhookRow extends Webhook where
  secretHash : String
  secretPrefix : String
  deriving DecidableEq, Repr

abbrev rowId (w : WebhookRow) : ℕ := w.id

/-- `KNOWN_EVENTS` -/
def knownEvents : List String :=
  ["alert.created", "alert.resolved", "asset.created", "asset.updated", "asset.shadow_detected",
    "scan.completed", "scan.failed", "self_security.cve_found", "self_security.update_proposed",
    "compliance.audit_complete", "integration.failed"]

/-! ## The address of a webhook -/

/-- What reads URLs and addresses: pydantic's `HttpUrl`, `urlparse` and `ipaddress`. -/
structure UrlTexts (Address : Type) where
  httpUrl : String → Option String
  urlparse : String → Except String ParsedUrl
  ipAddress : String → Option Address
  isPublicIp : Address → Bool
  addressText : Address → String

def blockedHosts : List String := ["localhost", "metadata.google.internal", "metadata"]

variable {Address : Type}

/-- `_is_safe_webhook_url`: the reason why it is not. -/
def unsafeWebhookUrl (U : UrlTexts Address) (url : String) : Option String :=
  match U.urlparse url with
  | .error e => some ("Invalid URL: " ++ e)
  | .ok parsed =>
    if parsed.scheme ≠ "http" ∧ parsed.scheme ≠ "https" then
      some ("Only http/https allowed, got " ++ parsed.scheme)
    else match parsed.hostname.filter (· ≠ "") with
    | none => some "Missing hostname"
    | some hostname =>
      if (parsed.username.filter (· ≠ "")).isSome ∨ (parsed.password.filter (· ≠ "")).isSome then
        some "Webhook URLs must not contain username or password credentials"
      else if lower hostname ∈ blockedHosts then some ("Blocked hostname: " ++ hostname)
      else match U.ipAddress hostname with
      | none => none
      | some ip =>
        if U.isPublicIp ip then none
        else some ("Webhook URL resolves to non-routable IP: " ++ U.addressText ip)

/-! ## Creating a webhook -/

structure WebhookCreate where
  name : String
  url : String
  eventTypes : List String := ["alert.created"]
  severityFilter : List String := ["critical", "high"]

/-- The URL of a body whose fields are valid. -/
def WebhookCreate.validUrl (U : UrlTexts Address) (body : WebhookCreate) : Option String :=
  if 3 ≤ body.name.length ∧ body.name.length ≤ 128 then
    (U.httpUrl body.url).filter fun url => (unsafeWebhookUrl U url).isNone
  else none

/-- `token_urlsafe(32)`, `token_urlsafe(24)` and the salt of the hash. -/
structure SecretDraw where
  secret : String
  salt : String
  hashSalt : String
  secret_length : secret.length = 43
  salt_length : salt.length = 32

/-- The four columns of a secret. -/
structure SecretColumns where
  secretHash : String
  secretPrefix : String
  secretEncrypted : String
  secretSalt : String
  deriving DecidableEq, Repr

variable (env : Environment) (U : UrlTexts Address)

def SecretDraw.columns (draw : SecretDraw) : SecretColumns where
  secretHash := env.services.hash draw.secret draw.hashSalt
  secretPrefix := String.ofList (draw.secret.toList.take 8)
  secretEncrypted := env.services.encryptSecret draw.secret draw.salt
  secretSalt := draw.salt

def WebhookRow.columns (w : WebhookRow) : SecretColumns :=
  ⟨w.secretHash, w.secretPrefix, w.secretEncrypted, w.secretSalt⟩

def WebhookRow.withColumns (w : WebhookRow) (c : SecretColumns) : WebhookRow :=
  { w with
    secretHash := c.secretHash
    secretPrefix := c.secretPrefix
    secretEncrypted := c.secretEncrypted
    secretSalt := c.secretSalt }

/-- A request that has loaded rows, and what it does with them. -/
inductive Task (Address : Type) where
  | rotate (id : ℕ) (draw : SecretDraw)
  | testWebhook (id : ℕ) (outside : Surroundings Address) (data : List (String × JsonText.Json))
  | fireEvent (outside : ℕ → Surroundings Address) (eventType severity : String)
      (data : List (String × JsonText.Json))

/-- The row after a delivery, unless it raises. -/
def delivered (outside : Surroundings Address) (eventType : String)
    (data : List (String × JsonText.Json)) (w : WebhookRow) : Option WebhookRow :=
  match dispatchOne outside w.toWebhook eventType data with
  | .ok (w', _) => some { w with toWebhook := w' }
  | .error _ => none

/-- The change of a loaded row. -/
def Task.change : Task Address → WebhookRow → Option WebhookRow
  | .rotate id draw, w => if w.id = id then some (w.withColumns (draw.columns env)) else none
  | .testWebhook id outside data, w =>
    if w.id = id then delivered outside "test.ping" data w else none
  | .fireEvent outside eventType severity data, w =>
    if w.enabled && accepts eventType severity w.toWebhook then
      delivered (outside w.id) eventType data w
    else none

/-- A delivery of a loaded row raises. -/
def Task.raises : Task Address → WebhookRow → Bool
  | .rotate _ _, _ => false
  | .testWebhook id outside data, w =>
    w.id = id && (delivered outside "test.ping" data w).isNone
  | .fireEvent outside eventType severity data, w =>
    w.enabled && accepts eventType severity w.toWebhook &&
      (delivered (outside w.id) eventType data w).isNone

/-- The columns that a task changed are written over the stored row. -/
def mergeWebhook (loaded current stored : WebhookRow) : WebhookRow :=
  { stored with
    secretHash := writeBack loaded.secretHash current.secretHash stored.secretHash
    secretPrefix := writeBack loaded.secretPrefix current.secretPrefix stored.secretPrefix
    secretEncrypted := writeBack loaded.secretEncrypted current.secretEncrypted
      stored.secretEncrypted
    secretSalt := writeBack loaded.secretSalt current.secretSalt stored.secretSalt
    enabled := writeBack loaded.enabled current.enabled stored.enabled
    lastDelivery := writeBack loaded.lastDelivery current.lastDelivery stored.lastDelivery
    deliveryCount := writeBack loaded.deliveryCount current.deliveryCount stored.deliveryCount
    failureCount := writeBack loaded.failureCount current.failureCount stored.failureCount
    lastStatus := writeBack loaded.lastStatus current.lastStatus stored.lastStatus }

variable (Address) in
def protocol : Protocol rowId (Task Address) where
  change := Task.change env
  merge := mergeWebhook
  merge_key _ _ _ := rfl

/-- A request between its load and its commit: the changes that it holds, or the deletion, and
the audit rows that it adds. -/
inductive Pending (Address : Type) where
  | write (task : Task Address) (writes : Writes rowId) (entries : List AuditLog)
  | delete (id : ℕ) (entries : List AuditLog)

structure State (Address : Type) where
  webhooks : Table rowId
  auditLog : List AuditLog
  inflight : List (Pending Address)

/-- The answer to the administrator: the webhook and its secret in plain text. -/
structure Issue where
  id : ℕ
  secret : String
  deriving DecidableEq, Repr

def newWebhook (body : WebhookCreate) (url : String) (id : ℕ) (draw : SecretDraw) : WebhookRow where
  id := id
  name := body.name
  url := url
  secretHash := (draw.columns env).secretHash
  secretPrefix := (draw.columns env).secretPrefix
  secretEncrypted := (draw.columns env).secretEncrypted
  secretSalt := (draw.columns env).secretSalt
  eventTypes := body.eventTypes
  severityFilter := body.severityFilter
  enabled := true
  lastDelivery := none
  deliveryCount := 0
  failureCount := 0
  lastStatus := none

/-- `urlparse(url).hostname` -/
def urlHost (url : String) : Redaction.Json :=
  match U.urlparse url with
  | .ok ⟨_, some hostname, _, _⟩ => .str hostname
  | _ => .null

/-- `create_webhook`. The audit row names no identifier: it is drawn by the flush. -/
def createWebhook (s : State Address) (r : Erasure.Request) (user : Except HttpError Person)
    (body : WebhookCreate) (id : ℕ) (draw : SecretDraw) :
    Except HttpError (State Address × Issue) := do
  let user ← requireAdmin env r user
  match body.validUrl U with
  | none => .error ⟨422, "Unprocessable Entity"⟩
  | some url =>
    let invalid := body.eventTypes.filter (· ∉ knownEvents)
    if invalid ≠ [] then
      .error ⟨400, "Unknown events: " ++ env.listText (sorted invalid) ++ ". Known: " ++
        env.listText (sorted knownEvents)⟩
    else
      let entry := audit env.primitives r "webhook_created" user "webhook" (some "None") "info"
        [("name", .str body.name), ("events", .arr (body.eventTypes.map .str)),
          ("url_host", urlHost U url)]
      match s.webhooks.insert? (newWebhook env body url id draw) with
      | none => .error serverError
      | some webhooks =>
        .ok ({ s with webhooks := webhooks, auditLog := s.auditLog ++ [entry] }, ⟨id, draw.secret⟩)

/-- The first part of `rotate_secret`, up to its commit. -/
def rotateSecret (s : State Address) (r : Erasure.Request) (user : Except HttpError Person)
    (id : ℕ) (draw : SecretDraw) : Except HttpError (Pending Address) := do
  let user ← requireAdmin env r user
  match s.webhooks.find id with
  | none => .error ⟨404, "Not Found"⟩
  | some _ =>
    .ok (.write (.rotate id draw) (readRows (protocol Address env) (.rotate id draw) s.webhooks)
      [audit env.primitives r "webhook_secret_rotated" user "webhook" (some (toString id)) "info"
        []])

/-- The first part of `delete_webhook`, up to its commit. -/
def deleteWebhook (s : State Address) (r : Erasure.Request) (user : Except HttpError Person)
    (id : ℕ) : Except HttpError (Pending Address) := do
  let user ← requireAdmin env r user
  match s.webhooks.find id with
  | none => .error ⟨404, "Not Found"⟩
  | some _ => .ok (.delete id
      [audit env.primitives r "webhook_deleted" user "webhook" (some (toString id)) "info" []])

/-- Every `UPDATE` of the commit finds its row and writes values that fit their columns. -/
def accepted (webhooks : Table rowId) (writes : Writes rowId) : Bool :=
  writes.rows.all fun w => w.1 = w.2 ||
    (webhooks.find (rowId w.1)).isSome && fits w.2.toWebhook

/-- The commit of a request, or nothing if the database does not accept its writes. -/
def Pending.commit (p : Pending Address) (s : State Address) : Option (State Address) :=
  match p with
  | .write _ writes entries =>
    if accepted s.webhooks writes then
      some { s with
        webhooks := s.webhooks.mapRows (commitRow (protocol Address env) writes)
          (commitRow_key (protocol Address env) writes)
        auditLog := s.auditLog ++ entries }
    else none
  | .delete id entries => some { s with
      webhooks := s.webhooks.delete fun w => rowId w = id
      auditLog := s.auditLog ++ entries }

/-- An administrator creates a webhook, or begins to rotate its secret or to delete it, a delivery
loads its rows, or the request at a position ends, with its commit or with an exception. -/
inductive Event (Address : Type) where
  | create (r : Erasure.Request) (user : Except HttpError Person) (body : WebhookCreate) (id : ℕ)
    (draw : SecretDraw)
  | rotate (r : Erasure.Request) (user : Except HttpError Person) (id : ℕ) (draw : SecretDraw)
  | delete (r : Erasure.Request) (user : Except HttpError Person) (id : ℕ)
  | testWebhook (id : ℕ) (outside : Surroundings Address) (data : List (String × JsonText.Json))
  | fireEvent (outside : ℕ → Surroundings Address) (eventType severity : String)
    (data : List (String × JsonText.Json))
  | finish (n : ℕ) (committed : Bool)

/-- A delivery loads its rows and posts to them. An exception ends it without a commit. -/
def State.load (s : State Address) (task : Task Address) : State Address :=
  if s.webhooks.rows.any task.raises then s
  else
    { s with inflight := s.inflight ++
        [.write task (readRows (protocol Address env) task s.webhooks) []] }

/-- What the request at a position leaves of the rows if it commits. -/
def finished (s : State Address) (n : ℕ) : Option (Pending Address × State Address) := do
  let p ← s.inflight[n]?
  let s' ← p.commit env { s with inflight := s.inflight.eraseIdx n }
  return (p, s')

def step (s : State Address) : Event Address → State Address
  | .create r user body id draw =>
    match createWebhook env U s r user body id draw with
    | .ok (s', _) => s'
    | .error _ => s
  | .rotate r user id draw =>
    match rotateSecret env s r user id draw with
    | .ok p => { s with inflight := s.inflight ++ [p] }
    | .error _ => s
  | .delete r user id =>
    match deleteWebhook env s r user id with
    | .ok p => { s with inflight := s.inflight ++ [p] }
    | .error _ => s
  | .testWebhook id outside data => s.load env (.testWebhook id outside data)
  | .fireEvent outside eventType severity data =>
    s.load env (.fireEvent outside eventType severity data)
  | .finish n committed =>
    match committed, finished env s n with
    | true, some (_, s') => s'
    | _, _ => { s with inflight := s.inflight.eraseIdx n }

def start : State Address := ⟨.empty, [], []⟩

end Kepryx.WebhookSecrets
