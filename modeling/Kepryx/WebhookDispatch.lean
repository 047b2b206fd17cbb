import Kepryx.JsonText
import Kepryx.Models
import Kepryx.Tables

/-!
# Webhook dispatch

`dispatch_one` checks the address of a webhook, signs the payload and posts it with up to
three attempts; `fire_event` does so for every enabled webhook whose filters match, in one
session with one commit at the end. Everything the outside world answers during one delivery
is a parameter, and so are the parsers of URLs and addresses and the cryptography.
-/
namespace Kepryx.WebhookDispatch
open Kepryx.Models Kepryx.Tables Kepryx.JsonText

/-- A row of `webhooks`. -/
structure Webhook where
  id : ℕ
  name : String
  url : String
  secretEncrypted : String
  secretSalt : String
  eventTypes : List String
  severityFilter : List String
  enabled : Bool
  lastDelivery : Option Time
  deliveryCount : ℕ
  failureCount : ℕ
  lastStatus : Option String
  deriving DecidableEq, Repr

/-- What `urlparse` reads from a URL. -/
structure ParsedUrl where
  scheme : String
  hostname : Option String
  username : Option String
  password : Option String
  deriving DecidableEq, Repr

/-- A URL of httpx. -/
structure Url where
  scheme : String
  host : String
  port : Option ℕ
  target : String
  deriving DecidableEq, Repr

structure Request where
  url : Url
  headers : List (String × String)
  body : List Char
  sniHostname : Option String
  deriving DecidableEq, Repr

/-- How one attempt to send a request ends: with an answer, with an error of httpx, or with
another exception. -/
inductive Attempt where
  | answer (statusCode : ℕ)
  | httpError (className : String)
  | exception (text : String)
  deriving DecidableEq, Repr

/-- Why `getaddrinfo` fails. -/
inductive LookupError where
  | gaierror (text : String)
  | unicodeError (text : String)
  deriving DecidableEq, Repr

/-- How httpx calls `json.dumps` for a `json=` body; it never sorts keys. -/
structure HttpxJson where
  itemSeparator : String
  keySeparator : String
  ensureAscii : Bool

def HttpxJson.options (h : HttpxJson) : DumpOptions where
  itemSeparator := h.itemSeparator
  keySeparator := h.keySeparator
  sortKeys := false
  ensureAscii := h.ensureAscii

/-- What surrounds one delivery. -/
structure Surroundings (Address : Type) where
  now : Time
  isoTime : String
  unixTime : ℤ
  urlparse : String → Except String ParsedUrl
  ipAddress : String → Option Address
  isPublicIp : Address → Bool
  addressText : Address → String
  getaddrinfo : String → Except LookupError (List String)
  decryptSecret : String → String → Option String
  hmacSha256 : String → List Char → String
  httpxJson : HttpxJson
  httpxUrl : String → Except String Url
  futureAddress : String
  attempt : ℕ → Request → Attempt

variable {Address : Type}

/-! ## Addresses -/

def nonRoutable (ip : String) : String := "Hostname resolves to non-routable IP: " ++ ip

/-- The loop of `_resolve_public_ip`: the first address, if no address is non-routable. -/
def firstPublicIp (env : Surroundings Address) :
    Option String → List String → Except String (Option String)
  | resolved, [] => .ok resolved
  | resolved, ip :: ips =>
    match env.ipAddress ip with
    | none => firstPublicIp env resolved ips
    | some address =>
      if env.isPublicIp address then firstPublicIp env (resolved.or (some ip)) ips
      else .error (nonRoutable ip)

/-- `_resolve_public_ip`: an address, or the reason why there is none. The outer error is an
exception that it does not catch. -/
def resolvePublicIp (env : Surroundings Address) (hostname : String) :
    Except String (Except String String) :=
  match env.getaddrinfo hostname with
  | .error (.unicodeError text) => .error text
  | .error (.gaierror text) => .ok (.error ("DNS resolution failed: " ++ text))
  | .ok results =>
    match firstPublicIp env none results with
    | .error reason => .ok (.error reason)
    | .ok none => .ok (.error "Hostname did not resolve to a usable IP address")
    | .ok (some ip) => .ok (.ok ip)

/-- The address that `dispatch_one` pins: an IP literal is checked again, a host name is
resolved. -/
def pinnedIp (env : Surroundings Address) (hostname : String) :
    Except String (Except String String) :=
  match env.ipAddress hostname with
  | some address =>
    if env.isPublicIp address then .ok (.ok (env.addressText address))
    else .ok (.error ("Webhook URL resolves to non-routable IP: " ++ env.addressText address))
  | none => resolvePublicIp env hostname

/-! ## Requests -/

/-- `_host_header` -/
def hostHeader (hostname scheme : String) (port : Option ℕ) : String :=
  let host := if hostname.contains ':' && !hostname.startsWith "[" then "[" ++ hostname ++ "]"
    else hostname
  let defaultPort := if scheme = "https" then 443 else 80
  match port with
  | none => host
  | some p => if p ≠ 0 ∧ p ≠ defaultPort then host ++ ":" ++ toString p else host

/-- `headers[name] = value` -/
def setHeader (headers : List (String × String)) (name value : String) :
    List (String × String) :=
  headers.filter (·.1 ≠ name) ++ [(name, value)]

/-- `_PinnedIPTransport.handle_async_request`: the request that goes out. -/
def handleAsyncRequest (hostname resolvedIp : String) (request : Request) : Request where
  url := { request.url with host := resolvedIp }
  headers := setHeader request.headers "Host"
    (hostHeader request.url.host request.url.scheme request.url.port)
  body := request.body
  sniHostname := if request.url.scheme = "https" then some hostname else request.sniHostname

def payload (env : Surroundings Address) (eventType : String) (data : List (String × Json)) :
    Json :=
  .obj [("event", .str eventType), ("timestamp", .str env.isoTime), ("data", .obj data)]

def signingOptions : DumpOptions where
  itemSeparator := ","
  keySeparator := ":"
  sortKeys := true
  ensureAscii := true

/-- The text that `_sign_payload` signs. -/
def signedString (timestamp : String) (payload : Json) : List Char :=
  timestamp.toList ++ '.' :: payload.dumps signingOptions

/-- `_sign_payload` -/
def signPayload (env : Surroundings Address) (secret : String) (payload : Json) :
    String × String :=
  let timestamp := toString env.unixTime
  (timestamp, env.hmacSha256 secret (signedString timestamp payload))

def headers (eventType timestamp signature : String) : List (String × String) := [
  ("Content-Type", "application/json"),
  ("X-Kepryx-Event", eventType),
  ("X-Kepryx-Timestamp", timestamp),
  ("X-Kepryx-Signature", "sha256=" ++ signature),
  ("User-Agent", "Kepryx-Webhook/1.0")]

/-- The request that `client.post(url, json=payload, headers=headers)` builds. -/
def buildRequest (env : Surroundings Address) (url : Url) (payload : Json)
    (headers : List (String × String)) : Request where
  url := url
  headers := headers
  body := payload.dumps env.httpxJson.options
  sniHostname := none

/-- The request that the receiver gets for an event. -/
def sentRequest (env : Surroundings Address) (url : Url) (hostname resolvedIp secret : String)
    (eventType : String) (data : List (String × Json)) : Request :=
  let body := payload env eventType data
  let (timestamp, signature) := signPayload env secret body
  handleAsyncRequest hostname resolvedIp
    (buildRequest env url body (headers eventType timestamp signature))

/-! ## Posting -/

/-- How an attempt fails: with an error that is retried, or with another exception. -/
inductive PostError where
  | retried (className : String)
  | other (text : String)
  deriving DecidableEq, Repr

/-- The body of `_post_with_retry`: a redirect is an error, and so is every answer that
`raise_for_status` rejects. -/
def answerOf : Attempt → Except PostError ℕ
  | .answer code =>
    if 300 ≤ code ∧ code < 400 then .error (.retried "HTTPError")
    else if 200 ≤ code ∧ code < 300 then .ok code
    else .error (.retried "HTTPStatusError")
  | .httpError className => .error (.retried className)
  | .exception text => .error (.other text)

/-- The text of the error that tenacity raises when the attempts are used up. -/
def retryErrorText (futureAddress className : String) : String :=
  "RetryError[<Future at 0x" ++ futureAddress ++ " state=finished raised " ++ className ++ ">]"

/-- The attempts from number `n` on, with `left` more after it. -/
def retrying (futureAddress : String) (attempt : ℕ → Attempt) :
    ℕ → ℕ → Except String ℕ
  | left, n =>
    match answerOf (attempt n) with
    | .ok code => .ok code
    | .error (.other text) => .error text
    | .error (.retried className) =>
      match left with
      | 0 => .error (retryErrorText futureAddress className)
      | left + 1 => retrying futureAddress attempt left (n + 1)

/-- `_post_with_retry`, with the text of the exception it raises. -/
def postWithRetry (env : Surroundings Address) (url hostname resolvedIp secret : String)
    (eventType : String) (data : List (String × Json)) : Except String ℕ :=
  match env.httpxUrl url with
  | .error text => .error text
  | .ok u =>
    let request := sentRequest env u hostname resolvedIp secret eventType data
    retrying env.futureAddress (fun n => env.attempt n request) 2 0

/-! ## Deliveries -/

/-- What `dispatch_one` returns. -/
inductive DeliveryResult where
  | delivered (statusCode : ℕ)
  | notDelivered (error : String)
  deriving DecidableEq, Repr

/-- `str(e)[:n]` -/
def cut (n : ℕ) (text : String) : String := String.ofList (text.toList.take n)

/-- What a successful post changes. -/
def recordSuccess (now : Time) (code : ℕ) (w : Webhook) : Webhook :=
  { w with
    lastDelivery := some now
    deliveryCount := w.deliveryCount + 1
    lastStatus := some ("success_" ++ toString code)
    failureCount := 0 }

/-- What a failed post changes. -/
def recordFailure (text : String) (w : Webhook) : Webhook :=
  { w with
    failureCount := w.failureCount + 1
    lastStatus := some ("failed: " ++ cut 60 text)
    enabled := w.enabled && !decide (10 ≤ w.failureCount + 1) }

/-- Where a delivery goes: the host name, the pinned address and the signing secret. -/
structure Destination where
  hostname : String
  resolvedIp : String
  secret : String
  deriving DecidableEq, Repr

/-- The checks of `dispatch_one` before it posts: a destination, or a `last_status` with the
error it returns. The outer error is an exception that it does not catch. -/
def checks (env : Surroundings Address) (w : Webhook) :
    Except String (Except (String × String) Destination) :=
  match env.urlparse w.url with
  | .error text => .error text
  | .ok parsed =>
    match parsed.hostname.filter (· ≠ "") with
    | none => .ok (.error ("invalid_url", "missing hostname"))
    | some hostname =>
      if ¬ (parsed.scheme = "http" ∨ parsed.scheme = "https") ∨
          (parsed.username.filter (· ≠ "")).isSome ∨ (parsed.password.filter (· ≠ "")).isSome then
        .ok (.error ("invalid_url", "invalid webhook URL"))
      else
        match pinnedIp env hostname with
        | .error text => .error text
        | .ok (.error reason) => .ok (.error ("ssrf_blocked", reason))
        | .ok (.ok resolvedIp) =>
          match env.decryptSecret w.secretEncrypted w.secretSalt with
          | none => .ok (.error ("decrypt_error", "secret decryption failed"))
          | some secret => .ok (.ok ⟨hostname, resolvedIp, secret⟩)

/-- `dispatch_one`: the changed row and the result. -/
def dispatchOne (env : Surroundings Address) (w : Webhook) (eventType : String)
    (data : List (String × Json)) : Except String (Webhook × DeliveryResult) :=
  match checks env w with
  | .error text => .error text
  | .ok (.error (status, error)) =>
    .ok ({ w with lastStatus := some status }, .notDelivered error)
  | .ok (.ok d) =>
    match postWithRetry env w.url d.hostname d.resolvedIp d.secret eventType data with
    | .ok code => .ok (recordSuccess env.now code w, .delivered code)
    | .error text => .ok (recordFailure text w, .notDelivered (cut 200 text))

/-! ## Events -/

/-- The filters of `fire_event`. -/
def accepts (eventType severity : String) (w : Webhook) : Bool :=
  (w.eventTypes.isEmpty || w.eventTypes.contains eventType) &&
    (w.severityFilter.isEmpty || w.severityFilter.contains severity)

/-- What the loop of `fire_event` leaves: the webhooks it attempted, the changed rows and the
exception that ended it. -/
structure Sweep where
  attempted : List ℕ
  changed : List Webhook
  raised : Option String
  deriving DecidableEq, Repr

/-- The loop of `fire_event` over the selected webhooks. -/
def sweep (env : ℕ → Surroundings Address) (eventType severity : String)
    (data : List (String × Json)) : List Webhook → Sweep
  | [] => ⟨[], [], none⟩
  | w :: ws =>
    if accepts eventType severity w then
      match dispatchOne (env w.id) w eventType data with
      | .error text => ⟨[w.id], [], some text⟩
      | .ok (w', _) =>
        let rest := sweep env eventType severity data ws
        ⟨w.id :: rest.attempted, w' :: rest.changed, rest.raised⟩
    else sweep env eventType severity data ws

/-- The greatest value of an `Integer` column. -/
def maxInteger : ℕ := 2147483647

/-- Every changed value fits its column. -/
def fits (w : Webhook) : Bool :=
  (w.lastStatus.all fun s => s.length ≤ 32) && w.deliveryCount ≤ maxInteger &&
    w.failureCount ≤ maxInteger

/-- The stored webhooks. -/
structure Webhooks where
  table : Table Webhook.id
  fit : ∀ w ∈ table.rows, fits w

/-- A commit writes every changed row. -/
def Webhooks.write (d : Webhooks) (changed : List Webhook) (hfits : changed.all fits) :
    Webhooks where
  table := changed.foldl Table.put d.table
  fit w hw := by
    rcases Table.mem_foldl_put hw with hchanged | hstored
    · exact List.all_eq_true.mp hfits w hchanged
    · exact d.fit w hstored

/-- What `fire_event` leaves: the webhooks it attempted, whether its commit went through, and
the stored rows. -/
structure Fired where
  attempted : List ℕ
  committed : Bool
  stored : Webhooks

/-- `fire_event` -/
def fireEvent (env : ℕ → Surroundings Address) (eventType severity : String)
    (data : List (String × Json)) (d : Webhooks) : Fired :=
  let s := sweep env eventType severity data (d.table.rows.filter (·.enabled))
  if hfits : s.changed.all fits then
    if s.raised.isNone then ⟨s.attempted, true, d.write s.changed hfits⟩
    else ⟨s.attempted, false, d⟩
  else ⟨s.attempted, false, d⟩

/-- Surroundings in which every host has one address and answers with one status code, and an
HMAC shows its key and its text. -/
def answering (code : ℕ) : Surroundings String where
  now := 0
  isoTime := "2026-09-01T00:00:00+00:00"
  unixTime := 1788220800
  urlparse := fun _ => .ok ⟨"https", some "hooks.example.test", none, none⟩
  ipAddress := fun text => if text = "hooks.example.test" then none else some text
  isPublicIp := fun _ => true
  addressText := id
  getaddrinfo := fun _ => .ok ["93.184.216.34"]
  decryptSecret := fun secret _ => some secret
  hmacSha256 := fun secret text => secret ++ ":" ++ String.ofList text
  httpxJson := ⟨",", ":", false⟩
  httpxUrl := fun _ => .ok ⟨"https", "hooks.example.test", none, "/events"⟩
  futureAddress := "7f3a1c2b4d50"
  attempt := fun _ _ => .answer code

end Kepryx.WebhookDispatch
