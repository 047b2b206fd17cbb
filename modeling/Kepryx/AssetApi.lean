import Kepryx.ConnectorSecrets

/-!
# The connector of asset sources

The connector asks a base URL for a path, with its token in a header, and tries up to three
times. The client joins the two texts: a URL that is absolute takes the place of the base.
-/
namespace Kepryx.AssetApi
open Kepryx.AiValidation (Json undecoding)
open Kepryx.ConnectorUrls Kepryx.ConnectorSecrets

/-! ## The client -/

/-- A URL as the client parses it: the default port of a scheme is no port. -/
structure Url where
  scheme : String
  host : String
  port : Option ℕ
  rawPath : List Char
  deriving DecidableEq

/-- Scheme, host and port. -/
def Url.origin (u : Url) : String × String × Option ℕ := (u.scheme, u.host, u.port)

/-- `is_absolute_url` -/
def Url.isAbsolute (u : Url) : Bool := u.scheme ≠ "" && u.host ≠ ""

/-- `_merge_url`: an absolute URL replaces the base, any other one is appended to it. -/
def mergeUrl (base url : Url) : Url :=
  if url.isAbsolute then url
  else { base with rawPath := base.rawPath ++ url.rawPath.dropWhile (· = '/') }

/-- What the client makes of texts: a URL, unless `InvalidURL` is raised; whether a text can be
sent as a header; and whether it has a transport for a URL. -/
structure Client where
  url : String → Option Url
  isHeader : String → Bool
  supports : Url → Bool

/-- What comes of a request that is sent. The body is decoded where it is JSON. -/
inductive Answer where
  | response (status : ℕ) (body : Option Json)
  /-- `NetworkError` or `TimeoutException` -/
  | networkError
  /-- Another error of the transport. -/
  | transportError

inductive Failure where
  /-- `KeyError` -/
  | key (name : String)
  /-- `float` raised. -/
  | timeout
  | invalidUrl
  /-- A header that cannot be encoded: `ValueError`. -/
  | header
  | unsupported
  | network
  | transport
  /-- `HTTPStatusError` -/
  | status (code : ℕ)
  /-- The body is no JSON: `ValueError`. -/
  | notJson
  /-- `Asset Source API response must contain an assets array` -/
  | noAssets
  deriving DecidableEq

/-- `_is_retryable` -/
def isRetryable : Failure → Bool
  | .network => true
  | .status code => code = 408 || code = 429 || 500 ≤ code
  | _ => false

structure Request where
  url : Url
  apiKey : String

/-- The requests that were sent, and what came of them. -/
structure Outcome (α : Type) where
  sent : List Request
  result : Except Failure α

/-! ## `AssetApiConnector` -/

structure Connector where
  baseUrl : String
  inventoryPath : String
  apiToken : String

variable (R : Runtime) (F : AiValidation.Runtime) (X : Client)

/-- `s.rstrip("/")` -/
def rstripSlash (s : String) : String :=
  String.ofList (s.toList.reverse.dropWhile (· = '/')).reverse

/-- `AssetApiConnector(config)`, with the token that each request reads from the configuration. -/
def newConnector (config : Config) : Except Failure Connector :=
  match config.get "base_url", config.get "api_token" with
  | none, _ => .error (.key "base_url")
  | _, none => .error (.key "api_token")
  | some baseUrl, some apiToken =>
    match F.float ((config.get "timeout_sec").getD (.int 10)) with
    | .error _ => .error .timeout
    | .ok _ => .ok {
        baseUrl := rstripSlash (R.str baseUrl)
        inventoryPath := R.str ((config.get "inventory_path").getD (.str "/v1/assets"))
        apiToken := R.str apiToken }

/-- Where a client that was just opened would send a request. -/
def target (connector : Connector) (path : String) : Except Failure Url :=
  match X.url connector.baseUrl with
  | none => .error .invalidUrl
  | some base =>
    if ¬ X.isHeader connector.apiToken then .error .header
    else match X.url path with
    | none => .error .invalidUrl
    | some url =>
      if X.supports (mergeUrl base url) then .ok (mergeUrl base url) else .error .unsupported

/-- The response of a success, or the exception. -/
def readAnswer : Answer → Except Failure (Option Json)
  | .response code body => if 200 ≤ code ∧ code < 300 then .ok body else .error (.status code)
  | .networkError => .error .network
  | .transportError => .error .transport

/-- One attempt of `_get`. -/
def attempt (connector : Connector) (path : String) (answer : Answer) : Outcome (Option Json) :=
  match target X connector path with
  | .error failure => ⟨[], .error failure⟩
  | .ok url => ⟨[⟨url, connector.apiToken⟩], readAnswer answer⟩

/-- The attempts of `_get` from a turn on, with some more to make if they fail. -/
def attempts (connector : Connector) (path : String) (answers : ℕ → Answer) :
    ℕ → ℕ → Outcome (Option Json)
  | 0, turn => attempt X connector path (answers turn)
  | more + 1, turn =>
    let first := attempt X connector path (answers turn)
    match first.result with
    | .ok _ => first
    | .error failure =>
      if isRetryable failure then
        let rest := attempts connector path answers more (turn + 1)
        ⟨first.sent ++ rest.sent, rest.result⟩
      else first

/-- `_get`: up to three attempts, the last exception is raised. -/
def get (connector : Connector) (path : String) (answers : ℕ → Answer) : Outcome (Option Json) :=
  attempts X connector path answers 2 0

/-- The `assets` of a payload, if they are a list. -/
def assetsOf : Json → Option (List Json)
  | .obj members =>
    match members.lookup "assets" with
    | some (.arr assets) => some assets
    | _ => none
  | _ => none

/-- An `HTTPError` or a `ValueError`. -/
def isHandled : Failure → Bool
  | .invalidUrl | .key _ => false
  | _ => true

def testConnection (connector : Connector) (answers : ℕ → Answer) : Outcome Bool :=
  let response := get X connector connector.inventoryPath answers
  ⟨response.sent,
    match response.result with
    | .ok (some payload) => .ok (assetsOf payload).isSome
    | .ok none => .ok false
    | .error failure => if isHandled failure then .ok false else .error failure⟩

def isDict : Json → Bool
  | .obj _ => true
  | _ => false

def fetchInventory (connector : Connector) (answers : ℕ → Answer) : Outcome (List Json) :=
  let response := get X connector connector.inventoryPath answers
  ⟨response.sent,
    match response.result with
    | .ok (some payload) =>
      match assetsOf payload with
      | some assets => .ok (assets.filter isDict)
      | none => .error .noAssets
    | .ok none => .error .notJson
    | .error failure => .error failure⟩

/-! ## Where requests go -/

/-- The requests of the two operations on a configuration. -/
def requests (config : Config) (answers : ℕ → Answer) : List Request :=
  match newConnector R F config with
  | .error _ => []
  | .ok connector =>
    (testConnection X connector answers).sent ++ (fetchInventory X connector answers).sent

/-- The scheme, host and port of the base URL. -/
def baseOrigin (config : Config) : Option (String × String × Option ℕ) :=
  match newConnector R F config with
  | .error _ => none
  | .ok connector => (X.url connector.baseUrl).map Url.origin

/-- The path of the inventory is no absolute URL, or it is one with the scheme, host and port of
the base URL, or no request can be sent: the texts are no URLs, the token is no header, or
there is no transport. -/
def PathStays (config : Config) : Prop :=
  ∀ connector base path, newConnector R F config = .ok connector →
    X.url connector.baseUrl = some base → X.isHeader connector.apiToken = true →
    X.url connector.inventoryPath = some path → path.isAbsolute = true →
    X.supports path = true → path.origin = base.origin

variable {R F X}

theorem origin_mergeUrl_of_relative {base url : Url} (h : url.isAbsolute = false) :
    (mergeUrl base url).origin = base.origin := by
  rw [mergeUrl, h]
  rfl

theorem mergeUrl_of_absolute {base url : Url} (h : url.isAbsolute = true) :
    mergeUrl base url = url := by
  rw [mergeUrl, if_pos h]

theorem target_eq_ok {connector : Connector} {path : String} {u : Url} :
    target X connector path = .ok u ↔ ∃ base url, X.url connector.baseUrl = some base ∧
      X.isHeader connector.apiToken = true ∧ X.url path = some url ∧
      X.supports (mergeUrl base url) = true ∧ mergeUrl base url = u := by
  unfold target
  cases hbase : X.url connector.baseUrl with
  | none => simp
  | some base =>
    cases hurl : X.url path with
    | none =>
      cases hheader : X.isHeader connector.apiToken <;> simp
    | some url =>
      simp only [Option.some.injEq, exists_and_left, exists_eq_left']
      split_ifs <;> simp_all

/-- Every attempt goes to the same place. -/
theorem target_of_mem_attempts {connector : Connector} {path : String} {answers : ℕ → Answer}
    {more turn : ℕ} {r : Request} (h : r ∈ (attempts X connector path answers more turn).sent) :
    target X connector path = .ok r.url := by
  have hone {answer : Answer} (h : r ∈ (attempt X connector path answer).sent) :
      target X connector path = .ok r.url := by
    unfold attempt at h
    split at h
    · cases h
    next url hurl =>
      rw [List.mem_singleton.mp h]
      exact hurl
  induction more generalizing turn with
  | zero => exact hone h
  | succ more ih =>
    unfold attempts at h
    dsimp only at h
    split at h
    · exact hone h
    · split_ifs at h
      · exact (List.mem_append.mp h).elim hone ih
      · exact hone h

/-- Both operations ask for the path of the inventory. -/
theorem target_of_mem_requests {config : Config} {answers : ℕ → Answer} {r : Request}
    (h : r ∈ requests R F X config answers) : ∃ connector,
      newConnector R F config = .ok connector ∧
        target X connector connector.inventoryPath = .ok r.url := by
  unfold requests at h
  split at h
  · cases h
  next connector hconnector =>
    exact ⟨connector, hconnector, (List.mem_append.mp h).elim target_of_mem_attempts
      target_of_mem_attempts⟩

/-- A client that can be opened sends a request at the first attempt. -/
theorem exists_request {config : Config} {connector : Connector} {u : Url}
    (hconnector : newConnector R F config = .ok connector)
    (htarget : target X connector connector.inventoryPath = .ok u) (answers : ℕ → Answer) :
    ∃ r ∈ requests R F X config answers, r.url = u := by
  refine ⟨⟨u, connector.apiToken⟩, ?_, rfl⟩
  have hfirst : (attempt X connector connector.inventoryPath (answers 0)).sent =
      [⟨u, connector.apiToken⟩] := by
    rw [attempt, htarget]
  have hget : (⟨u, connector.apiToken⟩ : Request) ∈
      (get X connector connector.inventoryPath answers).sent := by
    unfold get attempts
    dsimp only
    split
    · rw [hfirst]
      exact List.mem_singleton_self _
    · split_ifs
      · rw [hfirst]
        exact List.mem_append_left _ (List.mem_singleton_self _)
      · rw [hfirst]
        exact List.mem_singleton_self _
  rw [requests, hconnector]
  exact List.mem_append_left _ hget

/-- A configuration of this type is accepted as it is. -/
theorem validated_eq {settings : Settings} {config validated : Config}
    (h : validateConnectorConfig R settings "asset_api" config = .ok validated) :
    validated = config := by
  obtain ⟨_, -, -, -, haws⟩ := validate_spec h
  refine (validateAws_cases haws).resolve_right ?_
  rintro ⟨htype, -⟩
  revert htype
  decide

/-- All requests on an accepted configuration go to the scheme, host and port of its base URL,
if and only if the path of the inventory stays there. -/
theorem requests_toBase_iff {settings : Settings} {config validated : Config}
    (h : validateConnectorConfig R settings "asset_api" config = .ok validated) :
    (∀ answers, ∀ r ∈ requests R F X validated answers,
      baseOrigin R F X config = some r.url.origin) ↔ PathStays R F X config := by
  rw [validated_eq h]
  constructor
  · intro hall connector base path hconnector hbase hheader hpath habsolute hsupports
    have hmerge : mergeUrl base path = path := mergeUrl_of_absolute habsolute
    have htarget : target X connector connector.inventoryPath = .ok path :=
      target_eq_ok.mpr ⟨base, path, hbase, hheader, hpath, hmerge.symm ▸ hsupports, hmerge⟩
    obtain ⟨r, hr, hurl⟩ := exists_request hconnector htarget fun _ => .networkError
    have horigin := hall _ r hr
    rw [baseOrigin, hconnector] at horigin
    simp only [hbase, Option.map_some, Option.some.injEq, hurl] at horigin
    exact horigin.symm
  · intro hstays answers r hr
    obtain ⟨connector, hconnector, htarget⟩ := target_of_mem_requests hr
    obtain ⟨base, path, hbase, hheader, hpath, hsupports, hmerge⟩ := target_eq_ok.mp htarget
    have horigin : (mergeUrl base path).origin = base.origin := by
      cases habsolute : path.isAbsolute with
      | false => exact origin_mergeUrl_of_relative habsolute
      | true =>
        rw [mergeUrl_of_absolute habsolute] at hsupports ⊢
        exact hstays connector base path hconnector hbase hheader hpath habsolute hsupports
    rw [baseOrigin, hconnector, ← hmerge, horigin]
    simp only [hbase, Option.map_some]

/-! ## A path that leaves the base -/

/-- What the client does with texts that are ASCII and name no port. -/
def webClient : Client where
  url text :=
    let (scheme, rest) := splitScheme text.toList
    let netloc := splitNetloc rest
    some {
      scheme := String.ofList scheme
      host := String.ofList (lower (writtenHost netloc))
      port := none
      rawPath := if netloc = [] then rest else rest.drop (netloc.length + 2) }
  isHeader text := text.toList.all fun c => 32 ≤ c.toNat && c.toNat < 127
  supports u := u.scheme = "http" || u.scheme = "https"

theorem inventory_keys : ["base_url", "api_token", "inventory_path"].Nodup := by decide

def inventory (path : String) : Config where
  rows := [("base_url", .str "https://inventory.example"), ("api_token", .str "token"),
    ("inventory_path", .str path)]
  nodup := inventory_keys

theorem assets_validated :
    validateConnectorConfig plain strict "asset_api" (inventory "/v1/assets") =
      .ok (inventory "/v1/assets") := rfl

theorem evil_validated :
    validateConnectorConfig plain strict "asset_api" (inventory "https://evil.example/x") =
      .ok (inventory "https://evil.example/x") := rfl

theorem requests_toBase_assets :
    ∃ r ∈ requests plain undecoding webClient (inventory "/v1/assets") fun _ => .networkError,
      baseOrigin plain undecoding webClient (inventory "/v1/assets") = some r.url.origin := by
  refine ⟨_, List.mem_cons_self, (requests_toBase_iff assets_validated).mpr ?_
    (fun _ => .networkError) _ List.mem_cons_self⟩
  intro connector base path hconnector hbase hheader hpath habsolute
  obtain rfl := Except.ok.inj hconnector
  have hrelative : (webClient.url "/v1/assets").any Url.isAbsolute = false := by decide
  have hurl : webClient.url "/v1/assets" = some path := hpath
  rw [hurl, Option.any_some, habsolute] at hrelative
  cases hrelative

theorem requests_leave_base :
    validateConnectorConfig plain strict "asset_api" (inventory "https://evil.example/x") =
      .ok (inventory "https://evil.example/x") ∧
    ∃ answers,
    ∃ r ∈ requests plain undecoding webClient (inventory "https://evil.example/x") answers,
      r.apiKey = "token" ∧ r.url.origin = ("https", "evil.example", none) ∧
      baseOrigin plain undecoding webClient (inventory "https://evil.example/x") =
        some ("https", "inventory.example", none) := by
  refine ⟨evil_validated, fun _ => .networkError, _, List.mem_cons_self, rfl, ?_, ?_⟩
  · decide
  · decide

end Kepryx.AssetApi
