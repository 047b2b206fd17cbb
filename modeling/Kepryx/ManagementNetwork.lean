import Kepryx.Accounts
import Kepryx.IpNetworks
import Kepryx.Results

/-!
# The management network

Which address a request comes from, whether it is on the management network, and the guards of
the routes. A guard that lets a privileged principal through has checked the network first.
-/
namespace Kepryx.ManagementNetwork
open Kepryx.Accounts Kepryx.IpNetworks Kepryx.Results

/-- The part of a request that tells where it comes from. -/
structure Origin where
  client : Option String
  realIp : Option String := none
  forwardedFor : Option String := none
  deriving DecidableEq, Repr

/-- The settings on networks. -/
structure Boundary where
  trustedProxyCidrs : List String
  managementCidrs : List String

/-- The whitespace that a header can hold. -/
def whitespace : List Char := [' ', '\t', '\n', '\r', '\x0b', '\x0c', '\x1c', '\x1d', '\x1e',
  '\x1f', '\x85', '\xa0']

/-- `forwarded.split(",", 1)[0].strip()` -/
def firstHop (forwarded : String) : String :=
  let hop := (forwarded.toList.takeWhile (· ≠ ',')).dropWhile (· ∈ whitespace)
  String.ofList (hop.reverse.dropWhile (· ∈ whitespace)).reverse

/-- `x-real-ip`, or else `x-forwarded-for`; an empty header counts as none. -/
def Origin.forwarded (o : Origin) : Option String :=
  (o.realIp.filter (· ≠ "")).or (o.forwardedFor.filter (· ≠ ""))

variable (T : Texts) (boundary : Boundary)

/-- `any(… in ip_network(cidr, strict=False) for cidr in cidrs)`, with nothing for the
exception of a text that is no address or no network. -/
def anyNetwork (address : Option Address) : List String → Option Bool
  | [] => some false
  | cidr :: cidrs =>
    match address, T.network false cidr with
    | some a, some n => if n.contains a then some true else anyNetwork address cidrs
    | _, _ => none

/-- `get_request_ip` -/
def getRequestIp (o : Origin) : String :=
  let peer := o.client.getD "unknown"
  match o.forwarded with
  | none => peer
  | some forwarded =>
    if peer = "unknown" then peer
    else match anyNetwork T (T.address peer) boundary.trustedProxyCidrs with
      | some true =>
        match T.address (firstHop forwarded) with
        | some a => T.addressText a
        | none => peer
      | _ => peer

/-- `ensure_management_network` -/
def ensureManagementNetwork (o : Origin) : Except HttpError Unit :=
  match T.address (getRequestIp T boundary o) with
  | none => .error ⟨403, "Management network access required"⟩
  | some a =>
    match anyNetwork T (some a) boundary.managementCidrs with
    | none => .error ⟨503, "Management network policy unavailable"⟩
    | some true => .ok ()
    | some false => .error ⟨403, "Management network access required"⟩

/-- The address of the request is in no management network. -/
def Outside (o : Origin) : Prop :=
  ∀ a, T.address (getRequestIp T boundary o) = some a →
    ∀ cidr ∈ boundary.managementCidrs, ∀ n, T.network false cidr = some n → n.contains a = false

variable {T boundary}

theorem anyNetwork_outside {a : Address} {cidrs : List String}
    (h : ∀ cidr ∈ cidrs, ∀ n, T.network false cidr = some n → n.contains a = false) :
    anyNetwork T (some a) cidrs ≠ some true := by
  induction cidrs with
  | nil => simp [anyNetwork]
  | cons cidr cidrs ih =>
    have hrest := ih fun c hc => h c (List.mem_cons_of_mem _ hc)
    cases hnetwork : T.network false cidr with
    | none => simp [anyNetwork, hnetwork]
    | some n =>
      have hn := h cidr List.mem_cons_self n hnetwork
      simpa [anyNetwork, hnetwork, hn] using hrest

/-- Outside all management networks the check fails. -/
theorem ensureManagementNetwork_outside {o : Origin} (h : Outside T boundary o) :
    ∃ error, ensureManagementNetwork T boundary o = .error error := by
  unfold ensureManagementNetwork
  cases haddress : T.address (getRequestIp T boundary o) with
  | none => exact ⟨_, rfl⟩
  | some a =>
    have hany := anyNetwork_outside (h a haddress)
    dsimp only
    rcases hresult : anyNetwork T (some a) boundary.managementCidrs with _ | _ | _
    · exact ⟨_, rfl⟩
    · exact ⟨_, rfl⟩
    · exact absurd hresult hany

/-! ## Guards -/

/-- `MANAGEMENT_SCOPES` -/
def managementScopes : List String :=
  ["scans:trigger", "alerts:resolve", "audit:read", "integrations:read", "*"]

/-- A row of `api_tokens`, as far as the guards read it. -/
structure APIToken where
  id : String
  name : String
  scopes : List String
  deriving DecidableEq, Repr

/-- Whom a guard lets through. -/
inductive Principal where
  | user (user : User)
  | service (username tokenId : String)

/-- The credentials of a request. -/
structure Credentials where
  bearer : Option String := none
  apiKey : Option String := none

/-- A credential that is sent: an empty one counts as none. -/
def sent (credential : Option String) : Option String := credential.filter (· ≠ "")

/-- What the credentials stand for: `_jwt_user` and `verify_api_token`. -/
structure Authentication where
  jwtUser : String → Except HttpError User
  verifyApiToken : String → Option APIToken

variable (T boundary) (auth : Authentication)

/-- The checker of `require_scope(scope, *user_roles)`. -/
def requireScope (scope : String) (userRoles : List String) (o : Origin) (c : Credentials) :
    Except HttpError Principal :=
  match sent c.bearer, sent c.apiKey with
  | some _, some _ => .error ⟨400, "Use one authentication method"⟩
  | _, some key =>
    match auth.verifyApiToken key with
    | none => .error ⟨401, "Invalid API token"⟩
    | some token =>
      if "*" ∉ token.scopes ∧ scope ∉ token.scopes then .error ⟨403, "Missing scope: " ++ scope⟩
      else do
        if "*" ∈ token.scopes ∨ scope ∈ managementScopes then ensureManagementNetwork T boundary o
        return .service ("api_token:" ++ token.name) token.id
  | none, none => .error ⟨401, "Authentication required"⟩
  | some bearer, none => do
    let user ← auth.jwtUser bearer
    if user.role ∉ userRoles ∧ user.role ≠ "admin" then throw ⟨403, "Insufficient role"⟩
    if user.role = "admin" then ensureManagementNetwork T boundary o
    return .user user

/-- What `str` gives for a tuple of roles. -/
def rolesRepr (roles : List String) : String :=
  "(" ++ ", ".intercalate (roles.map fun role => "'" ++ role ++ "'") ++
    (if roles.length = 1 then ",)" else ")")

/-- The checker of `require_role(*roles, management_only=…)`, for a user that
`get_current_user` has let through. -/
def requireRole (roles : List String) (managementOnly : Bool) (o : Origin) (user : User) :
    Except HttpError User := do
  if user.role ∉ roles ∧ user.role ≠ "admin" then
    throw ⟨403, "Requires role: " ++ rolesRepr roles ++ ", have: " ++ user.role⟩
  if managementOnly ∨ user.role = "admin" then ensureManagementNetwork T boundary o
  return user

/-- A credential of the request is the token of an administrator, or an API token whose scopes
let it pass this guard and are all scopes or one that is kept to the management network. -/
def Privileged (scope : String) (c : Credentials) : Prop :=
  (∃ bearer user, sent c.bearer = some bearer ∧ auth.jwtUser bearer = .ok user ∧
    user.role = "admin") ∨
  (∃ key token, sent c.apiKey = some key ∧ auth.verifyApiToken key = some token ∧
    ("*" ∈ token.scopes ∨ scope ∈ token.scopes ∧ scope ∈ managementScopes))

variable {T boundary auth}

theorem requireScope_outside {scope : String} {userRoles : List String} {o : Origin}
    {c : Credentials} (houtside : Outside T boundary o) (hprivileged : Privileged auth scope c) :
    ∃ error, requireScope T boundary auth scope userRoles o c = .error error := by
  obtain ⟨denied, hdenied⟩ := ensureManagementNetwork_outside houtside
  unfold requireScope
  rcases hprivileged with
    ⟨bearer, user, hbearer, huser, hadmin⟩ | ⟨key, token, hkey, htoken, hscope⟩
  · rw [hbearer]
    cases sent c.apiKey with
    | some key => exact ⟨_, rfl⟩
    | none => exact ⟨denied, by simp [huser, hadmin, hdenied]⟩
  · rw [hkey]
    cases sent c.bearer with
    | some bearer => exact ⟨_, rfl⟩
    | none =>
      have hallowed : ¬ ("*" ∉ token.scopes ∧ scope ∉ token.scopes) := by
        rintro ⟨hall, hnone⟩
        exact hscope.elim hall fun h => hnone h.1
      have hmanaged : "*" ∈ token.scopes ∨ scope ∈ managementScopes := hscope.imp_right And.right
      refine ⟨denied, ?_⟩
      simp only [htoken, if_neg hallowed, if_pos hmanaged, hdenied, error_bind]

theorem requireRole_outside {roles : List String} {managementOnly : Bool} {o : Origin}
    {user : User} (houtside : Outside T boundary o) (hadmin : user.role = "admin") :
    ∃ error, requireRole T boundary roles managementOnly o user = .error error := by
  obtain ⟨denied, hdenied⟩ := ensureManagementNetwork_outside houtside
  exact ⟨denied, by simp [requireRole, hadmin, hdenied]⟩

end Kepryx.ManagementNetwork
