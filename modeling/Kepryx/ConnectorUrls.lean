import Kepryx.IpLiterals

/-!
# The URLs of connectors

A URL names a scheme and a network location, and the host is a part of the location. The
check of a connector compares the host with the metadata endpoints, and refuses it when it
reads as an address that is neither global nor in an authorised network.
-/
namespace Kepryx.ConnectorUrls
open Kepryx.IpNetworks (Address Network)
open Kepryx.IpLiterals

/-! ## `urllib.parse` -/

/-- The normal form NFKC of a text, which is asked for only when it is not ASCII. -/
structure Unicode where
  nfkc : List Char → List Char

/-- `lower`, as far as a comparison with an ASCII text can tell: of all other letters only the
Kelvin sign has an ASCII letter for its lower case. -/
def lower (text : List Char) : List Char :=
  text.map fun c => if c = '\u212a' then 'k' else c.toLower

def schemeChar (c : Char) : Bool := c.isAlphanum || c = '+' || c = '-' || c = '.'

structure SplitResult where
  scheme : List Char
  netloc : List Char

/-- Leading controls and blanks go, and so does every tab and line break. -/
def cleanUrl (url : List Char) : List Char :=
  (url.dropWhile fun c => c.toNat ≤ 32).filter fun c => c ∉ ['\t', '\r', '\n']

/-- The scheme, and what follows it. -/
def splitScheme (url : List Char) : List Char × List Char :=
  let before := url.takeWhile (· ≠ ':')
  if before.length < url.length ∧ before.head?.any Char.isAlpha ∧ before.all schemeChar then
    (lower before, url.drop (before.length + 1))
  else ([], url)

/-- `_splitnetloc` -/
def splitNetloc (url : List Char) : List Char :=
  if url.take 2 = ['/', '/'] then (url.drop 2).takeWhile (· ∉ ['/', '?', '#']) else []

/-- What stands behind the last `@` of a network location. -/
def hostinfo (netloc : List Char) : List Char := (netloc.splitOn '@').getLast?.getD []

/-- `_check_bracketed_host` -/
def bracketedHostOk (host : List Char) : Bool :=
  if host.head? = some 'v' then
    let digits := host.tail.takeWhile (· ≠ '.')
    let rest := host.tail.drop (digits.length + 1)
    digits ≠ [] && digits.all (fun c => (digitValue c).isSome) && rest ≠ []
  else (ipAddress host).any fun a => a.version = .v6

/-- `_check_bracketed_netloc` -/
def bracketedNetlocOk (netloc : List Char) : Bool :=
  let info := hostinfo netloc
  match info.dropWhile (· ≠ '[') with
  | _ :: bracketed =>
    let host := bracketed.takeWhile (· ≠ ']')
    let port := bracketed.drop (host.length + 1)
    (info.head? = some '[') && (port = [] || port.head? = some ':') && bracketedHostOk host
  | [] => bracketedHostOk (info.takeWhile (· ≠ ':'))

/-- `_checknetloc`: no character may turn into a separator when the location is normalised. -/
def netlocOk (U : Unicode) (netloc : List Char) : Bool :=
  let plain := netloc.filter (· ∉ ['@', ':', '#', '?'])
  netloc.all (·.toNat < 128) || U.nfkc plain = plain ||
    (U.nfkc plain).all (· ∉ ['/', '?', '#', '@', ':'])

/-- `urlparse`, or the `ValueError` it raises. -/
def urlparse (U : Unicode) (value : List Char) : Option SplitResult :=
  let (scheme, rest) := splitScheme (cleanUrl value)
  let netloc := splitNetloc rest
  if decide ('[' ∈ netloc) ≠ decide (']' ∈ netloc) then none
  else if '[' ∈ netloc ∧ ¬ bracketedNetlocOk netloc then none
  else if ¬ netlocOk U netloc then none
  else some ⟨scheme, netloc⟩

/-- The host as the URL writes it. -/
def writtenHost (netloc : List Char) : List Char :=
  let info := hostinfo netloc
  match info.dropWhile (· ≠ '[') with
  | _ :: bracketed => bracketed.takeWhile (· ≠ ']')
  | [] => info.takeWhile (· ≠ ':')

/-- `hostname`: in lower case, but for a scope. -/
def SplitResult.hostname (parsed : SplitResult) : Option (List Char) :=
  match writtenHost parsed.netloc with
  | [] => none
  | host => some (lower (host.takeWhile (· ≠ '%')) ++ host.dropWhile (· ≠ '%'))

/-! ## `_validate_url` -/

/-- The settings that the check reads: each network as `ip_network` reads its text. -/
structure Settings where
  allowInsecureConnectors : Bool
  connectorAllowedCidrs : List (Option Network)

/-- What the functions on configurations raise. -/
inductive ConfigError where
  /-- `urlparse` raised. -/
  | invalidUrl
  /-- `{field} must use one of {allowed} and include a host` -/
  | badUrl (field : String) (allowed : List String)
  /-- `{field} targets a blocked metadata endpoint` -/
  | blockedHost (field : String)
  /-- `CONNECTOR_ALLOWED_CIDRS contains an invalid CIDR` -/
  | invalidCidr
  /-- `{field} cannot target a private, loopback, link-local, reserved, or other non-global
  address unless its CIDR is in CONNECTOR_ALLOWED_CIDRS` -/
  | notGlobal (field : String)
  /-- `Unknown connector type` -/
  | unknownConnectorType
  /-- `Missing connector fields: {fields}` -/
  | missingFields (fields : List String)
  /-- `Unknown connector fields: {fields}` -/
  | unknownFields (fields : List String)
  /-- `AWS regions must be a non-empty list of region names` -/
  | regions
  /-- `AWS access_key_id and secret_access_key must be supplied together` -/
  | staticPair
  /-- `verify_ssl=false requires ALLOW_INSECURE_CONNECTORS=true` -/
  | verifySsl
  /-- `provider must be infoblox or kea` -/
  | provider
  /-- A list or a dictionary is no member of a set: `TypeError`. -/
  | unhashable
  /-- `Infoblox requires username and password` -/
  | infoblox
  /-- `Connector secret {field} is not encrypted; rotate the integration` -/
  | notEncrypted (field : String)
  /-- `Cannot encrypt empty plaintext` -/
  | emptyPlaintext
  /-- `Salt must be at least 16 chars` -/
  | shortSalt
  /-- `Cannot decrypt empty ciphertext` -/
  | emptyCiphertext
  /-- `KeyError` -/
  | key (name : String)
  /-- A value that is no text where a text is needed: `AttributeError`. -/
  | noText
  /-- The cipher raised. -/
  | cipher
  deriving DecidableEq

/-- The schemes a field may use, sorted. -/
def allowedSchemes (settings : Settings) (field : String) : List String :=
  if settings.allowInsecureConnectors then
    if field = "server" then ["http", "ldap", "ldaps"] else ["http", "https", "ldap"]
  else if field = "server" then ["ldaps"] else ["https"]

/-- `_BLOCKED_HOSTS` -/
def blockedHosts : List (List Char) :=
  ["169.254.169.254".toList, "metadata.google.internal".toList, "metadata.azure.internal".toList]

/-- Whether a network lists the address; the networks are read one after another. -/
def explicitlyAllowed (a : Address) : List (Option Network) → Except ConfigError Bool
  | [] => .ok false
  | none :: _ => .error .invalidCidr
  | some n :: cidrs => if n.contains a then .ok true else explicitlyAllowed a cidrs

/-- The check of a host that reads as an address. -/
def validateAddress (settings : Settings) (field : String) (a : Address) :
    Except ConfigError Unit :=
  if isGlobal a then .ok ()
  else do
    if ← explicitlyAllowed a settings.connectorAllowedCidrs then return
    throw (.notGlobal field)

/-- `_validate_url` -/
def validateUrl (U : Unicode) (settings : Settings) (field : String) (value : List Char) :
    Except ConfigError Unit :=
  match urlparse U value with
  | none => .error .invalidUrl
  | some parsed =>
    let allowed := allowedSchemes settings field
    match parsed.hostname with
    | none => .error (.badUrl field allowed)
    | some hostname =>
      if String.ofList parsed.scheme ∉ allowed then .error (.badUrl field allowed)
      else
        let host := lower hostname
        if host ∈ blockedHosts then .error (.blockedHost field)
        else match ipAddress host with
          -- a name: what it resolves to is left to the network policy
          | none => .ok ()
          | some a => validateAddress settings field a

end Kepryx.ConnectorUrls
