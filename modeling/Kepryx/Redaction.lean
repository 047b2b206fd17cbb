import Mathlib.Data.List.Infix

/-!
# Redaction of personal data

What the audit log keeps of a document: texts under the names of personal fields are masked or
replaced, and secrets are cut out of all other texts. The digest and the substitution of the
secret patterns are parameters.
-/
namespace Kepryx.Redaction

/-- A text occurs in another. -/
def occursIn (part text : String) : Bool := part.toList <:+: text.toList

/-- A JSON document. -/
inductive Json where
  | null
  | bool (b : Bool)
  | num (n : ℤ)
  | str (s : String)
  | arr (items : List Json)
  | obj (fields : List (String × Json))

mutual
/-- Every text in a document, keys included. -/
def Json.texts : Json → List String
  | .null | .bool _ | .num _ => []
  | .str s => [s]
  | .arr items => itemTexts items
  | .obj fields => fieldTexts fields

def itemTexts : List Json → List String
  | [] => []
  | item :: items => item.texts ++ itemTexts items

def fieldTexts : List (String × Json) → List String
  | [] => []
  | (key, value) :: fields => key :: (value.texts ++ fieldTexts fields)
end

/-- The hexadecimal SHA-256 digest, and the substitution of all `SECRET_PATTERNS`. -/
structure Primitives where
  sha256 : String → String
  replaceSecrets : String → String

variable (P : Primitives)

/-- `_hash_value` -/
def hashValue (value saltSuffix : String) : String :=
  "h_" ++ String.ofList ((P.sha256 (value ++ ":" ++ saltSuffix)).toList.take 16)

def splitAt (c : Char) (text : String) : List String :=
  (text.toList.splitOn c).map String.ofList

/-- `_mask_email` -/
def maskEmail (email : String) : String :=
  match (splitAt '@' email).reverse with
  | domain :: before :: rest =>
    String.ofList (("@".intercalate (before :: rest).reverse).toList.take 1) ++ "***@" ++ domain
  | _ => hashValue P email "kepryx"

/-- `_mask_ip` -/
def maskIp (ip : String) : String :=
  if occursIn "." ip && (splitAt '.' ip).length = 4 then
    ".".intercalate ((splitAt '.' ip).take 3) ++ ".x"
  else if occursIn ":" ip && 3 < (splitAt ':' ip).length then
    ":".intercalate ((splitAt ':' ip).take 3) ++ "::x"
  else hashValue P ip "kepryx"

/-- `lower`, as far as a comparison with an ASCII text can tell: of all other letters only the
Kelvin sign has an ASCII letter for its lower case. -/
def lower (text : String) : String :=
  String.ofList (text.toList.map fun c => if c = '\u212a' then 'k' else c.toLower)

/-- `_mask_user_agent` -/
def maskUserAgent (ua : String) : String :=
  let family :=
    if occursIn "Firefox" ua then "Firefox"
    else if occursIn "Edg/" ua || occursIn "Edge" ua then "Edge"
    else if occursIn "Chrome" ua then "Chrome"
    else if occursIn "Safari" ua then "Safari"
    else if occursIn "curl" (lower ua) then "curl"
    else if occursIn "python" (lower ua) then "python"
    else "Unknown"
  let osFamily :=
    if occursIn "Windows" ua then "Windows"
    else if occursIn "Mac OS" ua || occursIn "Macintosh" ua then "macOS"
    else if occursIn "Linux" ua then "Linux"
    else if occursIn "Android" ua then "Android"
    else if occursIn "iPhone" ua || occursIn "iPad" ua then "iOS"
    else "Unknown"
  if ua = "" then "" else family ++ "/" ++ osFamily

/-- `_redact_string` -/
def redactString (text : String) : String :=
  if text.length < 8 then text else P.replaceSecrets text

/-- The names whose value is masked when it is a text, with the mask. -/
def maskOf (name : String) : Option (String → String) :=
  if name ∈ ["email"] then some (maskEmail P)
  else if name ∈ ["ip", "ip_address", "remote_addr", "x-forwarded-for"] then some (maskIp P)
  else if name ∈ ["user_agent", "user-agent", "useragent"] then some maskUserAgent
  else if name ∈ ["mac", "mac_address"] then some (hashValue P · "mac")
  else none

/-- The names whose value is replaced, whatever it is. -/
def replacedNames : List String :=
  ["password", "passwd", "secret", "token", "api_key", "private_key", "ssn",
    "social_security_number", "credit_card", "card_number", "cvv"]

/-- What `_redact_field` does because of the name. -/
def namedField (name : String) (value : Json) : Option Json :=
  if lower name ∈ replacedNames then some (.str "***REDACTED***")
  else match maskOf P (lower name), value with
    | some mask, .str s => some (.str (mask s))
    | _, _ => none

mutual
/-- `redact_pii` -/
def redactPii : Json → Json
  | .obj fields => .obj (redactFields fields)
  | .arr items => .arr (redactItems items)
  | .str s => .str (redactString P s)
  | .null => .null
  | .bool b => .bool b
  | .num n => .num n

def redactItems : List Json → List Json
  | [] => []
  | item :: items => redactPii item :: redactItems items

/-- The fields of a dictionary, each by `_redact_field`. -/
def redactFields : List (String × Json) → List (String × Json)
  | [] => []
  | (name, value) :: fields =>
    (name, (namedField P name value).getD (redactPii value)) :: redactFields fields
end

variable {P}

theorem maskOf_eq_none {name : String} (h : name ∉ ["email", "ip", "ip_address", "remote_addr",
    "x-forwarded-for", "user_agent", "user-agent", "useragent", "mac", "mac_address"]) :
    maskOf P name = none := by
  simp only [List.mem_cons, List.not_mem_nil, or_false, not_or] at h
  simp [maskOf, h]

/-- A name that is neither masked nor replaced leaves the value to `redact_pii`. -/
theorem namedField_plain {name : String} (hmask : maskOf P (lower name) = none)
    (hreplaced : lower name ∉ replacedNames) (value : Json) :
    namedField P name value = none := by
  unfold namedField
  rw [if_neg hreplaced, hmask]

end Kepryx.Redaction
