import Kepryx.AiValidation
import Kepryx.ConnectorUrls

/-!
# The secrets of connectors

A configuration is checked against the schema of its connector. What is stored holds an
envelope in the place of each secret, and what a connector gets has the secrets back.
-/
namespace Kepryx.ConnectorSecrets
open Kepryx.Tables Kepryx.Results
open Kepryx.AiValidation (Json)
open Kepryx.ConnectorUrls

/-! ## Configurations -/

/-- A dictionary, in the order of its keys. -/
abbrev Config := Table (Prod.fst : String × Json → String)

namespace Config

/-- `config.get(key)` -/
def get (config : Config) (key : String) : Option Json := (config.find key).map Prod.snd

/-- `set(config)` -/
def keys (config : Config) : List String := config.rows.map Prod.fst

/-- `bool(config.get(key))` -/
def truthy (config : Config) (key : String) : Bool := (config.get key).any Json.truth

variable {config config' : Config} {key : String} {value : Json}

theorem get_eq_some : config.get key = some value ↔ (key, value) ∈ config.rows := by
  rw [get, Option.map_eq_some_iff]
  constructor
  · rintro ⟨⟨k, v⟩, hfind, rfl⟩
    obtain ⟨hmem, rfl⟩ := Table.find_eq_some.mp hfind
    exact hmem
  · exact fun h => ⟨_, Table.find_key h, rfl⟩

theorem get_put_self (h : (config.get key).isSome) :
    Config.get (config.put (key, value)) key = some value := by
  rw [get, Option.isSome_map] at h
  exact congrArg (Option.map Prod.snd) (Table.find_put_self (r := (key, value)) h)

theorem get_put_of_ne {other : String} (h : other ≠ key) :
    Config.get (config.put (key, value)) other = config.get other :=
  congrArg (Option.map Prod.snd) (Table.find_put_of_ne h)

theorem get_upsert_of_ne {other : String} (h : other ≠ key) :
    Config.get (config.upsert (key, value)) other = config.get other := by
  rw [get, Table.find_upsert, if_neg (Ne.symm h), get]

theorem get_upsert_self : Config.get (config.upsert (key, value)) key = some value := by
  rw [get, Table.find_upsert, if_pos rfl, Option.map_some]

@[simp] theorem keys_put : Config.keys (config.put (key, value)) = config.keys := by
  unfold keys Table.put
  rw [List.map_map]
  refine List.map_congr_left fun row _ => ?_
  by_cases h : row.1 = key
  · simp [h]
  · simp [h]

/-- A dictionary is what its keys, in their order, and its values are. -/
theorem ext_get (hkeys : config.keys = config'.keys)
    (hget : ∀ key, config.get key = config'.get key) : config = config' := by
  have hlen : config.rows.length = config'.rows.length := by
    simpa [keys] using congrArg List.length hkeys
  refine Table.ext_rows (List.ext_getElem hlen fun i hi hi' => ?_)
  have hkey : config.rows[i].1 = config'.rows[i].1 := by
    have := congrArg (·[i]?) hkeys
    simpa [keys, hi, hi'] using this
  refine Prod.ext hkey ?_
  have hvalue : config.get config.rows[i].1 = some config.rows[i].2 :=
    get_eq_some.mpr (List.getElem_mem hi)
  have hvalue' : config'.get config'.rows[i].1 = some config'.rows[i].2 :=
    get_eq_some.mpr (List.getElem_mem hi')
  rw [hget, hkey, hvalue'] at hvalue
  exact (Option.some.inj hvalue).symm

end Config

structure Schema where
  required : List String
  optional : List String
  secret : List String
  urls : List String

/-- `_SCHEMAS` -/
def schemas : List (String × Schema) := [
  ("edr_crowdstrike", {
    required := ["base_url", "client_id", "client_secret"]
    optional := []
    secret := ["client_secret"]
    urls := ["base_url"] }),
  ("vuln_nessus", {
    required := ["base_url", "access_key", "secret_key"]
    optional := ["verify_ssl"]
    secret := ["access_key", "secret_key"]
    urls := ["base_url"] }),
  ("ad_ldap", {
    required := ["server", "base_dn", "bind_dn", "bind_password"]
    optional := ["ca_certs_file", "filter"]
    secret := ["bind_password"]
    urls := ["server"] }),
  ("cloud_aws", {
    required := ["regions"]
    optional := ["access_key_id", "secret_access_key", "role_arn", "use_assume_role"]
    secret := ["access_key_id", "secret_access_key"]
    urls := [] }),
  ("dhcp_dns", {
    required := ["provider", "base_url"]
    optional := ["username", "password", "verify_ssl"]
    secret := ["username", "password"]
    urls := ["base_url"] }),
  ("asset_api", {
    required := ["base_url", "api_token"]
    optional := ["inventory_path", "timeout_sec"]
    secret := ["api_token"]
    urls := ["base_url"] })]

/-- The interpreter: the normal form of texts, the text of a float, a list or a
dictionary, and the order in which the members of a set are visited. -/
structure Runtime where
  unicode : Unicode
  repr : Json → String
  visit : List String → List String
  visit_perm : ∀ set, (visit set).Perm set

variable (R : Runtime) (settings : Settings)

/-- `str(value)` -/
def Runtime.str : Json → String
  | .null => "None"
  | .bool b => if b then "True" else "False"
  | .int n => toString n
  | .str s => s
  | v => R.repr v

/-! ## `validate_connector_config` -/

def sortedNames (names : List String) : List String := names.insertionSort (· ≤ ·)

def isRegionName : Json → Bool
  | .str s => s ≠ ""
  | _ => false

/-- The regions of `cloud_aws`. -/
def regionsOk : Option Json → Bool
  | some (.arr regions) => !regions.isEmpty && regions.all isRegionName
  | _ => false

/-- The rules of `cloud_aws`; without a role and without keys no role is assumed. -/
def validateAws (connectorType : String) (config : Config) : Except ConfigError Config :=
  if connectorType ≠ "cloud_aws" then .ok config
  else if ¬ regionsOk (config.get "regions") then .error .regions
  else if config.truthy "access_key_id" ≠ config.truthy "secret_access_key" then
    .error .staticPair
  else if ¬ config.truthy "role_arn" ∧ ¬ config.truthy "access_key_id" then
    .ok (config.upsert ("use_assume_role", .bool false))
  else .ok config

/-- The rules of `dhcp_dns`. -/
def validateProvider (connectorType : String) (config : Config) : Except ConfigError Unit :=
  if connectorType ≠ "dhcp_dns" then .ok ()
  else match config.get "provider" with
  | some (.str provider) =>
    if provider = "infoblox" then
      if ["username", "password"].all config.truthy then .ok () else .error .infoblox
    else if provider = "kea" then .ok ()
    else .error .provider
  | some (.arr _) | some (.obj _) => .error .unhashable
  | _ => .error .provider

def isFalse : Option Json → Bool
  | some (.bool b) => !b
  | _ => false

def validateTls (config : Config) : Except ConfigError Unit :=
  if isFalse (config.get "verify_ssl") ∧ ¬ settings.allowInsecureConnectors then
    .error .verifySsl
  else .ok ()

/-- The fields that are there, against those the schema names. -/
def validateFields (schema : Schema) (config : Config) : Except ConfigError Unit :=
  let missing := schema.required.filter (· ∉ config.keys)
  let unknown := config.keys.filter fun key => key ∉ schema.required ∧ key ∉ schema.optional
  if missing ≠ [] then .error (.missingFields (sortedNames missing))
  else if unknown ≠ [] then .error (.unknownFields (sortedNames unknown))
  else .ok ()

/-- The URL of a field; the fields with URLs are required. -/
def urlText (config : Config) (field : String) : List Char :=
  (R.str ((config.get field).getD .null)).toList

def validateConnectorConfig (connectorType : String) (config : Config) :
    Except ConfigError Config :=
  match schemas.lookup connectorType with
  | none => .error .unknownConnectorType
  | some schema => do
    validateFields schema config
    (R.visit schema.urls).forM fun field =>
      validateUrl R.unicode settings field (urlText R config field)
    let config ← validateAws connectorType config
    validateTls settings config
    validateProvider connectorType config
    return config

/-! ## `protect_connector_config` and `resolve_connector_config` -/

/-- The key derivation and the cipher behind it, given a salt and a text. -/
structure Cipher where
  encrypt : String → String → Except ConfigError String
  decrypt : String → String → Except ConfigError String

variable (C : Cipher) (token : String → String)

def encryptSecret (plaintext salt : String) : Except ConfigError String :=
  if plaintext = "" then .error .emptyPlaintext
  else if salt.length < 16 then .error .shortSalt
  else C.encrypt salt plaintext

def decryptSecret (ciphertext salt : String) : Except ConfigError String :=
  if ciphertext = "" then .error .emptyCiphertext else C.decrypt salt ciphertext

/-- What was encrypted under a salt of sixteen characters is decrypted under it. -/
def Cipher.RoundTrips : Prop :=
  ∀ plaintext salt, plaintext ≠ "" → 16 ≤ salt.length →
    ∃ ciphertext, encryptSecret C plaintext salt = .ok ciphertext ∧
      decryptSecret C ciphertext salt = .ok plaintext

/-- `value in (None, "")` -/
def isBlank : Json → Bool
  | .null => true
  | .str s => s = ""
  | _ => false

def envelope (ciphertext salt : String) : Json :=
  .obj [("_kepryx_encrypted", .bool true), ("ciphertext", .str ciphertext), ("salt", .str salt)]

/-- A dictionary that is marked as encrypted. -/
def isEnvelope : Json → Bool
  | .obj members =>
    match members.lookup "_kepryx_encrypted" with
    | some (.bool b) => b
    | _ => false
  | _ => false

/-- One secret is encrypted under the salt that is drawn for it. -/
def protectField (config : Config) (field : String) : Except ConfigError Config :=
  match config.get field with
  | none => .ok config
  | some value =>
    if isBlank value then .ok config
    else do
      let ciphertext ← encryptSecret C (R.str value) (token field)
      return config.put (field, envelope ciphertext (token field))

def protectConnectorConfig (connectorType : String) (config : Config) :
    Except ConfigError Config := do
  let validated ← validateConnectorConfig R settings connectorType config
  match schemas.lookup connectorType with
  | none => throw (.key connectorType)
  | some schema => (R.visit schema.secret).foldlM (protectField R C token) validated

/-- `decrypt_secret(value["ciphertext"], value["salt"])` -/
def openEnvelope : Json → Except ConfigError String
  | .obj members =>
    match members.lookup "ciphertext", members.lookup "salt" with
    | some (.str ciphertext), some (.str salt) => decryptSecret C ciphertext salt
    | none, _ => .error (.key "ciphertext")
    | _, none => .error (.key "salt")
    | some _, some _ => .error .noText
  | _ => .error .noText

/-- One secret is decrypted. -/
def resolveField (config : Config) (field : String) : Except ConfigError Config :=
  match config.get field with
  | none => .ok config
  | some value =>
    if isBlank value then .ok config
    else if ¬ isEnvelope value then .error (.notEncrypted field)
    else do
      let secret ← openEnvelope C value
      return config.put (field, .str secret)

def resolveConnectorConfig (connectorType : String) (config : Config) :
    Except ConfigError Config :=
  match schemas.lookup connectorType with
  | none => .error (.key connectorType)
  | some schema => (R.visit schema.secret).foldlM (resolveField C) config

/-! ## One pass over the secrets -/

/-- Only the value of one field changes, and it changes as `P` says. -/
def Touches (P : String → Option Json → Option Json → Prop) (before after : Config)
    (field : String) : Prop :=
  after.keys = before.keys ∧ P field (before.get field) (after.get field) ∧
    ∀ key, key ≠ field → after.get key = before.get key

/-- Steps that change one field each change all the fields of a set. -/
theorem foldlM_touches {step : Config → String → Except ConfigError Config}
    {A : String → Option Json → Prop} {P : String → Option Json → Option Json → Prop}
    {fields : List String} (hnodup : fields.Nodup) {config : Config}
    (hstep : ∀ config, ∀ field ∈ fields, A field (config.get field) →
      ∃ after, step config field = .ok after ∧ Touches P config after field)
    (hA : ∀ field ∈ fields, A field (config.get field)) :
    ∃ after, fields.foldlM step config = .ok after ∧ after.keys = config.keys ∧
      (∀ field ∈ fields, P field (config.get field) (after.get field)) ∧
      ∀ key, key ∉ fields → after.get key = config.get key := by
  induction fields generalizing config with
  | nil => exact ⟨config, rfl, rfl, List.forall_mem_nil _, fun _ _ => rfl⟩
  | cons field fields ih =>
    obtain ⟨hfield, hnodup⟩ := List.nodup_cons.mp hnodup
    obtain ⟨next, hnext, hkeys, hP, hother⟩ :=
      hstep config field List.mem_cons_self (hA field List.mem_cons_self)
    have hsame {key : String} (hkey : key ∈ fields) : next.get key = config.get key :=
      hother key fun he => hfield (he ▸ hkey)
    obtain ⟨after, hafter, hkeys', hP', hother'⟩ :=
      ih hnodup (fun config key hkey => hstep config key (List.mem_cons_of_mem field hkey))
        fun key hkey => hsame hkey ▸ hA key (List.mem_cons_of_mem field hkey)
    refine ⟨after, ?_, hkeys'.trans hkeys, ?_, ?_⟩
    · rw [List.foldlM_cons, hnext]
      exact hafter
    · intro key hkey
      rcases List.mem_cons.mp hkey with rfl | hkey
      · rw [hother' key hfield]
        exact hP
      · rw [← hsame hkey]
        exact hP' key hkey
    · intro key hkey
      rw [List.mem_cons, not_or] at hkey
      rw [hother' key hkey.2, hother key hkey.1]

/-- Null or a text, if it is there. -/
def IsText (value : Option Json) : Prop :=
  value = none ∨ value = some .null ∨ ∃ s, value = some (.str s)

/-- A blank value is stored as it is, any other text in an envelope. -/
def StoredAs (field : String) (value stored : Option Json) : Prop :=
  (value.all isBlank ∧ stored = value) ∨
    ∃ secret ciphertext, value = some (.str secret) ∧ secret ≠ "" ∧
      encryptSecret C secret (token field) = .ok ciphertext ∧
      stored = some (envelope ciphertext (token field))

variable {R settings C token}

theorem touches_self {P : String → Option Json → Option Json → Prop} {config : Config}
    {field : String} (h : P field (config.get field) (config.get field)) :
    Touches P config config field := ⟨rfl, h, fun _ _ => rfl⟩

theorem touches_put {P : String → Option Json → Option Json → Prop} {config : Config}
    {field : String} {value value' : Json} (hvalue : config.get field = some value)
    (h : P field (some value) (some value')) :
    Touches P config (config.put (field, value')) field := by
  refine ⟨Config.keys_put, ?_, fun key hkey => Config.get_put_of_ne hkey⟩
  rw [hvalue, Config.get_put_self (hvalue ▸ rfl)]
  exact h

theorem protectField_touches (hC : C.RoundTrips) (htoken : ∀ field, 16 ≤ (token field).length)
    {config : Config} {field : String} (h : IsText (config.get field)) :
    ∃ after, protectField R C token config field = .ok after ∧
      Touches (StoredAs C token) config after field := by
  unfold protectField
  rcases h with hnone | hnull | ⟨s, hs⟩
  · rw [hnone]
    exact ⟨config, rfl, touches_self (.inl ⟨hnone ▸ rfl, rfl⟩)⟩
  · rw [hnull]
    exact ⟨config, rfl, touches_self (.inl ⟨hnull ▸ rfl, rfl⟩)⟩
  · rw [hs]
    by_cases hempty : s = ""
    · refine ⟨config, if_pos (by simpa [isBlank] using hempty), touches_self (.inl ⟨?_, rfl⟩)⟩
      rw [hs]
      simpa [isBlank] using hempty
    · obtain ⟨ciphertext, henc, -⟩ := hC s (token field) hempty (htoken field)
      refine ⟨config.put (field, envelope ciphertext (token field)), ?_,
        touches_put hs (.inr ⟨s, ciphertext, rfl, hempty, henc, rfl⟩)⟩
      simp only [isBlank, decide_eq_true_eq, if_neg hempty, Runtime.str, henc]
      rfl

theorem openEnvelope_envelope (ciphertext salt : String) :
    openEnvelope C (envelope ciphertext salt) = decryptSecret C ciphertext salt := rfl

/-- What is read back from a stored value is the value it was stored for. -/
theorem resolveField_touches (hC : C.RoundTrips) (htoken : ∀ field, 16 ≤ (token field).length)
    {config : Config} {field : String}
    (h : ∃ value, StoredAs C token field value (config.get field)) :
    ∃ after, resolveField C config field = .ok after ∧
      Touches (fun field stored value => ∀ original, StoredAs C token field original stored →
        value = original) config after field := by
  have hblank {value : Option Json} (hvalue : value.all isBlank) {original : Option Json}
      (horiginal : StoredAs C token field original value) : value = original := by
    rcases horiginal with ⟨-, h⟩ | ⟨_, _, -, -, -, rfl⟩
    · exact h
    · cases hvalue
  obtain ⟨value, ⟨hvalue, hstored⟩ | ⟨secret, ciphertext, rfl, hne, henc, hstored⟩⟩ := h
  · refine ⟨config, ?_, touches_self fun original horiginal => hblank (hstored ▸ hvalue) horiginal⟩
    unfold resolveField
    rw [hstored]
    cases value with
    | none => rfl
    | some v => exact if_pos hvalue
  · obtain ⟨c, hc, hdec⟩ := hC secret (token field) hne (htoken field)
    obtain rfl : ciphertext = c := Except.ok.inj (henc.symm.trans hc)
    refine ⟨config.put (field, .str secret), ?_, touches_put hstored ?_⟩
    · unfold resolveField
      rw [hstored]
      simp only [openEnvelope_envelope, hdec]
      rfl
    · rintro original (⟨hblank, rfl⟩ | ⟨secret', c', rfl, hne', henc', hsame⟩)
      · cases hblank
      · obtain ⟨d, hd, hdec'⟩ := hC secret' (token field) hne' (htoken field)
        obtain rfl : c' = d := Except.ok.inj (henc'.symm.trans hd)
        have hcipher : ciphertext = c' := by
          simpa [envelope] using hsame
        rw [hcipher, hdec'] at hdec
        rw [Except.ok.inj hdec]

theorem mem_schemas {connectorType : String} {schema : Schema}
    (h : schemas.lookup connectorType = some schema) : (connectorType, schema) ∈ schemas := by
  obtain ⟨before, after, heq, -⟩ := List.lookup_eq_some_iff.mp h
  rw [heq]
  exact List.mem_append_right before List.mem_cons_self

theorem secret_nodup {connectorType : String} {schema : Schema}
    (h : schemas.lookup connectorType = some schema) : schema.secret.Nodup :=
  (show ∀ e ∈ schemas, e.2.secret.Nodup by decide) _ (mem_schemas h)

theorem useAssumeRole_notMem {connectorType : String} {schema : Schema}
    (h : schemas.lookup connectorType = some schema) : "use_assume_role" ∉ schema.secret :=
  (show ∀ e ∈ schemas, "use_assume_role" ∉ e.2.secret by decide) _ (mem_schemas h)

theorem forM_eq_ok {α : Type} {f : α → Except ConfigError Unit} {xs : List α} :
    xs.forM f = .ok () ↔ ∀ x ∈ xs, f x = .ok () := by
  induction xs with
  | nil => exact iff_of_true rfl (List.forall_mem_nil _)
  | cons x xs ih =>
    rw [List.forall_mem_cons, ← ih, List.forM_eq_forM, List.forM_cons, bind_eq_ok]
    constructor
    · rintro ⟨_, hx, hxs⟩
      exact ⟨hx, hxs⟩
    · rintro ⟨hx, hxs⟩
      exact ⟨(), hx, hxs⟩

/-- A configuration that was accepted has the fields of its schema, and URLs that pass the
check. -/
theorem validate_spec {connectorType : String} {config validated : Config}
    (h : validateConnectorConfig R settings connectorType config = .ok validated) :
    ∃ schema, schemas.lookup connectorType = some schema ∧
      validateFields schema config = .ok () ∧
      (∀ field ∈ schema.urls,
        validateUrl R.unicode settings field (urlText R config field) = .ok ()) ∧
      validateAws connectorType config = .ok validated := by
  unfold validateConnectorConfig at h
  split at h
  · cases h
  next schema hschema =>
  obtain ⟨_, hfields, h⟩ := bind_eq_ok.mp h
  obtain ⟨_, hurls, h⟩ := bind_eq_ok.mp h
  obtain ⟨rewritten, hrewritten, h⟩ := bind_eq_ok.mp h
  obtain ⟨_, -, h⟩ := bind_eq_ok.mp h
  obtain ⟨_, -, h⟩ := bind_eq_ok.mp h
  obtain rfl := Except.ok.inj h
  refine ⟨schema, hschema, hfields, fun field hfield => ?_, hrewritten⟩
  exact forM_eq_ok.mp hurls field ((R.visit_perm _).mem_iff.mpr hfield)

theorem validateAws_cases {connectorType : String} {config validated : Config}
    (h : validateAws connectorType config = .ok validated) :
    validated = config ∨ (connectorType = "cloud_aws" ∧
      validated = config.upsert ("use_assume_role", .bool false)) := by
  unfold validateAws at h
  split_ifs at h with haws
  · exact .inl (Except.ok.inj h).symm
  · exact .inr ⟨not_not.mp haws, (Except.ok.inj h).symm⟩
  · exact .inl (Except.ok.inj h).symm

/-- The check changes one field at most, and no secret. -/
theorem get_validated {connectorType : String} {config validated : Config}
    (h : validateConnectorConfig R settings connectorType config = .ok validated) (key : String) :
    validated.get key = config.get key ∨
      (connectorType = "cloud_aws" ∧ key = "use_assume_role" ∧
        validated.get key = some (.bool false)) := by
  obtain ⟨_, -, -, -, h⟩ := validate_spec h
  rcases validateAws_cases h with rfl | ⟨haws, rfl⟩
  · exact .inl rfl
  · by_cases hkey : key = "use_assume_role"
    · subst hkey
      exact .inr ⟨haws, rfl, Config.get_upsert_self⟩
    · exact .inl (Config.get_upsert_of_ne hkey)

theorem resolveField_get {config after : Config} {field key : String}
    (h : resolveField C config field = .ok after) (hkey : key ≠ field) :
    after.get key = config.get key := by
  unfold resolveField at h
  split at h
  · rw [Except.ok.inj h]
  · split_ifs at h
    · rw [Except.ok.inj h]
    · obtain ⟨secret, -, h⟩ := bind_eq_ok.mp h
      rw [← Except.ok.inj h]
      exact Config.get_put_of_ne hkey

theorem resolveConnectorConfig_eq {connectorType : String} {schema : Schema}
    (h : schemas.lookup connectorType = some schema) (stored : Config) :
    resolveConnectorConfig R C connectorType stored =
      (R.visit schema.secret).foldlM (resolveField C) stored := by
  rw [resolveConnectorConfig, h]

theorem protectConnectorConfig_eq {connectorType : String} {schema : Schema}
    (hschema : schemas.lookup connectorType = some schema) {config validated : Config}
    (h : validateConnectorConfig R settings connectorType config = .ok validated) :
    protectConnectorConfig R settings C token connectorType config =
      (R.visit schema.secret).foldlM (protectField R C token) validated := by
  rw [protectConnectorConfig, h, ok_bind, hschema]

/-- A pass that meets a secret which is neither blank nor in an envelope does not go through. -/
theorem resolve_ne_ok {connectorType : String} {schema : Schema}
    (hschema : schemas.lookup connectorType = some schema) {stored : Config} {field : String}
    (hfield : field ∈ schema.secret) {value : Json} (hvalue : stored.get field = some value)
    (hblank : isBlank value = false) (henvelope : isEnvelope value = false) (resolved : Config) :
    resolveConnectorConfig R C connectorType stored ≠ .ok resolved := by
  intro h
  rw [resolveConnectorConfig_eq hschema] at h
  have hnodup := (R.visit_perm schema.secret).nodup_iff.mpr (secret_nodup hschema)
  obtain ⟨before, rest, hvisit⟩ :=
    List.append_of_mem ((R.visit_perm schema.secret).mem_iff.mpr hfield)
  rw [hvisit] at h hnodup
  obtain ⟨config, after, hbefore, hstep, -⟩ := foldlM_split h
  have hsame : config.get field = some value := by
    refine foldlM_invariant (fun _ c => c.get field = some value) ?_ hvalue hbefore
    intro done key todo c c' hdone hc hturn
    rw [resolveField_get hturn, hc]
    rintro rfl
    have hkey : field ∈ before := hdone ▸ List.mem_append_right done List.mem_cons_self
    exact (List.nodup_append.mp hnodup).2.2 field hkey field List.mem_cons_self rfl
  unfold resolveField at hstep
  rw [hsame] at hstep
  simp only [hblank, henvelope] at hstep
  cases hstep

/-! ## The round trip -/

/-- A stored secret that is not blank is an envelope with the text that was given. -/
def InEnvelope (C : Cipher) (token : String → String) (config : Config) (field : String)
    (stored : Json) : Prop :=
  isEnvelope stored = true ∧ ∃ secret ciphertext, config.get field = some (.str secret) ∧
    encryptSecret C secret (token field) = .ok ciphertext ∧
    stored = envelope ciphertext (token field)

/-- What the functions on secrets do to an accepted configuration: what is stored has its
secrets in envelopes and its other fields as they were checked, and is read back as it was
checked. -/
structure Stored (R : Runtime) (settings : Settings) (C : Cipher) (token : String → String)
    (connectorType : String) (schema : Schema) (config validated stored : Config) : Prop where
  protects : protectConnectorConfig R settings C token connectorType config = .ok stored
  resolves : resolveConnectorConfig R C connectorType stored = .ok validated
  secrets : ∀ field ∈ schema.secret, ∀ value, stored.get field = some value →
    isBlank value = false → InEnvelope C token config field value
  others : ∀ key, key ∉ schema.secret → stored.get key = validated.get key
  checked : ∀ key, validated.get key = config.get key ∨
    (connectorType = "cloud_aws" ∧ key = "use_assume_role" ∧
      validated.get key = some (.bool false))

theorem inEnvelope_of_storedAs {config : Config} {field : String} {stored : Option Json}
    (h : StoredAs C token field (config.get field) stored) {value : Json}
    (hvalue : stored = some value) (hblank : isBlank value = false) :
    InEnvelope C token config field value := by
  rcases h with ⟨hall, hstored⟩ | ⟨secret, ciphertext, hsecret, -, henc, hstored⟩
  · rw [← hstored, hvalue, Option.all_some, hblank] at hall
    cases hall
  · obtain rfl := Option.some.inj (hvalue.symm.trans hstored)
    exact ⟨rfl, secret, ciphertext, hsecret, henc, rfl⟩

/-- Every accepted configuration whose secrets are texts is read back as it was checked, and no
secret outside an envelope is ever read. -/
theorem secrets_roundTrip (hC : C.RoundTrips) (htoken : ∀ field, 16 ≤ (token field).length)
    {connectorType : String} {schema : Schema}
    (hschema : schemas.lookup connectorType = some schema) {config validated : Config}
    (h : validateConnectorConfig R settings connectorType config = .ok validated)
    (htexts : ∀ field ∈ schema.secret, IsText (config.get field)) :
    (∃ stored, Stored R settings C token connectorType schema config validated stored) ∧
    ∀ anyType anySchema, schemas.lookup anyType = some anySchema → ∀ (stored : Config),
      (∃ field ∈ anySchema.secret, ∃ value, stored.get field = some value ∧
        isBlank value = false ∧ isEnvelope value = false) →
      ∃ e, resolveConnectorConfig R C anyType stored = .error e := by
  have hsecret {field : String} (hfield : field ∈ schema.secret) :
      validated.get field = config.get field := by
    refine (get_validated h field).resolve_right ?_
    rintro ⟨-, rfl, -⟩
    exact useAssumeRole_notMem hschema hfield
  have hmem {field : String} : field ∈ R.visit schema.secret ↔ field ∈ schema.secret :=
    (R.visit_perm schema.secret).mem_iff
  have hnodup := (R.visit_perm schema.secret).nodup_iff.mpr (secret_nodup hschema)
  constructor
  · obtain ⟨stored, hprotect, hkeys, hsecrets, hothers⟩ :=
      foldlM_touches (A := fun _ => IsText) hnodup
        (fun _ _ _ htext => protectField_touches hC htoken htext)
        fun field hfield => hsecret (hmem.mp hfield) ▸ htexts field (hmem.mp hfield)
    obtain ⟨resolved, hresolve, hkeys', hback, hothers'⟩ :=
      foldlM_touches (A := fun field stored => ∃ value, StoredAs C token field value stored)
        hnodup
        (fun _ _ _ hstored => resolveField_touches hC htoken hstored)
        fun field hfield => ⟨_, hsecrets field hfield⟩
    have hsame : resolved = validated := by
      refine Config.ext_get (hkeys'.trans hkeys) fun key => ?_
      by_cases hkey : key ∈ R.visit schema.secret
      · exact hback key hkey _ (hsecrets key hkey)
      · rw [hothers' key hkey, hothers key hkey]
    refine ⟨stored, ?_, ?_, ?_, ?_, get_validated h⟩
    · rw [protectConnectorConfig_eq hschema h, hprotect]
    · rw [resolveConnectorConfig_eq hschema, hresolve, hsame]
    · intro field hfield value hvalue hblank
      have hstored := hsecrets field (hmem.mpr hfield)
      rw [hsecret hfield] at hstored
      exact inEnvelope_of_storedAs hstored hvalue hblank
    · exact fun key hkey => hothers key (mt hmem.mp hkey)
  · rintro anyType anySchema hany stored ⟨field, hfield, value, hvalue, hblank, henvelope⟩
    cases hresolve : resolveConnectorConfig R C anyType stored with
    | error e => exact ⟨e, rfl⟩
    | ok resolved =>
      exact absurd hresolve (resolve_ne_ok hany hfield hvalue hblank henvelope resolved)

/-- An interpreter for texts that are ASCII. -/
def plain : Runtime := ⟨⟨id⟩, fun _ => "", id, fun set => .refl set⟩

/-- The settings as they come: no private network is authorised. -/
def strict : Settings := ⟨false, []⟩

/-- A cipher that marks what it has sealed. -/
def marking : Cipher where
  encrypt _ plaintext := .ok (String.ofList ('#' :: plaintext.toList))
  decrypt _ ciphertext := .ok (String.ofList ciphertext.toList.tail)

theorem marking_roundTrips : marking.RoundTrips := by
  intro plaintext salt hne hlen
  refine ⟨String.ofList ('#' :: plaintext.toList), ?_, ?_⟩
  · rw [encryptSecret, if_neg hne, if_neg (Nat.not_lt.mpr hlen), marking]
  · have hnonempty : String.ofList ('#' :: plaintext.toList) ≠ "" := by
      intro h
      simpa using congrArg String.toList h
    rw [decryptSecret, if_neg hnonempty]
    refine congrArg Except.ok ?_
    rw [String.toList_ofList, List.tail_cons, String.ofList_toList]

def falcon : Config where
  rows := [("base_url", .str "https://falcon.example.test"), ("client_id", .str "client-id"),
    ("client_secret", .str "top-secret")]
  nodup := by decide

theorem falcon_validated :
    validateConnectorConfig plain strict "edr_crowdstrike" falcon = .ok falcon := rfl

/-- One salt for every field. -/
def oneSalt : String → String := fun _ => "0123456789abcdef"

theorem secrets_roundTrip_falcon : ∃ schema stored,
    schemas.lookup "edr_crowdstrike" = some schema ∧
      Stored plain strict marking oneSalt "edr_crowdstrike" schema falcon falcon stored := by
  have hsalt (field : String) : 16 ≤ (oneSalt field).length :=
    show 16 ≤ "0123456789abcdef".length by decide
  obtain ⟨stored, hstored⟩ := (secrets_roundTrip marking_roundTrips hsalt rfl falcon_validated (by
    intro field hfield
    rw [List.mem_singleton.mp hfield]
    exact .inr (.inr ⟨"top-secret", rfl⟩))).1
  exact ⟨_, stored, rfl, hstored⟩

end Kepryx.ConnectorSecrets
