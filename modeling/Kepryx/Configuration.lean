import Kepryx.ClientAddress
import Kepryx.ConnectorUrls
import Kepryx.JsonReader
import Kepryx.RequirementPatches
import Kepryx.ScanBoundary

/-!
# The settings and the guards that read them

The lists of networks come from the environment, as JSON or separated by commas. Settings whose
lists hold a text that is no network are refused when they are loaded. So the guards that read the
lists later decide by membership alone, and none of them fails on a broken setting.
-/
namespace Kepryx.Configuration
open Kepryx.IpNetworks Kepryx.Results Kepryx.JsonText
open Kepryx.ManagementNetwork (Boundary Origin getRequestIp ensureManagementNetwork anyNetwork)
open Kepryx.ClientAddress (Honoured leftmost getRequestIp_of_honoured getRequestIp_of_not_honoured)
open Kepryx.ScanBoundary (ScanError authorizeScanNetwork authorizeScanHost findAllowed
  admitsNetwork)
open Kepryx.AssetIntake (strip)
open Kepryx.ComplianceCatalog (isSpace)
open Kepryx.RequirementPatches (strip_between)

/-! ## Lists in the environment -/

def textOf : Json → Option String
  | .str s => some s
  | _ => none

/-- The elements of an array of texts. -/
def texts : Json → Option (List String)
  | .arr elements => elements.mapM textOf
  | _ => none

/-- `_parse_list_setting`, with nothing for a text that is refused. -/
def parseListSetting (value : String) : Option (List String) :=
  let raw := strip value
  if raw = "" then some []
  else if raw.toList.head? = some '[' then (read raw.toList).bind texts
  else some (((raw.toList.splitOn ',').map fun item => strip (String.ofList item)).filter
    (· ≠ ""))

/-! ## Settings -/

/-- The settings that the validation and the guards read. -/
structure Values where
  environment : String := "production"
  secretKey : String
  jwtSecret : String
  encryptionKey : String
  jwtAlgorithm : String := "HS256"
  trustedProxyCidrs : List String := ["127.0.0.1/32", "::1/128"]
  managementCidrs : List String := ["127.0.0.1/32", "::1/128", "172.29.0.0/24"]
  allowInsecureConnectors : Bool := false
  connectorAllowedCidrs : List String := []
  scanNetworks : List String := []
  nmapTiming : ℕ := 4
  maxScanHosts : ℕ := 4096
  auditLogRetentionDays : ℕ := 2555
  auditLogArchiveDays : ℕ := 365

/-- The bounds of the numbers. -/
def inRange (v : Values) : Bool :=
  v.nmapTiming ≤ 5 && 1 ≤ v.maxScanHosts && v.maxScanHosts ≤ 1048576 &&
    1 ≤ v.auditLogRetentionDays && 1 ≤ v.auditLogArchiveDays

/-- The lists of networks under their names. -/
def networkSettings (v : Values) : List (String × List String) := [
  ("TRUSTED_PROXY_CIDRS", v.trustedProxyCidrs),
  ("MANAGEMENT_CIDRS", v.managementCidrs),
  ("CONNECTOR_ALLOWED_CIDRS", v.connectorAllowedCidrs),
  ("SCAN_NETWORKS", v.scanNetworks)]

def securityKeys (v : Values) : List (String × String) := [
  ("SECRET_KEY", v.secretKey),
  ("JWT_SECRET", v.jwtSecret),
  ("ENCRYPTION_KEY", v.encryptionKey)]

/-- The text of a list of names in an f-string. -/
def namesRepr (names : List String) : String :=
  "[" ++ ", ".intercalate (names.map fun name => "'" ++ name ++ "'") ++ "]"

/-- The checks of production. -/
def validateProduction (v : Values) : Except String Unit := do
  let weak := ((securityKeys v).filter fun (_, value) => value.length < 32).map Prod.fst
  if weak ≠ [] then
    throw ("Production security keys must be at least 32 characters: " ++ namesRepr weak)
  if ((securityKeys v).map Prod.snd).dedup.length ≠ (securityKeys v).length then
    throw "SECRET_KEY, JWT_SECRET, and ENCRYPTION_KEY must be distinct"
  if v.jwtAlgorithm ≠ "HS256" then
    throw "Production currently supports JWT_ALGORITHM=HS256 only"

variable (T : Texts)

/-- The check of one list. -/
def validateNetworks : String × List String → Except String Unit
  | (fieldName, cidrs) => cidrs.forM fun cidr =>
    if (T.network false cidr).isSome then return
    else throw (fieldName ++ " contains an invalid CIDR: " ++ cidr)

/-- `validate_security_settings` -/
def validateSecuritySettings (v : Values) : Except String Unit := do
  if v.auditLogRetentionDays ≤ v.auditLogArchiveDays then
    throw "AUDIT_LOG_ARCHIVE_DAYS must be less than retention days"
  if Redaction.lower v.environment = "production" then validateProduction v
  (networkSettings v).forM (validateNetworks T)

/-- Validated settings. -/
structure Settings extends Values where
  range : inRange toValues = true
  valid : validateSecuritySettings T toValues = .ok ()

/-- The texts of the lists in the environment, and the other settings as they are read. -/
structure Environment where
  list : String → Option String
  rest : Values

/-- A list from the environment, or its default. -/
def Environment.listSetting (env : Environment) (fieldName : String) (default : List String) :
    Option (List String) :=
  match env.list fieldName with
  | none => some default
  | some value => parseListSetting value

/-- `Settings()`, with nothing for a validation error. -/
def load (env : Environment) : Option (Settings T) := do
  let trustedProxyCidrs ← env.listSetting "TRUSTED_PROXY_CIDRS" env.rest.trustedProxyCidrs
  let managementCidrs ← env.listSetting "MANAGEMENT_CIDRS" env.rest.managementCidrs
  let connectorAllowedCidrs ←
    env.listSetting "CONNECTOR_ALLOWED_CIDRS" env.rest.connectorAllowedCidrs
  let scanNetworks ← env.listSetting "SCAN_NETWORKS" env.rest.scanNetworks
  let v := { env.rest with
    trustedProxyCidrs := trustedProxyCidrs
    managementCidrs := managementCidrs
    connectorAllowedCidrs := connectorAllowedCidrs
    scanNetworks := scanNetworks }
  if h : inRange v = true ∧ validateSecuritySettings T v = .ok () then some ⟨v, h.1, h.2⟩ else none

/-! ## What validated settings hold -/

variable {T}

theorem forM_eq_ok {α ε : Type} {f : α → Except ε Unit} {xs : List α} :
    xs.forM f = .ok () ↔ ∀ x ∈ xs, f x = .ok () := by
  induction xs with
  | nil => exact iff_of_true rfl fun x hx => absurd hx List.not_mem_nil
  | cons x xs ih =>
    change (f x >>= fun _ => xs.forM f) = .ok () ↔ _
    rw [bind_eq_ok, List.forall_mem_cons, ← ih]
    exact ⟨fun ⟨_, hx, hxs⟩ => ⟨hx, hxs⟩, fun ⟨hx, hxs⟩ => ⟨(), hx, hxs⟩⟩

/-- Every text of every list is a network. -/
theorem Settings.readable (s : Settings T) (field : String × List String)
    (hfield : field ∈ networkSettings s.toValues) {cidr : String} (hcidr : cidr ∈ field.2) :
    ∃ n, T.network false cidr = some n := by
  have hvalid : (networkSettings s.toValues).forM (validateNetworks T) = .ok () := by
    have h := s.valid
    unfold validateSecuritySettings at h
    simp only [throw_eq_error, error_bind, guard_eq_ok] at h
    split at h
    · obtain ⟨_, -, h⟩ := bind_eq_ok.mp h.2
      exact h
    · exact h.2
  have hlist := forM_eq_ok.mp (forM_eq_ok.mp hvalid field hfield) cidr hcidr
  split at hlist
  · rename_i hsome
    exact Option.isSome_iff_exists.mp hsome
  · cases hlist

/-! ## Guards over lists of networks -/

variable (T) in
/-- The networks of a list of texts. -/
def networks (cidrs : List String) : List Network := cidrs.filterMap (T.network false)

section Lists
variable {cidrs : List String} (h : ∀ cidr ∈ cidrs, ∃ n, T.network false cidr = some n)
include h

theorem anyNetwork_eq (a : Address) :
    anyNetwork T (some a) cidrs = some ((networks T cidrs).any fun n => n.contains a) := by
  induction cidrs with
  | nil => rfl
  | cons cidr cidrs ih =>
    obtain ⟨n, hn⟩ := h cidr List.mem_cons_self
    have hrest := ih fun c hc => h c (List.mem_cons_of_mem _ hc)
    have hcons : networks T (cidr :: cidrs) = n :: networks T cidrs := List.filterMap_cons_some hn
    simp only [hcons, List.any_cons, anyNetwork, hn]
    cases hcontains : n.contains a with
    | true => rfl
    | false => simpa using hrest

theorem findAllowed_eq (admits : Network → Bool) (outside : String) :
    findAllowed T admits outside cidrs =
      if (networks T cidrs).any admits then .ok () else .error (.authorization outside) := by
  induction cidrs with
  | nil => rfl
  | cons cidr cidrs ih =>
    obtain ⟨n, hn⟩ := h cidr List.mem_cons_self
    have hrest := ih fun c hc => h c (List.mem_cons_of_mem _ hc)
    have hcons : networks T (cidr :: cidrs) = n :: networks T cidrs := List.filterMap_cons_some hn
    rw [hcons, List.any_cons, findAllowed, hn]
    cases hadmits : admits n with
    | true => simp [hadmits]
    | false => simpa [hadmits] using hrest

theorem explicitlyAllowed_eq (a : Address) :
    ConnectorUrls.explicitlyAllowed a (cidrs.map (T.network false)) =
      .ok ((networks T cidrs).any fun n => n.contains a) := by
  induction cidrs with
  | nil => rfl
  | cons cidr cidrs ih =>
    obtain ⟨n, hn⟩ := h cidr List.mem_cons_self
    have hrest := ih fun c hc => h c (List.mem_cons_of_mem _ hc)
    have hcons : networks T (cidr :: cidrs) = n :: networks T cidrs := List.filterMap_cons_some hn
    rw [hcons, List.any_cons, List.map_cons, hn, ConnectorUrls.explicitlyAllowed]
    cases hcontains : n.contains a with
    | true => rfl
    | false => simpa using hrest

end Lists

/-! ## The guards under validated settings -/

def Settings.boundary (s : Settings T) : Boundary := ⟨s.trustedProxyCidrs, s.managementCidrs⟩

def Settings.connectors (s : Settings T) : ConnectorUrls.Settings :=
  ⟨s.allowInsecureConnectors, s.connectorAllowedCidrs.map (T.network false)⟩

variable (T) in
/-- The text is an address in one of the networks. -/
def listed (cidrs : List String) (text : String) : Bool :=
  (T.address text).any fun a => (networks T cidrs).any fun n => n.contains a

/-! What the guards answer, with no case for a list that cannot be read. -/

/-- The address of a request: a forwarding header counts if it comes from a trusted proxy and its
first element is an address. -/
def Settings.requestIp (s : Settings T) (o : Origin) : String :=
  let peer := o.client.getD "unknown"
  if peer ≠ "unknown" ∧ listed T s.trustedProxyCidrs peer = true then
    ((leftmost T o).map T.addressText).getD peer
  else peer

def Settings.management (s : Settings T) (o : Origin) : Except Accounts.HttpError Unit :=
  if listed T s.managementCidrs (s.requestIp o) = true then .ok ()
  else .error ⟨403, "Management network access required"⟩

def Settings.scanRange (s : Settings T) (cidr : String) : Except ScanError String :=
  match T.network false cidr with
  | none => .error (.authorization "invalid scan CIDR")
  | some n =>
    if s.maxScanHosts < n.numAddresses then
      .error (.authorization ("scan target contains " ++ toString n.numAddresses ++
        " addresses; limit is " ++ toString s.maxScanHosts))
    else if s.scanNetworks = [] then
      .error (.authorization "network scanning is disabled; SCAN_NETWORKS is empty")
    else if (networks T s.scanNetworks).any (admitsNetwork n) = true then .ok (T.networkText n)
    else .error (.authorization "scan target is outside the authorized SCAN_NETWORKS boundary")

def Settings.scanHost (s : Settings T) (target : String) : Except ScanError String :=
  match T.address target with
  | none => .error (.authorization "service scan target must be a single IP address")
  | some a =>
    if s.scanNetworks = [] then
      .error (.authorization "network scanning is disabled; SCAN_NETWORKS is empty")
    else if ((networks T s.scanNetworks).any fun n => n.contains a) = true then
      .ok (T.addressText a)
    else .error (.authorization "service scan target is outside SCAN_NETWORKS")

def Settings.connector (s : Settings T) (field : String) (a : Address) :
    Except ConnectorUrls.ConfigError Unit :=
  if (IpLiterals.isGlobal a ||
      (networks T s.connectorAllowedCidrs).any fun n => n.contains a) = true then .ok ()
  else .error (.notGlobal field)

/-- Every guard answers from membership alone. -/
structure Decides (s : Settings T) : Prop where
  client : ∀ o, getRequestIp T s.boundary o = s.requestIp o
  management : ∀ o, ensureManagementNetwork T s.boundary o = s.management o
  scanRange : ∀ cidr,
    authorizeScanNetwork T s.scanNetworks s.maxScanHosts cidr = s.scanRange cidr
  scanHost : ∀ target, authorizeScanHost T s.scanNetworks target = s.scanHost target
  connector : ∀ field a, ConnectorUrls.validateAddress s.connectors field a = s.connector field a

section Guards
variable (s : Settings T)

theorem trusted_networks : ∀ cidr ∈ s.trustedProxyCidrs, ∃ n, T.network false cidr = some n :=
  fun _ => s.readable ("TRUSTED_PROXY_CIDRS", _) (by simp [networkSettings])

theorem management_networks : ∀ cidr ∈ s.managementCidrs, ∃ n, T.network false cidr = some n :=
  fun _ => s.readable ("MANAGEMENT_CIDRS", _) (by simp [networkSettings])

theorem connector_networks :
    ∀ cidr ∈ s.connectorAllowedCidrs, ∃ n, T.network false cidr = some n :=
  fun _ => s.readable ("CONNECTOR_ALLOWED_CIDRS", _) (by simp [networkSettings])

theorem scan_networks : ∀ cidr ∈ s.scanNetworks, ∃ n, T.network false cidr = some n :=
  fun _ => s.readable ("SCAN_NETWORKS", _) (by simp [networkSettings])

/-- The headers of a peer count if it is in a trusted network. -/
theorem honoured_iff (peer : String) : Honoured T s.boundary peer ↔
    peer ≠ "unknown" ∧ listed T s.trustedProxyCidrs peer = true := by
  have hlist : s.boundary.trustedProxyCidrs = s.trustedProxyCidrs := rfl
  unfold Honoured listed
  rw [hlist]
  cases T.address peer with
  | none =>
    have hnone : anyNetwork T none s.trustedProxyCidrs ≠ some true := by
      cases s.trustedProxyCidrs <;> simp [anyNetwork]
    simp [hnone]
  | some a => simp [anyNetwork_eq (trusted_networks s)]

theorem client_eq (o : Origin) : getRequestIp T s.boundary o = s.requestIp o := by
  unfold Settings.requestIp
  cases hclient : o.client with
  | none =>
    unfold getRequestIp
    rw [hclient]
    cases o.forwarded <;> simp
  | some peer =>
    dsimp only [Option.getD_some]
    by_cases hhonoured : Honoured T s.boundary peer
    · rw [if_pos ((honoured_iff s peer).mp hhonoured), getRequestIp_of_honoured hclient hhonoured]
    · rw [if_neg fun h => hhonoured ((honoured_iff s peer).mpr h),
        getRequestIp_of_not_honoured hclient hhonoured]

theorem management_eq (o : Origin) :
    ensureManagementNetwork T s.boundary o = s.management o := by
  have hlist : s.boundary.managementCidrs = s.managementCidrs := rfl
  unfold ensureManagementNetwork Settings.management listed
  rw [client_eq, hlist]
  cases T.address (s.requestIp o) with
  | none => rfl
  | some a =>
    dsimp only [Option.any_some]
    rw [anyNetwork_eq (management_networks s)]
    by_cases hany : ((networks T s.managementCidrs).any fun n => n.contains a) = true
    · rw [if_pos hany]
      simp only [hany]
    · rw [if_neg hany]
      simp only [Bool.eq_false_of_not_eq_true hany]

theorem scanRange_eq (cidr : String) :
    authorizeScanNetwork T s.scanNetworks s.maxScanHosts cidr = s.scanRange cidr := by
  unfold authorizeScanNetwork ScanBoundary.normalizeScanNetwork Settings.scanRange
  cases hread : T.network false cidr with
  | none => rfl
  | some n =>
    have hcanonical : T.network true (T.networkText n) = some n := T.network_text hread true
    simp only [ok_bind, hcanonical, throw_eq_error, error_bind, pure_eq_ok,
      findAllowed_eq (scan_networks s)]
    split_ifs <;> rfl

theorem scanHost_eq (target : String) :
    authorizeScanHost T s.scanNetworks target = s.scanHost target := by
  unfold authorizeScanHost Settings.scanHost
  cases T.address target with
  | none => rfl
  | some a =>
    simp only [throw_eq_error, error_bind, pure_eq_ok, findAllowed_eq (scan_networks s)]
    split_ifs <;> rfl

theorem connector_eq (field : String) (a : Address) :
    ConnectorUrls.validateAddress s.connectors field a = s.connector field a := by
  have hlist : s.connectors.connectorAllowedCidrs =
      s.connectorAllowedCidrs.map (T.network false) := rfl
  unfold ConnectorUrls.validateAddress Settings.connector
  rw [hlist, explicitlyAllowed_eq (connector_networks s)]
  cases IpLiterals.isGlobal a with
  | true => rfl
  | false => cases (networks T s.connectorAllowedCidrs).any fun n => n.contains a <;> rfl

theorem settings_decide : Decides s where
  client := client_eq s
  management := management_eq s
  scanRange := scanRange_eq s
  scanHost := scanHost_eq s
  connector := connector_eq s

end Guards

/-! ## The two formats of a list -/

section Strip
variable {pad : List Char} (hpad : ∀ c ∈ pad, isSpace c = true)
include hpad

theorem strip_lead (xs : List Char) :
    strip (String.ofList (pad ++ xs)) = strip (String.ofList xs) := by
  simp only [strip, String.toList_ofList, List.dropWhile_append_of_pos hpad]

theorem strip_trail (xs : List Char) :
    strip (String.ofList (xs ++ pad)) = strip (String.ofList xs) := by
  have hnil : pad.dropWhile isSpace = [] := List.dropWhile_eq_nil_iff.mpr hpad
  have hreverse : ∀ c ∈ pad.reverse, isSpace c = true := fun c hc => hpad c (List.mem_reverse.mp hc)
  simp only [strip, String.toList_ofList, List.dropWhile_append]
  split
  · rename_i hempty
    rw [hnil, List.isEmpty_iff.mp hempty]
  · rw [List.reverse_append, List.dropWhile_append_of_pos hreverse]

end Strip

/-- A text between spaces. -/
theorem strip_padded {lead core trail : List Char} (hlead : ∀ c ∈ lead, isSpace c = true)
    (htrail : ∀ c ∈ trail, isSpace c = true) (hhead : ∀ c ∈ core.head?, isSpace c = false)
    (hlast : ∀ c ∈ core.getLast?, isSpace c = false) :
    strip (String.ofList (lead ++ (core ++ trail))) = String.ofList core := by
  have hfix : ∀ {xs : List Char}, (∀ c ∈ xs.head?, isSpace c = false) →
      xs.dropWhile isSpace = xs := by
    intro xs hxs
    cases xs with
    | nil => rfl
    | cons c xs => exact List.dropWhile_cons_of_neg (by simp [hxs c rfl])
  rw [strip_lead hlead, strip_trail htrail, strip, String.toList_ofList, hfix hhead,
    hfix (by simpa using hlast), List.reverse_reverse]

/-- The stripped parts of a text between commas. -/
def parts (text : List Char) : List String :=
  (text.splitOn ',').map fun item => strip (String.ofList item)

/-- Spaces around the text are spaces around its first and last part. -/
theorem parts_lead {pad : List Char} (hpad : ∀ c ∈ pad, isSpace c = true) (xs : List Char) :
    parts (pad ++ xs) = parts xs := by
  induction pad with
  | nil => rfl
  | cons c pad ih =>
    have hc : ∀ d ∈ [c], isSpace d = true := by simpa using hpad c List.mem_cons_self
    have hne : (c == ',') = false := beq_false_of_ne fun heq =>
      absurd (heq ▸ hpad c List.mem_cons_self) (by decide)
    rw [← ih fun d hd => hpad d (List.mem_cons_of_mem c hd), List.cons_append, parts, parts,
      List.splitOn_cons_eq_if_modifyHead, if_neg (by simp [hne])]
    cases (pad ++ xs).splitOn ',' with
    | nil => rfl
    | cons part rest =>
      rw [List.modifyHead_cons, List.map_cons, List.map_cons]
      exact congrArg (· :: _) (strip_lead hc part)

theorem parts_trail {pad : List Char} (hpad : ∀ c ∈ pad, isSpace c = true) (xs : List Char) :
    parts (xs ++ pad) = parts xs := by
  have hcomma : ',' ∉ pad := fun hmem => absurd (hpad ',' hmem) (by decide)
  have hrel : List.Forall₂ (fun a b => a = b ∨ a = b ++ pad) ((xs ++ pad).splitOn ',')
      (xs.splitOn ',') := by
    induction xs with
    | nil =>
      rw [List.nil_append, List.splitOn_eq_singleton hcomma, List.splitOn_nil]
      exact .cons (.inr rfl) .nil
    | cons x xs ih =>
      rw [List.cons_append, List.splitOn_cons_eq_if_modifyHead, List.splitOn_cons_eq_if_modifyHead]
      generalize (xs ++ pad).splitOn ',' = padded, xs.splitOn ',' = plain at ih
      split
      · exact .cons (.inl rfl) ih
      · cases ih with
        | nil => exact .nil
        | cons h hrest =>
          refine .cons ?_ hrest
          rcases h with rfl | rfl
          · exact .inl rfl
          · exact .inr rfl
  have hstrip : ∀ {a b : List Char}, a = b ∨ a = b ++ pad →
      strip (String.ofList a) = strip (String.ofList b) := by
    rintro a b (rfl | rfl)
    · rfl
    · exact strip_trail hpad b
  unfold parts
  generalize (xs ++ pad).splitOn ',' = padded, xs.splitOn ',' = plain at hrel
  induction hrel with
  | nil => rfl
  | cons h _ ih => rw [List.map_cons, List.map_cons, hstrip h, ih]

theorem parts_strip (text : String) : parts (strip text).toList = parts text.toList := by
  obtain ⟨lead, trail, htext, hlead, htrail⟩ := strip_between text
  conv_rhs => rw [htext, List.append_assoc, parts_lead hlead, parts_trail htrail]

/-- An entry of a list that is separated by commas: a text, which may be empty, with spaces around
it. -/
structure Entry where
  lead : List Char
  item : String
  trail : List Char
  lead_space : ∀ c ∈ lead, isSpace c = true
  trail_space : ∀ c ∈ trail, isSpace c = true
  comma : ',' ∉ item.toList
  head : ∀ c ∈ item.toList.head?, isSpace c = false
  last : ∀ c ∈ item.toList.getLast?, isSpace c = false

def Entry.text (e : Entry) : List Char := e.lead ++ (e.item.toList ++ e.trail)

theorem Entry.strip_text (e : Entry) : strip (String.ofList e.text) = e.item := by
  rw [Entry.text, strip_padded e.lead_space e.trail_space e.head e.last, String.ofList_toList]

theorem Entry.comma_text (e : Entry) : ',' ∉ e.text := by
  have hspace : ∀ {pad : List Char}, (∀ c ∈ pad, isSpace c = true) → ',' ∉ pad :=
    fun hpad hmem => absurd (hpad ',' hmem) (by decide)
  simp only [Entry.text, List.mem_append, not_or]
  exact ⟨hspace e.lead_space, e.comma, hspace e.trail_space⟩

/-- The text of the entries. -/
def commaText (entries : List Entry) : List Char := [','].intercalate (entries.map Entry.text)

/-- The texts of the entries that are not empty. -/
def items (entries : List Entry) : List String := (entries.map Entry.item).filter (· ≠ "")

theorem parts_commaText (entries : List Entry) :
    (parts (commaText entries)).filter (· ≠ "") = items entries := by
  cases entries with
  | nil => rfl
  | cons e es =>
    have hsplit : (commaText (e :: es)).splitOn ',' = (e :: es).map Entry.text := by
      refine List.splitOn_intercalate ',' (fun l hl => ?_) (List.cons_ne_nil _ _)
      obtain ⟨x, -, rfl⟩ := List.mem_map.mp hl
      exact x.comma_text
    have hparts : parts (commaText (e :: es)) = (e :: es).map Entry.item := by
      rw [parts, hsplit, List.map_map]
      exact List.map_congr_left fun x _ => x.strip_text
    rw [hparts, items]

/-- A list that starts with a bracket has a first entry that does. -/
theorem bracket_of_strip {entries : List Entry}
    (h : (strip (String.ofList (commaText entries))).toList.head? = some '[') :
    ∃ e ∈ entries.head?, e.item.toList.head? = some '[' := by
  obtain ⟨lead, trail, htext, hlead, -⟩ := strip_between (String.ofList (commaText entries))
  obtain ⟨rest, hrest⟩ := List.head?_eq_some_iff.mp h
  have hbracket : (commaText entries).dropWhile isSpace = '[' :: (rest ++ trail) := by
    rw [String.toList_ofList] at htext
    rw [htext, hrest, List.append_assoc, List.dropWhile_append_of_pos hlead, List.cons_append]
    exact List.dropWhile_cons_of_neg (by decide)
  cases entries with
  | nil => cases hbracket
  | cons e es =>
    refine ⟨e, rfl, ?_⟩
    -- after the first entry comes nothing, or a comma
    obtain ⟨rest, hrest, htext⟩ : ∃ rest, (∀ c ∈ rest.head?, c = ',') ∧
        commaText (e :: es) = e.lead ++ (e.item.toList ++ (e.trail ++ rest)) := by
      unfold commaText
      cases es with
      | nil => exact ⟨[], by simp, by simp [Entry.text]⟩
      | cons x xs =>
        rw [List.map_cons, List.map_cons, List.intercalate_cons_cons]
        exact ⟨[','] ++ [','].intercalate (x.text :: xs.map Entry.text), by simp,
          by simp [Entry.text]⟩
    rw [htext, List.dropWhile_append_of_pos e.lead_space] at hbracket
    cases hitem : e.item.toList with
    | nil =>
      rw [hitem, List.nil_append, List.dropWhile_append_of_pos e.trail_space] at hbracket
      cases rest with
      | nil => cases hbracket
      | cons c rest =>
        obtain rfl : c = ',' := hrest c rfl
        rw [List.dropWhile_cons_of_neg (by decide)] at hbracket
        exact absurd (List.cons.inj hbracket).1 (by decide)
    | cons c item =>
      have hc : isSpace c = false := e.head c (by rw [hitem]; rfl)
      rw [hitem, List.cons_append, List.dropWhile_cons_of_neg (by simp [hc])] at hbracket
      rw [List.head?_cons, (List.cons.inj hbracket).1]

theorem parseListSetting_commas {entries : List Entry}
    (hfirst : ∀ e ∈ entries.head?, e.item.toList.head? ≠ some '[') :
    parseListSetting (String.ofList (commaText entries)) = some (items entries) := by
  have hparts : (parts (strip (String.ofList (commaText entries))).toList).filter (· ≠ "") =
      items entries := by
    rw [parts_strip, String.toList_ofList, parts_commaText]
  unfold parseListSetting
  dsimp only
  split
  · rename_i hempty
    rw [hempty] at hparts
    rw [← hparts]
    rfl
  · rw [if_neg fun hbracket => ?_]
    · exact congrArg some hparts
    · obtain ⟨e, he, hitem⟩ := bracket_of_strip hbracket
      exact hfirst e he hitem

theorem texts_array (xs : List String) : texts (.arr (xs.map .str)) = some xs := by
  change (xs.map Json.str).mapM textOf = some xs
  induction xs with
  | nil => rfl
  | cons x xs ih =>
    rw [List.map_cons, List.mapM_cons, ih]
    rfl

/-- An array of texts, with spaces around it. -/
theorem parseListSetting_json {o : DumpOptions} (ho : o.Readable) (hsort : o.sortKeys = false)
    {lead trail : List Char} (hlead : ∀ c ∈ lead, isSpace c = true)
    (htrail : ∀ c ∈ trail, isSpace c = true) (xs : List String) :
    parseListSetting (String.ofList (lead ++ ((Json.arr (xs.map .str)).dumps o ++ trail))) =
      some xs := by
  have hwell : WellFormed (.arr (xs.map .str)) := by
    refine .arr _ fun e he => ?_
    obtain ⟨x, -, rfl⟩ := List.mem_map.mp he
    exact .str x
  obtain ⟨inner, hinner⟩ : ∃ inner, (Json.arr (xs.map .str)).dumps o = '[' :: (inner ++ [']']) :=
    ⟨_, by rw [Json.dumps]⟩
  have hraw : strip (String.ofList (lead ++ ((Json.arr (xs.map .str)).dumps o ++ trail))) =
      String.ofList ((Json.arr (xs.map .str)).dumps o) := by
    refine strip_padded hlead htrail ?_ ?_
    · rw [hinner]
      rintro c ⟨⟩
      decide
    · rw [hinner, ← List.cons_append, List.getLast?_append]
      rintro c ⟨⟩
      decide
  have hne : String.ofList ((Json.arr (xs.map .str)).dumps o) ≠ "" := by
    rw [hinner]
    exact fun h => List.cons_ne_nil _ _ (String.ofList_eq_empty_iff.mp h)
  unfold parseListSetting
  dsimp only
  rw [hraw, if_neg hne, String.toList_ofList, if_pos (by rw [hinner]; rfl),
    read_dumps ho hsort hwell, Option.bind_some, texts_array]

/-- Both formats of a list are read as the same list; entries without a text are left out. -/
theorem list_setting_formats (entries : List Entry)
    (hfirst : ∀ e ∈ entries.head?, e.item.toList.head? ≠ some '[') (o : DumpOptions)
    (ho : o.Readable) (hsort : o.sortKeys = false) (lead trail : List Char)
    (hlead : ∀ c ∈ lead, isSpace c = true) (htrail : ∀ c ∈ trail, isSpace c = true) :
    parseListSetting (String.ofList (commaText entries)) = some (items entries) ∧
      parseListSetting (String.ofList
        (lead ++ ((Json.arr ((items entries).map .str)).dumps o ++ trail))) =
          some (items entries) :=
  ⟨parseListSetting_commas hfirst, parseListSetting_json ho hsort hlead htrail _⟩

/-- The entry ` 10.20.0.0/16`. -/
def campusEntry : Entry where
  lead := [' ']
  item := "10.20.0.0/16"
  trail := []
  lead_space c hc := by
    rw [List.mem_singleton.mp hc]
    decide
  trail_space _ hc := absurd hc List.not_mem_nil
  comma := by decide
  head c hc := by
    have hfirst : "10.20.0.0/16".toList.head? = some '1' := by decide
    rw [Option.some.inj (hc.symm.trans hfirst)]
    decide
  last c hc := by
    have hlast : "10.20.0.0/16".toList.getLast? = some '6' := by decide
    rw [Option.some.inj (hc.symm.trans hlast)]
    decide

/-- An entry of a blank. -/
def blankEntry : Entry where
  lead := [' ']
  item := ""
  trail := []
  lead_space := campusEntry.lead_space
  trail_space := campusEntry.trail_space
  comma := by decide
  head _ hc := by cases hc
  last _ hc := by cases hc

theorem campus_formats : parseListSetting " 10.20.0.0/16, , 10.20.0.0/16, " =
    parseListSetting "[\"10.20.0.0/16\",\"10.20.0.0/16\"]" := by
  let entries := [campusEntry, blankEntry, campusEntry, blankEntry]
  have hformats := list_setting_formats entries (by decide) ⟨",", ":", false, true⟩
    ⟨⟨[], [], rfl, white_nil, white_nil⟩, ⟨[], [], rfl, white_nil, white_nil⟩⟩ rfl [] []
    (by simp) (by simp)
  have hcommas : String.ofList (commaText entries) = " 10.20.0.0/16, , 10.20.0.0/16, " := by
    decide +kernel
  have hjson : String.ofList ([] ++ ((Json.arr ((items entries).map .str)).dumps
      ⟨",", ":", false, true⟩ ++ [])) = "[\"10.20.0.0/16\",\"10.20.0.0/16\"]" := by
    decide +kernel
  rw [← hcommas, ← hjson]
  exact hformats.1.trans hformats.2.symm

/-! ## Settings that were loaded -/

variable {env : Environment} {s : Settings T}

/-- The lists are those of the environment, or the defaults. -/
structure Lists (env : Environment) (s : Settings T) : Prop where
  trustedProxy : env.listSetting "TRUSTED_PROXY_CIDRS" env.rest.trustedProxyCidrs =
    some s.trustedProxyCidrs
  management : env.listSetting "MANAGEMENT_CIDRS" env.rest.managementCidrs = some s.managementCidrs
  connector : env.listSetting "CONNECTOR_ALLOWED_CIDRS" env.rest.connectorAllowedCidrs =
    some s.connectorAllowedCidrs
  scan : env.listSetting "SCAN_NETWORKS" env.rest.scanNetworks = some s.scanNetworks

theorem load_lists (h : load T env = some s) : Lists env s := by
  obtain ⟨trusted, htrusted, h⟩ := Option.bind_eq_some_iff.mp h
  obtain ⟨management, hmanagement, h⟩ := Option.bind_eq_some_iff.mp h
  obtain ⟨connector, hconnector, h⟩ := Option.bind_eq_some_iff.mp h
  obtain ⟨scan, hscan, h⟩ := Option.bind_eq_some_iff.mp h
  dsimp only at h
  split at h
  · cases h
    exact ⟨htrusted, hmanagement, hconnector, hscan⟩
  · cases h

theorem listed_nil (text : String) : listed T [] text = false := by
  unfold listed
  cases T.address text <;> rfl

/-- What the guards answer where a list is empty: no header counts, no request is from the
management network, no scan is authorized, and no address but a global one is connected to. -/
structure FailClosed (s : Settings T) : Prop where
  client : s.trustedProxyCidrs = [] → ∀ o, getRequestIp T s.boundary o = o.client.getD "unknown"
  management : s.managementCidrs = [] → ∀ o, ensureManagementNetwork T s.boundary o =
    .error ⟨403, "Management network access required"⟩
  scanRange : s.scanNetworks = [] → ∀ cidr,
    ∃ e, authorizeScanNetwork T s.scanNetworks s.maxScanHosts cidr = .error e
  scanHost : s.scanNetworks = [] → ∀ target,
    ∃ e, authorizeScanHost T s.scanNetworks target = .error e
  connector : s.connectorAllowedCidrs = [] → ∀ field a,
    ConnectorUrls.validateAddress s.connectors field a =
      if IpLiterals.isGlobal a = true then .ok () else .error (.notGlobal field)

theorem failClosed (s : Settings T) : FailClosed s where
  client h o := by
    rw [client_eq, Settings.requestIp, h, listed_nil]
    exact if_neg fun hlisted => Bool.false_ne_true hlisted.2
  management h o := by
    rw [management_eq, Settings.management, h, listed_nil]
    rfl
  scanRange h cidr := by
    rw [scanRange_eq, Settings.scanRange]
    split
    · exact ⟨_, rfl⟩
    · rw [if_pos h]
      split <;> exact ⟨_, rfl⟩
  scanHost h target := by
    rw [scanHost_eq, Settings.scanHost]
    split
    · exact ⟨_, rfl⟩
    · rw [if_pos h]
      exact ⟨_, rfl⟩
  connector h field a := by
    rw [connector_eq, Settings.connector, h]
    exact if_congr (by simp [networks]) rfl rfl

/-- What was loaded has the lists of the environment, and every guard that reads one answers from
membership in its networks alone; with an empty list it admits nothing on its account. -/
theorem loaded_settings_decide (h : load T env = some s) :
    Lists env s ∧ Decides s ∧ FailClosed s :=
  ⟨load_lists h, settings_decide s, failClosed s⟩

/-- A server that may scan the campus and has no proxy and no management network. -/
def campusEnvironment : Environment where
  list fieldName :=
    if fieldName = "SCAN_NETWORKS" then some " [\"10.20.0.0/16\"]"
    else if fieldName = "CONNECTOR_ALLOWED_CIDRS" then some "10.20.30.7/28, "
    else some ""
  rest :=
    { secretKey := "k1-0123456789abcdef0123456789abcdef"
      jwtSecret := "k2-0123456789abcdef0123456789abcdef"
      encryptionKey := "k3-0123456789abcdef0123456789abcdef" }

theorem campus_loaded : ∃ s, load ScanBoundary.campusTexts campusEnvironment = some s ∧
    authorizeScanHost ScanBoundary.campusTexts s.scanNetworks "10.20.30.7" = .ok "10.20.30.7" ∧
    ∀ o, ∃ e, ensureManagementNetwork ScanBoundary.campusTexts s.boundary o = .error e ∧
      e.status = 403 := by
  have hsome : (load ScanBoundary.campusTexts campusEnvironment).isSome = true := by
    decide +kernel
  obtain ⟨s, hs⟩ := Option.isSome_iff_exists.mp hsome
  obtain ⟨hlists, hdecides, hclosed⟩ := loaded_settings_decide hs
  have hscan : s.scanNetworks = ["10.20.0.0/16"] := by
    refine Option.some.inj (hlists.scan.symm.trans ?_)
    decide +kernel
  have hmanagement : s.managementCidrs = [] := by
    refine Option.some.inj (hlists.management.symm.trans ?_)
    decide +kernel
  refine ⟨s, hs, ?_, fun o => ⟨_, hclosed.management hmanagement o, rfl⟩⟩
  rw [hdecides.scanHost, Settings.scanHost, hscan]
  decide +kernel

end Kepryx.Configuration
