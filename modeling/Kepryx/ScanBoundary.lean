import Kepryx.IpNetworks
import Kepryx.Results

/-!
# The boundary of active scanning

Every target that reaches nmap has been authorized against `SCAN_NETWORKS`: the rows of
`scan_networks` and the argument of a service scan are only requests. The settings are validated
when they are loaded, so a worker never runs with a list that has an invalid entry.
-/
namespace Kepryx.ScanBoundary
open Kepryx.IpNetworks Kepryx.Results

variable (T : Texts)

/-- The settings of scanning, as the environment gives them. -/
structure RawSettings where
  scanNetworks : List String := []
  maxScanHosts : ℕ := 4096
  nmapTiming : ℕ := 4

/-- Validated settings. -/
structure Settings extends RawSettings where
  valid : ∀ cidr ∈ scanNetworks, (T.network false cidr).isSome
  maxScanHosts_pos : 1 ≤ maxScanHosts

/-- The construction of `Settings`, with nothing for a validation error. -/
def load (raw : RawSettings) : Option (Settings T) :=
  if h : (∀ cidr ∈ raw.scanNetworks, (T.network false cidr).isSome) ∧
      1 ≤ raw.maxScanHosts ∧ raw.maxScanHosts ≤ 1048576 ∧ raw.nmapTiming ≤ 5 then
    some ⟨raw, h.1, h.2.1⟩
  else none

/-! ## Authorization -/

/-- `ScanAuthorizationError`, or a `ValueError` of the ipaddress module. -/
inductive ScanError where
  | authorization (message : String)
  | value
  deriving DecidableEq, Repr

/-- `normalize_scan_network` -/
def normalizeScanNetwork (cidr : String) : Except ScanError String :=
  match T.network false cidr with
  | none => .error (.authorization "invalid scan CIDR")
  | some n => .ok (T.networkText n)

/-- The loop over the allowed ranges, up to the first that admits the target. -/
def findAllowed (admits : Network → Bool) (outside : String) : List String → Except ScanError Unit
  | [] => .error (.authorization outside)
  | value :: values =>
    match T.network false value with
    | none => .error (.authorization "SCAN_NETWORKS contains an invalid CIDR")
    | some allowed => if admits allowed then .ok () else findAllowed admits outside values

/-- An allowed range of the same family that the target is a subnet of. -/
def admitsNetwork (target allowed : Network) : Bool :=
  target.version = allowed.version && target.subnetOf allowed

/-- `authorize_scan_network` -/
def authorizeScanNetwork (allowed : List String) (maxHosts : ℕ) (cidr : String) :
    Except ScanError String := do
  match T.network true (← normalizeScanNetwork T cidr) with
  | none => throw .value
  | some target =>
    if maxHosts < target.numAddresses then
      throw (.authorization ("scan target contains " ++ toString target.numAddresses ++
        " addresses; limit is " ++ toString maxHosts))
    if allowed = [] then
      throw (.authorization "network scanning is disabled; SCAN_NETWORKS is empty")
    findAllowed T (admitsNetwork target)
      "scan target is outside the authorized SCAN_NETWORKS boundary" allowed
    return T.networkText target

/-- `authorize_scan_host` -/
def authorizeScanHost (allowed : List String) (target : String) : Except ScanError String := do
  match T.address target with
  | none => throw (.authorization "service scan target must be a single IP address")
  | some host =>
    if allowed = [] then
      throw (.authorization "network scanning is disabled; SCAN_NETWORKS is empty")
    findAllowed T (fun n => n.contains host) "service scan target is outside SCAN_NETWORKS" allowed
    return T.addressText host

/-! ## Invocations -/

/-- An invocation of nmap: its arguments, of which the last is the target. -/
structure Invocation where
  args : List String
  deriving DecidableEq, Repr

def Invocation.target (i : Invocation) : Option String := i.args.getLast?

variable {T} (settings : Settings T)

/-- `NetworkScanner.discover`, up to the start of nmap. -/
def discover (cidr : String) (excludedIps : List String) : Except ScanError Invocation := do
  let cidr ← authorizeScanNetwork T settings.scanNetworks settings.maxScanHosts cidr
  return ⟨["nmap", "-sn", "-PR", "-PE", "-PA21,22,23,80,443,3389",
    "-T" ++ toString settings.nmapTiming, "-oX", "-"] ++
    (if excludedIps = [] then [] else ["--exclude", ",".intercalate excludedIps]) ++ [cidr]⟩

/-- `NetworkScanner.service_scan`, up to the start of nmap. -/
def serviceScan (target : String) : Except ScanError Invocation := do
  let target ← authorizeScanHost T settings.scanNetworks target
  return ⟨["nmap", "-sV", "-p", "22,80,135,139,443,445,3389,5985,8080,8443",
    "-T" ++ toString settings.nmapTiming, "-oX", "-", target]⟩

/-- A row of `scan_networks`. -/
structure ScanNetwork where
  cidr : String
  enabled : Bool := true
  excludedIps : List String := []
  deriving DecidableEq, Repr

/-- What the surroundings do to the turn of a network: an exception that leaves the task, before
nmap starts or after it, or none. Failures that the task handles do not end it. -/
inductive Fate where
  | goesOn | endsBefore | endsAfter
  deriving DecidableEq, Repr

/-- The loop of `_run_all_network_scans`. -/
def scanAll (fate : ScanNetwork → Fate) : List ScanNetwork → List Invocation
  | [] => []
  | network :: networks =>
    match authorizeScanNetwork T settings.scanNetworks settings.maxScanHosts network.cidr with
    | .error (.authorization _) => scanAll fate networks
    | .error .value => []
    | .ok _ =>
      let started := (discover settings network.cidr network.excludedIps).toOption.toList
      match fate network with
      | .goesOn => started ++ scanAll fate networks
      | .endsBefore => []
      | .endsAfter => started

/-- `_run_all_network_scans` -/
def runAllNetworkScans (fate : ScanNetwork → Fate) (rows : List ScanNetwork) : List Invocation :=
  scanAll settings fate (rows.filter ScanNetwork.enabled)

/-- `_service_scan_host` -/
def serviceScanHost (ip : String) : List Invocation := (serviceScan settings ip).toOption.toList

/-- A task of the worker. -/
inductive Task where
  | allNetworks (fate : ScanNetwork → Fate) (rows : List ScanNetwork)
  | serviceScan (ip : String)

def Task.invocations : Task → List Invocation
  | .allNetworks fate rows => runAllNetworkScans settings fate rows
  | .serviceScan ip => serviceScanHost settings ip

variable (T)

/-- All invocations of a worker, which starts with the environment's settings or not at all. -/
def worker (raw : RawSettings) (tasks : List Task) : List Invocation :=
  match load T raw with
  | none => []
  | some settings => tasks.flatMap fun task => task.invocations settings

/-! ## What an authorized target is -/

variable {T}

theorem findAllowed_ok {admits : Network → Bool} {outside : String} {values : List String}
    (h : findAllowed T admits outside values = .ok ()) :
    ∃ value ∈ values, ∃ n, T.network false value = some n ∧ admits n := by
  induction values with
  | nil => cases h
  | cons value values ih =>
    unfold findAllowed at h
    split at h
    · cases h
    · rename_i n hn
      split at h
      · rename_i hadmits
        exact ⟨value, List.mem_cons_self, n, hn, hadmits⟩
      · obtain ⟨v, hv, hrest⟩ := ih h
        exact ⟨v, List.mem_cons_of_mem _ hv, hrest⟩

/-- A range is authorized, in its canonical form, if it is small enough and lies in an allowed
one. -/
theorem authorizeScanNetwork_iff {allowed : List String} {maxHosts : ℕ} {cidr text : String} :
    authorizeScanNetwork T allowed maxHosts cidr = .ok text ↔
      ∃ n, T.network false cidr = some n ∧ text = T.networkText n ∧ n.numAddresses ≤ maxHosts ∧
        allowed ≠ [] ∧ findAllowed T (admitsNetwork n)
          "scan target is outside the authorized SCAN_NETWORKS boundary" allowed = .ok () := by
  unfold authorizeScanNetwork normalizeScanNetwork
  cases hread : T.network false cidr with
  | none => simp
  | some n =>
    have hcanonical : T.network true (T.networkText n) = some n := T.network_text hread true
    simp only [ok_bind, hcanonical, throw_eq_error, error_bind, pure_eq_ok, guard_eq_ok,
      bind_eq_ok, Except.ok.injEq, Option.some.injEq, exists_eq_left', Nat.not_lt]
    constructor
    · rintro ⟨hsize, hempty, _, hfind, rfl⟩
      exact ⟨rfl, hsize, hempty, hfind⟩
    · rintro ⟨rfl, hsize, hempty, hfind⟩
      exact ⟨hsize, hempty, (), hfind, rfl⟩

/-- Authorizing what was authorized returns it unchanged. -/
theorem authorizeScanNetwork_idempotent {allowed : List String} {maxHosts : ℕ}
    {cidr text : String} (h : authorizeScanNetwork T allowed maxHosts cidr = .ok text) :
    authorizeScanNetwork T allowed maxHosts text = .ok text := by
  obtain ⟨n, hread, rfl, hrest⟩ := authorizeScanNetwork_iff.mp h
  exact authorizeScanNetwork_iff.mpr ⟨n, T.network_text hread false, rfl, hrest⟩

theorem authorizeScanHost_ok {allowed : List String} {target text : String}
    (h : authorizeScanHost T allowed target = .ok text) :
    ∃ a, T.address target = some a ∧ text = T.addressText a ∧ allowed ≠ [] ∧
      findAllowed T (fun n => n.contains a) "service scan target is outside SCAN_NETWORKS" allowed =
        .ok () := by
  unfold authorizeScanHost at h
  cases hread : T.address target with
  | none =>
    rw [hread] at h
    cases h
  | some a =>
    simp only [hread, throw_eq_error, error_bind, pure_eq_ok, guard_eq_ok, bind_eq_ok] at h
    obtain ⟨hempty, _, hfind, h⟩ := h
    cases h
    exact ⟨a, rfl, rfl, hempty, hfind⟩

/-! ## What nmap is given -/

variable (T) in
/-- The family and the addresses that a target text stands for. -/
def denotation (text : String) : Option (Version × Finset ℕ) :=
  match T.address text with
  | some a => some (a.version, {a.value})
  | none => (T.network true text).map fun n => (n.version, n.addresses)

theorem denotation_networkText {strict : Bool} {cidr : String} {n : Network}
    (h : T.network strict cidr = some n) :
    denotation T (T.networkText n) = some (n.version, n.addresses) := by
  unfold denotation
  rw [T.address_networkText, T.network_text h]
  rfl

theorem denotation_addressText {text : String} {a : Address} (h : T.address text = some a) :
    denotation T (T.addressText a) = some (a.version, {a.value}) := by
  unfold denotation
  rw [T.address_text h]

variable (T) in
/-- The target stands for addresses of one family, no more than are allowed, and all of them in
one of the networks of `SCAN_NETWORKS` of that family. -/
def Within (raw : RawSettings) (i : Invocation) : Prop :=
  ∃ text version addresses, i.target = some text ∧
    denotation T text = some (version, addresses) ∧
    addresses.card ≤ raw.maxScanHosts ∧
    ∃ value ∈ raw.scanNetworks, ∃ n, T.network false value = some n ∧ n.version = version ∧
      addresses ⊆ n.addresses

variable {settings : Settings T}

theorem discover_within {cidr : String} {excludedIps : List String} {i : Invocation}
    (h : discover settings cidr excludedIps = .ok i) : Within T settings.toRawSettings i := by
  obtain ⟨text, htext, h⟩ := bind_eq_ok.mp h
  cases h
  obtain ⟨n, hread, rfl, hsize, -, hfind⟩ := authorizeScanNetwork_iff.mp htext
  obtain ⟨value, hvalue, allowed, hallowed, hadmits⟩ := findAllowed_ok hfind
  simp only [admitsNetwork, Bool.and_eq_true, decide_eq_true_eq] at hadmits
  refine ⟨T.networkText n, n.version, n.addresses, ?_, denotation_networkText hread, ?_,
    value, hvalue, allowed, hallowed, hadmits.1.symm, Network.subnetOf_iff.mp hadmits.2⟩
  · exact List.getLast?_concat
  · rw [Network.card_addresses]
    exact hsize

theorem serviceScan_within {target : String} {i : Invocation}
    (h : serviceScan settings target = .ok i) : Within T settings.toRawSettings i := by
  obtain ⟨text, htext, h⟩ := bind_eq_ok.mp h
  cases h
  obtain ⟨a, hread, rfl, -, hfind⟩ := authorizeScanHost_ok htext
  obtain ⟨value, hvalue, allowed, hallowed, hcontains⟩ := findAllowed_ok hfind
  obtain ⟨hversion, hin⟩ := Network.contains_iff.mp hcontains
  refine ⟨T.addressText a, a.version, {a.value}, rfl, denotation_addressText hread, ?_,
    value, hvalue, allowed, hallowed, hversion.symm, Finset.singleton_subset_iff.mpr hin⟩
  rw [Finset.card_singleton]
  exact settings.maxScanHosts_pos

theorem mem_toOption {ε : Type*} {x : Except ε Invocation} {i : Invocation}
    (h : i ∈ x.toOption.toList) : x = .ok i := by
  cases x with
  | error e => cases h
  | ok j => rw [List.mem_singleton.mp h]

/-- Along the loop every network adds at most an invocation that was authorized. -/
theorem scanAll_within (fate : ScanNetwork → Fate) (networks : List ScanNetwork) :
    ∀ i ∈ scanAll settings fate networks, Within T settings.toRawSettings i := by
  induction networks with
  | nil => simp [scanAll]
  | cons network networks ih =>
    have hstarted : ∀ i ∈ (discover settings network.cidr network.excludedIps).toOption.toList,
        Within T settings.toRawSettings i := fun i hi => discover_within (mem_toOption hi)
    intro i hi
    unfold scanAll at hi
    split at hi
    · exact ih i hi
    · cases hi
    · dsimp only at hi
      split at hi
      · exact (List.mem_append.mp hi).elim (hstarted i) (ih i)
      · cases hi
      · exact hstarted i hi

theorem invocations_within (task : Task) :
    ∀ i ∈ task.invocations settings, Within T settings.toRawSettings i := by
  cases task with
  | allNetworks fate rows => exact scanAll_within fate _
  | serviceScan ip => exact fun i hi => serviceScan_within (mem_toOption hi)

/-! ## Lists that authorize nothing -/

theorem authorizeScanNetwork_empty (maxHosts : ℕ) (cidr : String) :
    ∃ error, authorizeScanNetwork T [] maxHosts cidr = .error error := by
  cases h : authorizeScanNetwork T [] maxHosts cidr with
  | error e => exact ⟨e, rfl⟩
  | ok text =>
    obtain ⟨n, -, -, -, hempty, -⟩ := authorizeScanNetwork_iff.mp h
    exact absurd rfl hempty

theorem authorizeScanHost_empty (target : String) :
    ∃ error, authorizeScanHost T [] target = .error error := by
  cases h : authorizeScanHost T [] target with
  | error e => exact ⟨e, rfl⟩
  | ok text =>
    obtain ⟨a, -, -, hempty, -⟩ := authorizeScanHost_ok h
    exact absurd rfl hempty

theorem scanAll_empty (hempty : settings.scanNetworks = []) (fate : ScanNetwork → Fate)
    (networks : List ScanNetwork) : scanAll settings fate networks = [] := by
  induction networks with
  | nil => rfl
  | cons network networks ih =>
    obtain ⟨e, he⟩ := authorizeScanNetwork_empty (T := T) settings.maxScanHosts network.cidr
    unfold scanAll
    rw [hempty, he]
    cases e with
    | authorization message => exact ih
    | value => rfl

theorem invocations_empty (hempty : settings.scanNetworks = []) (task : Task) :
    task.invocations settings = [] := by
  cases task with
  | allNetworks fate rows => exact scanAll_empty hempty fate _
  | serviceScan ip =>
    obtain ⟨e, he⟩ := authorizeScanHost_empty (T := T) ip
    simp [Task.invocations, serviceScanHost, serviceScan, hempty, he, Except.toOption]

theorem load_raw {raw : RawSettings} (h : load T raw = some settings) :
    settings.toRawSettings = raw := by
  unfold load at h
  split at h
  · cases h
    rfl
  · cases h

/-- Settings with an invalid entry are never loaded. -/
theorem load_invalid {raw : RawSettings}
    (h : ∃ cidr ∈ raw.scanNetworks, T.network false cidr = none) : load T raw = none := by
  obtain ⟨cidr, hcidr, hnone⟩ := h
  apply dif_neg
  rintro ⟨hvalid, -⟩
  have hsome := hvalid cidr hcidr
  rw [hnone] at hsome
  cases hsome

variable (T) in
/-- Scanning never leaves the boundary: the target of every invocation lies in one network of
`SCAN_NETWORKS` and has at most `MAX_SCAN_HOSTS` addresses; with an empty list, or one that has an
invalid entry, nothing is invoked; and an authorized range is authorized as it stands. -/
theorem scanning_within_boundary (raw : RawSettings) (tasks : List Task) :
    (∀ i ∈ worker T raw tasks, Within T raw i) ∧
    (raw.scanNetworks = [] ∨ (∃ cidr ∈ raw.scanNetworks, T.network false cidr = none) →
      worker T raw tasks = []) ∧
    ∀ allowed maxHosts cidr text, authorizeScanNetwork T allowed maxHosts cidr = .ok text →
      authorizeScanNetwork T allowed maxHosts text = .ok text := by
  refine ⟨fun i hi => ?_, fun h => ?_, fun _ _ _ _ h => authorizeScanNetwork_idempotent h⟩
  · unfold worker at hi
    split at hi
    · cases hi
    · rename_i settings hload
      obtain ⟨task, -, hi⟩ := List.mem_flatMap.mp hi
      exact load_raw hload ▸ invocations_within task i hi
  · unfold worker
    rcases h with hempty | hinvalid
    · split
      · rfl
      · rename_i settings hload
        have hsettings : settings.scanNetworks = [] := by rw [load_raw hload, hempty]
        exact List.flatMap_eq_nil_iff.mpr fun task _ => invocations_empty hsettings task
    · rw [load_invalid hinvalid]

/-! ## An authorized subnet -/

/-- The network 10.20.0.0/16. -/
def campus : Network := ⟨⟨.v4, 169082880, none, by decide⟩, 16, by decide, by decide⟩

/-- The network 10.20.30.0/28. -/
def segment : Network := ⟨⟨.v4, 169090560, none, by decide⟩, 28, by decide, by decide⟩

/-- The network 10.21.0.0/24, which is no part of the campus. -/
def elsewhere : Network := ⟨⟨.v4, 169148416, none, by decide⟩, 24, by decide, by decide⟩

/-- The address 10.20.30.7. -/
def printer : Address := ⟨.v4, 169090567, none, by decide⟩

/-- The texts of these four; a network text may also have bits below the prefix. -/
def campusTexts : Texts where
  address s := if s = "10.20.30.7" then some printer else none
  network strict s :=
    if s = "10.20.0.0/16" then some campus
    else if s = "10.20.30.0/28" ∨ strict = false ∧ s = "10.20.30.7/28" then some segment
    else if s = "10.21.0.0/24" then some elsewhere
    else none
  addressText _ := "10.20.30.7"
  networkText n :=
    if n = campus then "10.20.0.0/16" else if n = segment then "10.20.30.0/28" else "10.21.0.0/24"
  address_text h := by
    split at h
    · rw [if_pos rfl]
      exact h
    · cases h
  network_text h strict' := by
    have hsegment : segment ≠ campus := by decide
    have helsewhere : elsewhere ≠ campus ∧ elsewhere ≠ segment := by decide
    split at h
    · cases h
      simp
    split at h
    · cases h
      simp [hsegment]
    split at h
    · cases h
      simp [helsewhere]
    · cases h
  address_networkText n := by
    split
    · rfl
    · split <;> rfl

/-- A worker that may scan the campus. -/
def campusSettings : RawSettings := { scanNetworks := ["10.20.0.0/16"], maxScanHosts := 256 }

/-- It scans the segment of a row whose text is not canonical, and the printer. -/
def campusTasks : List Task :=
  [.allNetworks (fun _ => .goesOn) [{ cidr := "10.20.30.7/28" }, { cidr := "10.21.0.0/24" }],
    .serviceScan "10.20.30.7"]

theorem subnet_scanned :
    ((worker campusTexts campusSettings campusTasks).map Invocation.target =
        [some "10.20.30.0/28", some "10.20.30.7"] ∧
      ∀ i ∈ worker campusTexts campusSettings campusTasks, Within campusTexts campusSettings i) ∧
    worker campusTexts {} campusTasks = [] ∧
    authorizeScanNetwork campusTexts ["10.20.0.0/16"] 256 "10.20.30.0/28" = .ok "10.20.30.0/28" :=
  have hscanning := scanning_within_boundary campusTexts campusSettings campusTasks
  ⟨⟨by decide, hscanning.1⟩, (scanning_within_boundary campusTexts {} campusTasks).2.1 (.inl rfl),
    hscanning.2.2 _ _ "10.20.30.7/28" _ (by decide)⟩

end Kepryx.ScanBoundary
