import Kepryx.Runs
import Kepryx.ScanBoundary
import Kepryx.Tables

/-!
# What an exclusion excludes

Excluded addresses are stored with a network and are given to nmap only for the discovery of that
network. Another row that covers the same address, or a service scan of it, does not see them.
-/
namespace Kepryx.ScanExclusions
open Kepryx.IpNetworks Kepryx.Results Kepryx.Runs Kepryx.ScanBoundary Kepryx.Tables

variable (T : Texts)

/-! ## `add_network` -/

structure ScanNetworkCreate where
  cidr : String
  name : String
  scanType : String := "discovery"
  excludedIps : List String := []
  deriving DecidableEq, Repr

/-- A constraint of a field, or an error that a validator raises. -/
inductive Invalid where
  | field (name : String)
  | value (message : String)
  deriving DecidableEq, Repr

/-- `validate_cidr` -/
def validateCidr (cidr : String) : Except Invalid String :=
  match T.network false cidr with
  | none => .error (.value "invalid scan CIDR")
  | some n => .ok (T.networkText n)

/-- One turn of the loop of `validate_exclusions`. -/
def validateExclusion (network : Network) (value : String) : Except Invalid String :=
  match T.address value with
  | none => .error (.value "excluded_ips must contain IP addresses")
  | some a =>
    if a.version ≠ network.version ∨ network.contains a = false then
      .error (.value "excluded IP must belong to the scan CIDR")
    else .ok (T.addressText a)

/-- `sorted(set(values))` -/
def sortedSet (values : List String) : List String := values.dedup.mergeSort fun s t => s ≤ t

/-- The validation of a request body. -/
def ScanNetworkCreate.validate (body : ScanNetworkCreate) : Except Invalid ScanNetworkCreate := do
  let cidr ← validateCidr T body.cidr
  if body.name.length < 1 ∨ 128 < body.name.length then throw (.field "name")
  if body.scanType ≠ "discovery" then throw (.field "scan_type")
  if 4096 < body.excludedIps.length then throw (.field "excluded_ips")
  match T.network true cidr with
  | none => throw (.value "invalid scan CIDR")
  | some network =>
    let normalized ← body.excludedIps.mapM (validateExclusion T network)
    return { body with cidr := cidr, excludedIps := sortedSet normalized }

abbrev Networks := Table ScanNetwork.cidr

/-- The answers to a request that adds no network. -/
inductive AddError where
  | unprocessable (e : Invalid)
  | forbidden (message : String)
  | server
  deriving DecidableEq, Repr

variable {T} in
/-- `add_network` -/
def addNetwork (settings : Settings T) (rows : Networks) (body : ScanNetworkCreate) :
    Except AddError Networks :=
  match body.validate T with
  | .error e => .error (.unprocessable e)
  | .ok body =>
    match authorizeScanNetwork T settings.scanNetworks settings.maxScanHosts body.cidr with
    | .error (.authorization message) => .error (.forbidden message)
    | .error .value => .error .server
    | .ok cidr =>
      if 64 < cidr.length then .error .server
      else match rows.insert? { cidr := cidr, excludedIps := body.excludedIps } with
        | none => .error .server
        | some rows => .ok rows

/-! ## Runs -/

/-- A network is added, the discovery of all networks runs over the rows in some order, or one
host is scanned. Each has the settings of its own process. -/
inductive Event where
  | addNetwork (settings : Settings T) (body : ScanNetworkCreate)
  | networkScan (settings : Settings T) (fate : ScanNetwork → Fate)
      (order : {f : List ScanNetwork → List ScanNetwork // ∀ rows, (f rows).Perm rows})
  | serviceScan (settings : Settings T) (ip : String)

variable {T}

/-- The rows after an event; a request that fails adds nothing. -/
def step (rows : Networks) : Event T → Networks
  | .addNetwork settings body =>
    match addNetwork settings rows body with
    | .ok rows => rows
    | .error _ => rows
  | _ => rows

/-- The invocations of nmap in an event. -/
def invocations (rows : Networks) : Event T → List Invocation
  | .addNetwork .. => []
  | .networkScan settings fate order => runAllNetworkScans settings fate (order.1 rows.rows)
  | .serviceScan settings ip => serviceScanHost settings ip

/-! ## What an invocation probes -/

/-- The argument of `--exclude`. -/
def excludeArg : List String → Option String
  | arg :: value :: rest =>
    if arg = "--exclude" then some value else excludeArg (value :: rest)
  | _ => none

/-- The `--exclude` list of an invocation. -/
def excludeList (i : Invocation) : List String :=
  match excludeArg i.args with
  | none => []
  | some value => (value.toList.splitOn ',').map String.ofList

variable (T)

/-- The invocation probes the address: its target covers it and its `--exclude` list does not
name it. -/
def Probes (i : Invocation) (v : Version) (x : ℕ) : Prop :=
  (∃ text addresses, i.target = some text ∧ denotation T text = some (v, addresses) ∧
    x ∈ addresses) ∧
  ∀ e ∈ excludeList i, ∀ a, T.address e = some a → a.version = v → a.value ≠ x

/-- The address is listed in the exclusions of the row. -/
def Lists (row : ScanNetwork) (v : Version) (x : ℕ) : Prop :=
  ∃ e ∈ row.excludedIps, ∃ a, T.address e = some a ∧ a.version = v ∧ a.value = x

/-- It is listed with a text that has no comma, as every address without a zone is. -/
def ListsPlainly (row : ScanNetwork) (v : Version) (x : ℕ) : Prop :=
  ∃ e ∈ row.excludedIps, ',' ∉ e.toList ∧
    ∃ a, T.address e = some a ∧ a.version = v ∧ a.value = x

/-- No invocation probes an address that an enabled row lists. -/
def NeverProbed (rows : Networks) (e : Event T) : Prop :=
  ∀ i ∈ invocations rows e, ∀ row ∈ rows.rows, row.enabled = true →
    ∀ v x, Lists T row v x → ¬ Probes T i v x

/-- Every probed address is the one that a service scan asked for, or belongs to an enabled
network that does not list it. -/
def ProbedForARow (rows : Networks) (e : Event T) : Prop :=
  ∀ i ∈ invocations rows e, ∀ v x, Probes T i v x →
    (∃ settings ip a, e = .serviceScan settings ip ∧ T.address ip = some a ∧ a.version = v ∧
      a.value = x) ∨
    ∃ row ∈ rows.rows, row.enabled = true ∧ ¬ ListsPlainly T row v x ∧
      ∃ n, T.network false row.cidr = some n ∧ n.version = v ∧ x ∈ n.addresses

variable {T} {settings : Settings T}

/-- A text without the separator that was joined with others is a part of the whole. -/
theorem mem_splitOn_intercalate {c : Char} {x : List Char} {xs : List (List Char)} (hx : x ∈ xs)
    (hc : c ∉ x) : x ∈ ([c].intercalate xs).splitOn c := by
  induction xs with
  | nil => cases hx
  | cons y ys ih =>
    cases ys with
    | nil =>
      have hxy : x = y := by simpa using hx
      rw [List.intercalate_singleton, ← hxy, List.splitOn_eq_singleton hc]
      exact List.mem_singleton_self x
    | cons z zs =>
      have hsplit : ([c].intercalate (y :: z :: zs)).splitOn c =
          y.splitOn c ++ ([c].intercalate (z :: zs)).splitOn c := by
        rw [List.intercalate_cons_cons, List.append_assoc, List.singleton_append,
          List.splitOn_append_cons_self]
      rw [hsplit, List.mem_append]
      rcases List.mem_cons.mp hx with rfl | hx
      · rw [List.splitOn_eq_singleton hc]
        exact .inl (List.mem_singleton_self x)
      · exact .inr (ih hx)

theorem excludeArg_append {options : List String} (h : "--exclude" ∉ options)
    (rest : List String) : excludeArg (options ++ rest) = excludeArg rest := by
  induction options with
  | nil => rfl
  | cons arg options ih =>
    have hne : "--exclude" ≠ arg := List.ne_of_not_mem_cons h
    have hnot : "--exclude" ∉ options := List.not_mem_of_not_mem_cons h
    rw [List.cons_append, ← ih hnot]
    cases options ++ rest with
    | nil => rfl
    | cons value rest => exact if_neg (Ne.symm hne)

theorem prefix_of_append_eq {s t u : String} (h : s ++ t = u) : s.toList <+: u.toList := by
  rw [← h, String.toList_append]
  exact List.prefix_append _ _

/-- A discovery excludes every text of its list that has no comma. -/
theorem discover_excludes {cidr : String} {excludedIps : List String} {i : Invocation}
    (h : discover settings cidr excludedIps = .ok i) {e : String} (he : e ∈ excludedIps)
    (hcomma : ',' ∉ e.toList) : e ∈ excludeList i := by
  obtain ⟨text, -, h⟩ := bind_eq_ok.mp h
  cases h
  have hne : excludedIps ≠ [] := List.ne_nil_of_mem he
  have htiming : "-T" ++ toString settings.nmapTiming ≠ "--exclude" :=
    fun h => absurd (prefix_of_append_eq h) (by decide)
  have hoptions : "--exclude" ∉ ["nmap", "-sn", "-PR", "-PE", "-PA21,22,23,80,443,3389",
      "-T" ++ toString settings.nmapTiming, "-oX", "-"] := by
    intro hmem
    have hparts : "--exclude" ∈ ["nmap", "-sn", "-PR", "-PE", "-PA21,22,23,80,443,3389"] ++
        ("-T" ++ toString settings.nmapTiming) :: ["-oX", "-"] := hmem
    rcases List.mem_append.mp hparts with hbefore | hrest
    · exact absurd hbefore (by decide)
    · rcases List.mem_cons.mp hrest with heq | hafter
      · exact htiming heq.symm
      · exact absurd hafter (by decide)
  have harg : excludeArg (["nmap", "-sn", "-PR", "-PE", "-PA21,22,23,80,443,3389",
      "-T" ++ toString settings.nmapTiming, "-oX", "-"] ++
      (if excludedIps = [] then [] else ["--exclude", ",".intercalate excludedIps]) ++ [text]) =
        some (",".intercalate excludedIps) := by
    rw [List.append_assoc, excludeArg_append hoptions, if_neg hne]
    rfl
  have hmem : e.toList ∈ ((",".intercalate excludedIps).toList).splitOn ',' := by
    rw [String.toList_intercalate]
    exact mem_splitOn_intercalate (List.mem_map_of_mem he) hcomma
  simp only [excludeList, harg]
  exact List.mem_map.mpr ⟨e.toList, hmem, String.ofList_toList⟩

/-! ## Where an invocation comes from -/

/-- A discovery probes addresses of its network that its own list does not name. -/
theorem probes_of_discover {cidr : String} {excludedIps : List String} {i : Invocation}
    (h : discover settings cidr excludedIps = .ok i) {v : Version} {x : ℕ} (hp : Probes T i v x) :
    (∃ n, T.network false cidr = some n ∧ n.version = v ∧ x ∈ n.addresses) ∧
      ∀ e ∈ excludedIps, ',' ∉ e.toList → ∀ a, T.address e = some a → a.version = v →
        a.value ≠ x := by
  obtain ⟨⟨text, addresses, htarget, hdenotes, hx⟩, hexcluded⟩ := hp
  refine ⟨?_, fun e he hcomma => hexcluded e (discover_excludes h he hcomma)⟩
  obtain ⟨canonical, hcanonical, h⟩ := bind_eq_ok.mp h
  cases h
  obtain ⟨n, hread, rfl, -⟩ := authorizeScanNetwork_iff.mp hcanonical
  have htext : some (T.networkText n) = some text := (List.getLast?_concat).symm.trans htarget
  cases htext
  rw [denotation_networkText hread] at hdenotes
  cases hdenotes
  exact ⟨n, hread, rfl, hx⟩

/-- A service scan probes the host that it was asked for. -/
theorem probes_of_serviceScan {ip : String} {i : Invocation} (h : serviceScan settings ip = .ok i)
    {v : Version} {x : ℕ} (hp : Probes T i v x) :
    ∃ a, T.address ip = some a ∧ a.version = v ∧ a.value = x := by
  obtain ⟨⟨text, addresses, htarget, hdenotes, hx⟩, -⟩ := hp
  obtain ⟨canonical, hcanonical, h⟩ := bind_eq_ok.mp h
  cases h
  obtain ⟨a, hread, rfl, -⟩ := authorizeScanHost_ok hcanonical
  have htext : some (T.addressText a) = some text := htarget
  cases htext
  rw [denotation_addressText hread] at hdenotes
  cases hdenotes
  exact ⟨a, hread, rfl, (Finset.mem_singleton.mp hx).symm⟩

/-- Every invocation of the loop is the discovery of one of its networks. -/
theorem mem_scanAll {fate : ScanNetwork → Fate} {networks : List ScanNetwork} {i : Invocation}
    (h : i ∈ scanAll settings fate networks) :
    ∃ row ∈ networks, discover settings row.cidr row.excludedIps = .ok i := by
  induction networks with
  | nil => cases h
  | cons row networks ih =>
    have hlater : i ∈ scanAll settings fate networks →
        ∃ row' ∈ row :: networks, discover settings row'.cidr row'.excludedIps = .ok i := by
      intro h
      obtain ⟨row', hrow', hi⟩ := ih h
      exact ⟨row', List.mem_cons_of_mem row hrow', hi⟩
    have hstarted : i ∈ (discover settings row.cidr row.excludedIps).toOption.toList →
        ∃ row' ∈ row :: networks, discover settings row'.cidr row'.excludedIps = .ok i :=
      fun h => ⟨row, List.mem_cons_self, mem_toOption h⟩
    unfold scanAll at h
    split at h
    · exact hlater h
    · cases h
    · dsimp only at h
      split at h
      · exact (List.mem_append.mp h).elim hstarted hlater
      · cases h
      · exact hstarted h

theorem probedForARow (rows : Networks) (e : Event T) : ProbedForARow T rows e := by
  intro i hi v x hp
  cases e with
  | addNetwork settings body => cases hi
  | networkScan settings fate order =>
    obtain ⟨row, hrow, hdiscover⟩ := mem_scanAll hi
    obtain ⟨hmem, henabled⟩ := List.mem_filter.mp hrow
    obtain ⟨hcovers, hnot⟩ := probes_of_discover hdiscover hp
    refine .inr ⟨row, (order.2 rows.rows).mem_iff.mp hmem, henabled, ?_, hcovers⟩
    rintro ⟨e, he, hcomma, a, ha, hversion, hvalue⟩
    exact hnot e he hcomma a ha hversion hvalue
  | serviceScan settings ip =>
    obtain ⟨a, ha, hversion, hvalue⟩ := probes_of_serviceScan (mem_toOption hi) hp
    exact .inl ⟨settings, ip, a, rfl, ha, hversion, hvalue⟩

/-- In every run an excluded address is probed only by a service scan of it or by the discovery
of an enabled network that covers it and does not list it itself. -/
theorem exclusions_hold_for_their_row (T : Texts) (rows : Networks) (events : List (Event T)) :
    Along step (ProbedForARow T) rows events := by
  induction events generalizing rows with
  | nil => trivial
  | cons e events ih => exact ⟨probedForARow rows e, ih (step rows e)⟩

/-! ## What is stored -/

/-- The row is a network and every exclusion is one of its addresses. -/
def WellFormed (row : ScanNetwork) : Prop :=
  ∃ n, T.network true row.cidr = some n ∧
    ∀ e ∈ row.excludedIps, ∃ a, T.address e = some a ∧ n.contains a = true

theorem mem_sortedSet {values : List String} {s : String} : s ∈ sortedSet values ↔ s ∈ values := by
  rw [sortedSet, List.mem_mergeSort, List.mem_dedup]

theorem validateExclusion_ok {n : Network} {value text : String}
    (h : validateExclusion T n value = .ok text) :
    ∃ a, T.address text = some a ∧ n.contains a = true := by
  unfold validateExclusion at h
  split at h
  · cases h
  · rename_i a ha
    obtain ⟨hbelongs, h⟩ := guard_eq_ok.mp h
    cases h
    exact ⟨a, T.address_text ha, by simpa using (not_or.mp hbelongs).2⟩

/-- A validated body is canonical: its range is a network that contains what it excludes. -/
theorem validate_ok {body valid : ScanNetworkCreate} (h : body.validate T = .ok valid) :
    ∃ n, T.network true valid.cidr = some n ∧ valid.cidr = T.networkText n ∧
      ∀ e ∈ valid.excludedIps, ∃ a, T.address e = some a ∧ n.contains a = true := by
  obtain ⟨cidr, hcidr, h⟩ := bind_eq_ok.mp h
  simp only [throw_eq_error, error_bind, pure_eq_ok, guard_eq_ok] at h
  obtain ⟨-, -, -, h⟩ := h
  unfold validateCidr at hcidr
  split at hcidr
  · cases hcidr
  · rename_i n hn
    cases hcidr
    have hread : T.network true (T.networkText n) = some n := T.network_text hn true
    simp only [hread] at h
    obtain ⟨normalized, hloop, h⟩ := bind_eq_ok.mp h
    cases h
    refine ⟨n, hread, rfl, fun e he => ?_⟩
    obtain ⟨value, -, hvalue⟩ := (mem_of_mapM hloop).mp (mem_sortedSet.mp he)
    exact validateExclusion_ok hvalue

theorem addNetwork_ok {rows rows' : Networks} {body : ScanNetworkCreate}
    (h : addNetwork settings rows body = .ok rows') {row : ScanNetwork} (hrow : row ∈ rows'.rows) :
    row ∈ rows.rows ∨ WellFormed (T := T) row := by
  unfold addNetwork at h
  split at h
  · cases h
  · rename_i valid hvalid
    obtain ⟨n, hread, hcidr, hexcluded⟩ := validate_ok hvalid
    split at h
    · cases h
    · cases h
    · rename_i canonical hauthorized
      obtain ⟨-, h⟩ := guard_eq_ok.mp h
      split at h
      · cases h
      · rename_i stored hinsert
        cases h
        rcases (Table.mem_insert? hinsert).mp hrow with hold | rfl
        · exact .inl hold
        · right
          obtain ⟨n', hread', rfl, -⟩ := authorizeScanNetwork_iff.mp hauthorized
          have hsame : n' = n := by
            rw [hcidr, T.network_text hread false] at hread'
            exact (Option.some.inj hread').symm
          rw [hsame, ← hcidr]
          exact ⟨n, hread, hexcluded⟩

/-- Whatever is added, every stored row stays well formed. -/
theorem wellFormed_run {rows : Networks} (h : ∀ row ∈ rows.rows, WellFormed (T := T) row)
    (events : List (Event T)) : ∀ row ∈ (run step rows events).rows, WellFormed (T := T) row := by
  refine run_invariant (fun rows : Networks => ∀ row ∈ rows.rows, WellFormed (T := T) row) ?_ h
    events
  intro rows e hrows row hrow
  cases e with
  | addNetwork settings body =>
    simp only [step] at hrow
    split at hrow
    · rename_i rows' hadd
      exact (addNetwork_ok hadd hrow).elim (hrows row) id
    · exact hrows row hrow
  | networkScan settings fate order => exact hrows row hrow
  | serviceScan settings ip => exact hrows row hrow

/-! ## Two rows for one address -/

/-- The campus may be scanned as a whole. -/
def campusWide : Settings campusTexts where
  scanNetworks := ["10.20.0.0/16"]
  maxScanHosts := 65536
  valid := by decide
  maxScanHosts_pos := by decide

/-- The campus without the printer, the segment of the printer, and the discovery of both. -/
def nested : List (Event campusTexts) :=
  [.addNetwork campusWide
      { cidr := "10.20.0.0/16", name := "campus", excludedIps := ["10.20.30.7"] },
    .addNetwork campusWide { cidr := "10.20.30.7/28", name := "segment" },
    .networkScan campusWide (fun _ => .goesOn) ⟨fun rows => rows, List.Perm.refl⟩]

theorem excluded_address_probed :
    ¬ Along step (NeverProbed campusTexts) Table.empty nested := by
  rintro ⟨-, -, hscan, -⟩
  have hnone : excludeList ⟨["nmap", "-sn", "-PR", "-PE", "-PA21,22,23,80,443,3389", "-T4", "-oX",
    "-", "10.20.30.0/28"]⟩ = [] := by decide
  refine hscan ⟨["nmap", "-sn", "-PR", "-PE", "-PA21,22,23,80,443,3389", "-T4", "-oX", "-",
    "10.20.30.0/28"]⟩ ?_ { cidr := "10.20.0.0/16", excludedIps := ["10.20.30.7"] } ?_ rfl .v4
    169090567 ⟨"10.20.30.7", by decide, printer, rfl, rfl, rfl⟩ ⟨?_, ?_⟩
  · decide +kernel
  · decide +kernel
  · exact ⟨"10.20.30.0/28", segment.addresses, rfl, rfl, by decide⟩
  · intro e he
    rw [hnone] at he
    exact absurd he List.not_mem_nil

end Kepryx.ScanExclusions
