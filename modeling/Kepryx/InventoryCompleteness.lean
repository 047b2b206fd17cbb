import Mathlib.Data.List.TakeDrop
import Kepryx.Connectors
import Kepryx.IntegrationSync

/-!
# A sync that succeeds has read the whole source

For each connector: when `fetch_inventory` either raises or returns a record for everything that
its provider holds. What a query leaves out, a skipped answer and a swallowed error are silent,
so the sync records the success of a partial inventory.
-/
namespace Kepryx.InventoryCompleteness
open Kepryx.Models Kepryx.Results Kepryx.Tables Kepryx.Runs Kepryx.Transactions
open Kepryx.Connectors Kepryx.IntegrationSync
open Kepryx.JsonText (Json)

/-- A request, and the rest if its answer is a success. -/
theorem raiseForStatus_bind_eq_ok {α : Type} {a : Answer} {rest : Except FetchError α} {r : α} :
    (a.raiseForStatus >>= fun _ => rest) = .ok r ↔ a.isSuccess ∧ rest = .ok r := by
  cases a with
  | failed => simp [Answer.raiseForStatus, Answer.isSuccess]
  | status code =>
    simp only [Answer.raiseForStatus]
    split_ifs with h
    · simp [h]
    · simp [h]

theorem truthy_entry {value : Option String} : (entry value).truthy = value.filter (· ≠ "") := by
  cases value <;> rfl

theorem entry_eq_value {value : Option String} {text : String} :
    entry value = .value text ↔ value = some text := by
  cases value <;> simp [entry]

theorem textJson_injective : Function.Injective textJson := by
  intro x y h
  cases x <;> cases y <;> simp_all [textJson]

/-! ## CrowdStrike -/

namespace CrowdStrike
open Kepryx.Connectors.CrowdStrike
variable (S : CrowdStrike)

/-- The devices whose identifiers a query returns. -/
def firstDevices : List Device := S.devices.rows.take 5000

/-- The batch that starts at a position. -/
def batch (start : ℕ) : List Device := ((firstDevices S).drop start).take 100

/-- A record for every named device. -/
def Whole (records : List Record) : Prop :=
  ∀ d ∈ S.devices.rows, d.hostname.truthy.isSome → deviceRecord d ∈ records

/-- No request fails and no description is null. -/
structure Readable : Prop where
  token : S.token.isSuccess
  ids : S.ids.isSuccess
  detail : ∀ batchStart ∈ batchStarts (firstDevices S).length, (S.detail batchStart).isSuccess
  description : ∀ d ∈ firstDevices S, d.productTypeDesc ≠ .null

/-- Beyond the first 5000 devices none has a name. -/
def Covered : Prop := Readable S → ∀ d ∈ S.devices.rows.drop 5000, d.hostname.truthy = none

variable {S}

theorem flatten_batches {α : Type*} (xs : List α) :
    ((batchStarts xs.length).map fun start => (xs.drop start).take 100).flatten = xs := by
  have hprefix : ∀ k, (((List.range k).map fun i => 100 * i).map fun start =>
      (xs.drop start).take 100).flatten = xs.take (100 * k) := by
    intro k
    induction k with
    | zero => rfl
    | succ k ih =>
      rw [List.range_succ, List.map_append, List.map_append, List.flatten_append, ih, Nat.mul_succ,
        List.take_add]
      simp
  rw [batchStarts, hprefix]
  exact List.take_of_length_le (by omega)

theorem entities_map {devices : List Device} (h : devices ⊆ S.devices.rows) :
    S.entities (devices.map Device.deviceId) = devices := by
  rw [entities, List.filterMap_map]
  have hfind : ∀ d ∈ devices, (S.devices.find ∘ Device.deviceId) d = some d := fun d hd =>
    Table.find_key (h hd)
  rw [List.filterMap_congr hfind, List.filterMap_some]

theorem normalizeDevice_eq_ok {d : Device} {r : Record} :
    normalizeDevice d = .ok r ↔ d.productTypeDesc ≠ .null ∧ deviceRecord d = r := by
  rw [normalizeDevice, guard_eq_ok, Except.ok.injEq]

theorem fetchBatch_eq (start : ℕ) :
    S.fetchBatch (S.deviceIds 5000) start = (do
      (S.detail start).raiseForStatus
      (batch S start).mapM normalizeDevice) := by
  have hbatch : ((S.deviceIds 5000).drop start).take 100 =
      (batch S start).map Device.deviceId := by
    rw [deviceIds, ← List.map_take, ← List.map_drop, ← List.map_take]
    rfl
  have hsub : batch S start ⊆ S.devices.rows := fun d hd =>
    List.mem_of_mem_take (List.mem_of_mem_drop (List.mem_of_mem_take hd))
  rw [fetchBatch, hbatch, entities_map hsub]

theorem length_deviceIds : (S.deviceIds 5000).length = (firstDevices S).length := by
  simp [deviceIds, firstDevices]

theorem mem_batch_iff {d : Device} : d ∈ firstDevices S ↔
    ∃ start ∈ batchStarts (firstDevices S).length, d ∈ batch S start := by
  conv_lhs => rw [← flatten_batches (firstDevices S)]
  simp [batch]

theorem fetchBatch_eq_ok {start : ℕ} {records : List Record} :
    S.fetchBatch (S.deviceIds 5000) start = .ok records ↔
      (S.detail start).isSuccess ∧ (batch S start).mapM normalizeDevice = .ok records := by
  rw [fetchBatch_eq]
  exact raiseForStatus_bind_eq_ok

theorem fetchInventory_eq_ok {records : List Record} :
    S.fetchInventory = .ok records ↔ S.token.isSuccess ∧ S.ids.isSuccess ∧
      ∃ assets, (batchStarts (firstDevices S).length).mapM (S.fetchBatch (S.deviceIds 5000)) =
          .ok assets ∧
        assets.flatten.filter (fun a => a.data.name.truthy.isSome) = records := by
  unfold fetchInventory
  rw [raiseForStatus_bind_eq_ok, raiseForStatus_bind_eq_ok]
  simp only [length_deviceIds, bind_eq_ok, pure_eq_ok, Except.ok.injEq]

/-- A fetch goes through exactly when everything can be read. -/
theorem fetch_ok_iff : (∃ records, S.fetchInventory = .ok records) ↔ Readable S := by
  have hbatches : (∃ assets, (batchStarts (firstDevices S).length).mapM
      (S.fetchBatch (S.deviceIds 5000)) = .ok assets) ↔
        (∀ start ∈ batchStarts (firstDevices S).length, (S.detail start).isSuccess) ∧
          ∀ d ∈ firstDevices S, d.productTypeDesc ≠ .null := by
    simp only [exists_mapM_eq_ok, fetchBatch_eq_ok, exists_and_left, normalizeDevice_eq_ok,
      exists_eq', and_true, mem_batch_iff]
    constructor
    · intro h
      exact ⟨fun start hstart => (h start hstart).1,
        fun d ⟨start, hstart, hd⟩ => (h start hstart).2 d hd⟩
    · rintro ⟨hdetail, hdescription⟩ start hstart
      exact ⟨hdetail start hstart, fun d hd => hdescription d ⟨start, hstart, hd⟩⟩
  constructor
  · rintro ⟨records, h⟩
    obtain ⟨htoken, hids, assets, hassets, -⟩ := fetchInventory_eq_ok.mp h
    obtain ⟨hdetail, hdescription⟩ := hbatches.mp ⟨assets, hassets⟩
    exact ⟨htoken, hids, hdetail, hdescription⟩
  · rintro ⟨htoken, hids, hdetail, hdescription⟩
    obtain ⟨assets, hassets⟩ := hbatches.mpr ⟨hdetail, hdescription⟩
    exact ⟨_, fetchInventory_eq_ok.mpr ⟨htoken, hids, assets, hassets, rfl⟩⟩

theorem truthy_name (d : Device) : (deviceRecord d).data.name.truthy = d.hostname.truthy :=
  truthy_entry

/-- What a fetch returns: the records of the named devices among the first. -/
theorem mem_fetch {records : List Record} (h : S.fetchInventory = .ok records) {r : Record} :
    r ∈ records ↔ ∃ d ∈ firstDevices S, d.hostname.truthy.isSome ∧ deviceRecord d = r := by
  have hreadable := fetch_ok_iff.mp ⟨records, h⟩
  obtain ⟨-, -, assets, hassets, rfl⟩ := fetchInventory_eq_ok.mp h
  have hmem : r ∈ assets.flatten ↔ ∃ d ∈ firstDevices S, deviceRecord d = r := by
    constructor
    · intro hr
      obtain ⟨records, hrecords, hr⟩ := List.mem_flatten.mp hr
      obtain ⟨start, hstart, hbatch⟩ := (mem_of_mapM hassets).mp hrecords
      obtain ⟨d, hd, hnormal⟩ := (mem_of_mapM (fetchBatch_eq_ok.mp hbatch).2).mp hr
      exact ⟨d, mem_batch_iff.mpr ⟨start, hstart, hd⟩, (normalizeDevice_eq_ok.mp hnormal).2⟩
    · rintro ⟨d, hd, rfl⟩
      obtain ⟨start, hstart, hbatch⟩ := mem_batch_iff.mp hd
      obtain ⟨records, hrecords⟩ := exists_mapM_eq_ok.mp ⟨assets, hassets⟩ start hstart
      refine List.mem_flatten.mpr ⟨records, (mem_of_mapM hassets).mpr ⟨start, hstart, hrecords⟩, ?_⟩
      have hnormal := normalizeDevice_eq_ok.mpr ⟨hreadable.description d hd, rfl⟩
      exact (mem_of_mapM (fetchBatch_eq_ok.mp hrecords).2).mpr ⟨d, hbatch, hnormal⟩
  rw [List.mem_filter, hmem]
  constructor
  · rintro ⟨⟨d, hd, rfl⟩, hname⟩
    rw [truthy_name] at hname
    exact ⟨d, hd, hname, rfl⟩
  · rintro ⟨d, hd, hname, rfl⟩
    exact ⟨⟨d, hd, rfl⟩, by rwa [truthy_name]⟩

theorem deviceId_of_record {d d' : Device} (h : deviceRecord d = deviceRecord d') :
    d.deviceId = d'.deviceId := by
  have hattrs := congrArg Record.attrs h
  simp only [deviceRecord, List.cons.injEq, Prod.mk.injEq, Json.str.injEq] at hattrs
  exact hattrs.1.2

theorem whole_iff :
    (∀ records, S.fetchInventory = .ok records → Whole S records) ↔ Covered S := by
  have hsplit : S.devices.rows = firstDevices S ++ S.devices.rows.drop 5000 :=
    (List.take_append_drop 5000 _).symm
  constructor
  · intro h hreadable d hd
    by_contra hname
    obtain ⟨records, hfetch⟩ := fetch_ok_iff.mpr hreadable
    have hrow : d ∈ S.devices.rows := List.mem_of_mem_drop hd
    have hrecord := h records hfetch d hrow (Option.isSome_iff_ne_none.mpr hname)
    obtain ⟨d', hd', -, heq⟩ := (mem_fetch hfetch).mp hrecord
    -- the record of another device has another identifier
    have hsame : d' = d :=
      S.devices.eq_of_key (List.mem_of_mem_take hd') hrow (deviceId_of_record heq)
    have hdisjoint := (List.nodup_append.mp (hsplit ▸ S.devices.nodup.of_map)).2.2
    exact hdisjoint d' hd' d hd hsame
  · intro h records hfetch d hd hname
    rw [hsplit] at hd
    rcases List.mem_append.mp hd with hd | hd
    · exact (mem_fetch hfetch).mpr ⟨d, hd, hname, rfl⟩
    · rw [h (fetch_ok_iff.mp ⟨records, hfetch⟩) d hd] at hname
      cases hname

end CrowdStrike

/-! ## Infoblox -/

namespace Infoblox
open Kepryx.Connectors.Infoblox
variable (S : Infoblox)

/-- `binding_state == "ACTIVE"` -/
def activeLeases : List Lease := S.leases.filter fun lease => lease.bindingState = some "ACTIVE"

/-- A record for every active lease. -/
def Whole (records : List Record) : Prop := ∀ lease ∈ activeLeases S, leaseRecord lease ∈ records

/-- At most 5000 leases are active, unless those beyond have the fields of one of the first. -/
def Covered : Prop :=
  S.query.isSuccess → ∀ lease ∈ (activeLeases S).drop 5000, lease ∈ (activeLeases S).take 5000

variable {S}

theorem fetch_eq_ok {records : List Record} : S.fetchInfoblox = .ok records ↔
    S.query.isSuccess ∧ ((activeLeases S).take 5000).map leaseRecord = records := by
  have hfilter : (S.search 5000 "ACTIVE").filter (fun lease => lease.bindingState = some "ACTIVE") =
      (activeLeases S).take 5000 :=
    List.filter_eq_self.mpr fun lease hlease =>
      (List.mem_filter.mp (List.mem_of_mem_take hlease)).2
  unfold fetchInfoblox
  rw [raiseForStatus_bind_eq_ok]
  simp only [hfilter, pure_eq_ok, Except.ok.injEq]

theorem leaseRecord_injective : Function.Injective leaseRecord := by
  intro a b h
  have hentry : Function.Injective entry := by
    intro x y hxy
    cases x <;> cases y <;> simp_all [entry]
  have hip := hentry (congrArg (fun r : Record => r.data.ip) h)
  have hmac := hentry (congrArg (fun r : Record => r.data.mac) h)
  have hhostname := hentry (congrArg (fun r : Record => r.data.hostname) h)
  have hattrs := congrArg Record.attrs h
  simp only [leaseRecord, List.cons.injEq, Prod.mk.injEq, true_and, and_true] at hattrs
  obtain ⟨hstarts, hends, hbinding⟩ := hattrs
  cases a
  cases b
  simp only [Lease.mk.injEq]
  exact ⟨hip, hmac, hhostname, textJson_injective hbinding, textJson_injective hstarts,
    textJson_injective hends⟩

theorem whole_iff :
    (∀ records, S.fetchInfoblox = .ok records → Whole S records) ↔ Covered S := by
  simp only [fetch_eq_ok, Whole, Covered]
  constructor
  · intro h hquery lease hlease
    have hrecord := h _ ⟨hquery, rfl⟩ lease (List.mem_of_mem_drop hlease)
    exact (List.mem_map_of_injective leaseRecord_injective).mp hrecord
  · rintro h records ⟨hquery, rfl⟩ lease hlease
    refine List.mem_map_of_mem ?_
    rw [← List.take_append_drop 5000 (activeLeases S)] at hlease
    rcases List.mem_append.mp hlease with hlease | hlease
    · exact hlease
    · exact h hquery lease hlease

end Infoblox

/-! ## Nessus -/

namespace Nessus
variable (S : Nessus)

/-- The scans that the loop looks at. -/
def completed : List Scan := S.scans.filter fun scan => scan.status = some "completed"

/-- The hosts that the details of a scan contribute. -/
def answeredHosts (scan : Scan) : List NessusHost :=
  if scan.status = some "completed" ∧ scan.detail = .status 200 then scan.hosts else []

/-- The host whose address stands under a key: the first answered one with it. -/
def firstOfKey (key : String) : Option NessusHost :=
  (S.scans.flatMap answeredHosts).find? fun host => host.key = some key

/-- A record for every host of every completed scan, distinguished by its address. -/
def Whole (records : List Record) : Prop :=
  ∀ scan ∈ completed S, ∀ host ∈ scan.hosts, ∀ ip ∈ host.hostIp, ip ≠ "" →
    ∃ r ∈ records, r.data.ip = .value ip

/-- The list of scans is read, and no request for details raises. -/
structure Readable : Prop where
  list : S.list.isSuccess
  detail : ∀ scan ∈ completed S, scan.detail ≠ .failed

/-- Every address of a completed scan is that of the first answered host under some key. -/
def Covered : Prop := Readable S →
  ∀ scan ∈ completed S, ∀ host ∈ scan.hosts, ∀ ip ∈ host.hostIp, ip ≠ "" →
    ∃ key, ∃ first ∈ firstOfKey S key, first.hostIp = some ip

variable {S}

/-- The host that stands under a key. -/
def hostUnder (assetsMap : Table Found.key) (key : String) : Option NessusHost :=
  (assetsMap.find key).map Found.host

theorem hostUnder_insert {assetsMap assetsMap' : Table Found.key} {f : Found}
    (h : assetsMap.insert? f = some assetsMap') (key : String) :
    hostUnder assetsMap' key =
      (hostUnder assetsMap key).or (if f.key = key then some f.host else none) := by
  rw [hostUnder, hostUnder, Table.find_insert? h]
  by_cases hkey : f.key = key
  · have hfree : assetsMap.find key = none := hkey ▸ (Table.insert?_eq_some h).2
    simp [hkey, hfree]
  · simp [hkey]

/-- One more scan of a host changes no host. -/
theorem hostUnder_put {assetsMap : Table Found.key} {f g : Found}
    (hfind : assetsMap.find g.key = some f) (hhost : g.host = f.host) (key : String) :
    hostUnder (assetsMap.put g) key = hostUnder assetsMap key := by
  unfold hostUnder
  by_cases hkey : key = g.key
  · rw [hkey, Table.find_put_self (by rw [hfind]; rfl), hfind]
    simp [hhost]
  · rw [Table.find_put_of_ne hkey]

/-- A host takes its key when nobody has it. -/
theorem hostUnder_addHost (scanId : ℕ) (assetsMap : Table Found.key) (host : NessusHost)
    (key : String) : hostUnder (addHost scanId assetsMap host) key =
      (hostUnder assetsMap key).or (if host.key = some key then some host else none) := by
  unfold addHost
  cases hkey : host.key with
  | none => simp
  | some own =>
    cases hfind : assetsMap.find own with
    | none =>
      obtain ⟨assetsMap', h⟩ : ∃ t, assetsMap.insert? ⟨own, host, [scanId]⟩ = some t := by
        refine Option.ne_none_iff_exists'.mp fun hnone => ?_
        rw [Table.insert?_eq_none, hfind] at hnone
        cases hnone
      simp only [hfind, h, Option.getD_some, hostUnder_insert h, Option.some.injEq]
    | some found =>
      obtain rfl := Table.find_some_key hfind
      simp only [hfind]
      rw [hostUnder_put (g := { found with scanIds := found.scanIds ++ [scanId] }) hfind rfl]
      by_cases hown : found.key = key
      · rw [← hown, hostUnder, hfind]
        simp
      · simp [hown]

theorem hostUnder_addHosts (scanId : ℕ) (hosts : List NessusHost) (assetsMap : Table Found.key)
    (key : String) : hostUnder (hosts.foldl (addHost scanId) assetsMap) key =
      (hostUnder assetsMap key).or (hosts.find? fun host => host.key = some key) := by
  induction hosts generalizing assetsMap with
  | nil => simp
  | cons host hosts ih =>
    rw [List.foldl_cons, ih, hostUnder_addHost, Option.or_assoc, List.find?_cons]
    by_cases hkey : host.key = some key
    · simp [hkey]
    · simp [hkey]

/-- What a scan adds when its request does not raise. -/
def addAnswered (assetsMap : Table Found.key) (scan : Scan) : Table Found.key :=
  (answeredHosts scan).foldl (addHost scan.id) assetsMap

theorem hostUnder_addScans (scans : List Scan) (assetsMap : Table Found.key) (key : String) :
    hostUnder (scans.foldl addAnswered assetsMap) key =
      (hostUnder assetsMap key).or
        ((scans.flatMap answeredHosts).find? fun host => host.key = some key) := by
  induction scans generalizing assetsMap with
  | nil => simp
  | cons scan scans ih =>
    rw [List.foldl_cons, ih, addAnswered, hostUnder_addHosts, List.flatMap_cons,
      List.find?_append, Option.or_assoc]

theorem addScans_eq_ok {scans : List Scan} {assetsMap assetsMap' : Table Found.key} :
    scans.foldlM addScan assetsMap = .ok assetsMap' ↔
      (∀ scan ∈ scans, scan.status = some "completed" → scan.detail ≠ .failed) ∧
        assetsMap' = scans.foldl addAnswered assetsMap := by
  refine foldlM_eq_ok_iff ?_ ?_
  · intro scan hdetail assetsMap
    unfold addScan addAnswered answeredHosts
    by_cases hstatus : scan.status = some "completed"
    · cases hanswer : scan.detail with
      | failed => exact absurd hanswer (hdetail hstatus)
      | status code =>
        by_cases hcode : code = 200
        · simp [hstatus, hcode]
        · simp [hstatus, hcode]
    · simp [hstatus]
  · intro scan hdetail assetsMap
    obtain ⟨hstatus, hfailed⟩ := Classical.not_imp.mp hdetail
    exact ⟨.transport, by simp [addScan, hstatus, not_not.mp hfailed]⟩

theorem fetch_eq_ok {records : List Record} : S.fetchInventory = .ok records ↔
    Readable S ∧ (S.scans.foldl addAnswered .empty).rows.map Found.record = records := by
  unfold Connectors.Nessus.fetchInventory
  rw [raiseForStatus_bind_eq_ok]
  simp only [bind_eq_ok, addScans_eq_ok, pure_eq_ok, Except.ok.injEq]
  constructor
  · rintro ⟨hlist, assetsMap, ⟨hdetail, rfl⟩, hrecords⟩
    refine ⟨⟨hlist, fun scan hscan => ?_⟩, hrecords⟩
    obtain ⟨hmem, hstatus⟩ := List.mem_filter.mp hscan
    exact hdetail scan hmem (by simpa using hstatus)
  · rintro ⟨⟨hlist, hdetail⟩, hrecords⟩
    refine ⟨hlist, _, ⟨fun scan hscan hstatus => ?_, rfl⟩, hrecords⟩
    exact hdetail scan (List.mem_filter.mpr ⟨hscan, by simpa using hstatus⟩)

/-- The addresses of the records are those of the hosts that came first under their keys. -/
theorem exists_record_iff {ip : String} :
    (∃ r ∈ (S.scans.foldl addAnswered .empty).rows.map Found.record, r.data.ip = .value ip) ↔
      ∃ key, ∃ first ∈ firstOfKey S key, first.hostIp = some ip := by
  have hunder : ∀ key, hostUnder (S.scans.foldl addAnswered .empty) key = firstOfKey S key := by
    intro key
    rw [hostUnder_addScans]
    rfl
  simp only [← hunder, hostUnder, Option.mem_def, Option.map_eq_some_iff, Table.find_eq_some]
  constructor
  · rintro ⟨r, hr, hip⟩
    obtain ⟨found, hfound, rfl⟩ := List.mem_map.mp hr
    exact ⟨found.key, found.host, ⟨found, ⟨hfound, rfl⟩, rfl⟩, entry_eq_value.mp hip⟩
  · rintro ⟨key, first, ⟨found, ⟨hfound, -⟩, rfl⟩, hip⟩
    exact ⟨found.record, List.mem_map_of_mem hfound, entry_eq_value.mpr hip⟩

theorem whole_iff :
    (∀ records, S.fetchInventory = .ok records → Whole S records) ↔ Covered S := by
  simp only [fetch_eq_ok, Whole, Covered, ← exists_record_iff]
  constructor
  · intro h hreadable
    exact h _ ⟨hreadable, rfl⟩
  · rintro h records ⟨hreadable, rfl⟩
    exact h hreadable

end Nessus

/-! ## AWS -/

section Pages
variable {α : Type} (failure : ℕ → Option AwsFailure) (pages : List (List α))

/-- No request for a page fails. -/
def AllPages : Prop := ∀ n < pages.length, failure n = none

/-- What is no `ClientError` comes after one. -/
def OnlyClientErrors : Prop :=
  ∀ n < pages.length, failure n = some .other → ∃ k < n, failure k = some .clientError

/-- The element stands on a page that is read. -/
def OnReadPage (x : α) : Prop := ∃ n, ∃ page ∈ pages[n]?, x ∈ page ∧ ∀ k ≤ n, failure k = none

variable {failure pages}

theorem paginate_eq_none : (paginate failure pages).2 = none ↔ AllPages failure pages := by
  unfold AllPages
  induction pages generalizing failure with
  | nil => simp [paginate]
  | cons page pages ih =>
    cases hfirst : failure 0 with
    | some e =>
      simp only [paginate, hfirst]
      exact iff_of_false (by simp) fun h => by simp [h 0 (by simp)] at hfirst
    | none =>
      simp only [paginate, hfirst, ih, List.length_cons, Nat.forall_lt_succ_left, true_and]

theorem paginate_ne_other :
    (paginate failure pages).2 ≠ some .other ↔ OnlyClientErrors failure pages := by
  unfold OnlyClientErrors
  induction pages generalizing failure with
  | nil => simp [paginate]
  | cons page pages ih =>
    cases hfirst : failure 0 with
    | some e =>
      cases e with
      | clientError =>
        simp only [paginate, hfirst]
        refine iff_of_true (by simp) fun n _ hother => ⟨0, ?_, hfirst⟩
        exact Nat.pos_of_ne_zero fun h => by simp [h, hfirst] at hother
      | other =>
        simp only [paginate, hfirst]
        exact iff_of_false (by simp) fun h => by simpa using h 0 (by simp) hfirst
    | none =>
      simp only [paginate, hfirst, ih, List.length_cons, Nat.forall_lt_succ_left,
        Nat.exists_lt_succ_left, reduceCtorEq, false_implies, true_and, false_or]

theorem mem_paginate {x : α} : x ∈ (paginate failure pages).1 ↔ OnReadPage failure pages x := by
  unfold OnReadPage
  induction pages generalizing failure with
  | nil => simp [paginate]
  | cons page pages ih =>
    cases hfirst : failure 0 with
    | some e =>
      simp only [paginate, hfirst]
      refine iff_of_false (by simp) ?_
      rintro ⟨n, -, -, -, hread⟩
      simp [hread 0 (Nat.zero_le n)] at hfirst
    | none =>
      simp only [paginate, hfirst, List.mem_append, ih]
      constructor
      · rintro (hx | ⟨n, p, hp, hx, hread⟩)
        · exact ⟨0, page, rfl, hx, fun k hk => Nat.le_zero.mp hk ▸ hfirst⟩
        · refine ⟨n + 1, p, hp, hx, fun k hk => ?_⟩
          cases k with
          | zero => exact hfirst
          | succ k => exact hread k (Nat.le_of_succ_le_succ hk)
      · rintro ⟨n, p, hp, hx, hread⟩
        cases n with
        | zero =>
          cases hp
          exact .inl hx
        | succ n => exact .inr ⟨n, p, hp, hx, fun k hk => hread (k + 1) (Nat.succ_le_succ hk)⟩

theorem paginate_of_allPages (h : AllPages failure pages) :
    (paginate failure pages).1 = pages.flatten := by
  induction pages generalizing failure with
  | nil => rfl
  | cons page pages ih =>
    have hfirst : failure 0 = none := h 0 (by simp)
    have htail : AllPages (fun n => failure (n + 1)) pages := fun n hn =>
      h (n + 1) (by simpa using hn)
    have hrest := ih htail
    simp only [paginate, hfirst, hrest, List.flatten_cons]

end Pages

namespace Aws
open Kepryx.Connectors.Aws
variable (S : Aws)

/-- The instances of a region that are not terminated. -/
def liveInstances (region : String) : List Instance :=
  (S.instances region).flatten.filter fun inst => inst.state ≠ some "terminated"

/-- A record for every instance that is not terminated and every database instance. -/
def Whole (records : List Record) : Prop :=
  ∀ region ∈ S.regions,
    (∀ inst ∈ liveInstances S region, instanceRecord region inst ∈ records) ∧
    ∀ db ∈ (S.dbInstances region).flatten, dbRecord region db ∈ records

/-- A turn of the loop does not raise. -/
structure TurnReadable (turn : String × ℕ) : Prop where
  session : S.session turn.2 = none
  ec2 : OnlyClientErrors (S.ec2 turn.2) (S.instances turn.1)
  rds : AllPages (S.ec2 turn.2) (S.instances turn.1) →
    OnlyClientErrors (S.rds turn.2) (S.dbInstances turn.1)

/-- Unless a turn raises, a region with instances has all pages of them read in some turn, and so
has one with database instances, up to the page of each of these. -/
def Covered : Prop := (∀ turn ∈ S.regions.zipIdx, TurnReadable S turn) → ∀ region ∈ S.regions,
  (liveInstances S region ≠ [] →
    ∃ n, (region, n) ∈ S.regions.zipIdx ∧ AllPages (S.ec2 n) (S.instances region)) ∧
  ∀ db ∈ (S.dbInstances region).flatten, ∃ n, (region, n) ∈ S.regions.zipIdx ∧
    AllPages (S.ec2 n) (S.instances region) ∧ OnReadPage (S.rds n) (S.dbInstances region) db

variable {S}

section Turns
variable {n : ℕ} {region : String}

theorem fetchEc2_allPages (h : AllPages (S.ec2 n) (S.instances region)) :
    S.fetchEc2 n region = .ok ((liveInstances S region).map (instanceRecord region)) := by
  have hpages := paginate_of_allPages h
  have hnone := paginate_eq_none.mpr h
  unfold fetchEc2 liveInstances
  split
  · rename_i e heq
    simp [heq] at hnone
  · rename_i found heq
    rw [heq] at hpages
    rw [← hpages]

theorem fetchEc2_clientError (hall : ¬ AllPages (S.ec2 n) (S.instances region))
    (honly : OnlyClientErrors (S.ec2 n) (S.instances region)) :
    S.fetchEc2 n region = .error .clientError := by
  rw [← paginate_eq_none] at hall
  rw [← paginate_ne_other] at honly
  unfold fetchEc2
  split
  · rename_i e heq
    cases e with
    | clientError => rfl
    | other => simp [heq] at honly
  · rename_i heq
    simp [heq] at hall

theorem fetchEc2_other (h : ¬ OnlyClientErrors (S.ec2 n) (S.instances region)) :
    S.fetchEc2 n region = .error .other := by
  rw [← paginate_ne_other, not_not] at h
  unfold fetchEc2
  split
  · rename_i e heq
    rw [heq] at h
    cases h
    rfl
  · rename_i heq
    simp [heq] at h

theorem fetchRds_onlyClientErrors (h : OnlyClientErrors (S.rds n) (S.dbInstances region)) :
    S.fetchRds n region =
      .ok ((paginate (S.rds n) (S.dbInstances region)).1.map (dbRecord region)) := by
  rw [← paginate_ne_other] at h
  unfold fetchRds
  split
  · rename_i heq
    simp [heq] at h
  · rename_i heq
    rw [heq]

theorem fetchRds_other (h : ¬ OnlyClientErrors (S.rds n) (S.dbInstances region)) :
    S.fetchRds n region = .error .other := by
  rw [← paginate_ne_other, not_not] at h
  unfold fetchRds
  split
  · rfl
  · rename_i hother heq
    rw [heq] at h
    exact (hother h).elim

end Turns

/-- What a turn that does not raise adds. -/
def turnRecords (S : Aws) (turn : String × ℕ) : List Record :=
  match S.fetchEc2 turn.2 turn.1, S.fetchRds turn.2 turn.1 with
  | .ok ec2, .ok rds => ec2 ++ rds
  | _, _ => []

theorem fetchRegion_readable {turn : String × ℕ} (h : TurnReadable S turn) (assets : List Record) :
    S.fetchRegion assets turn = .ok (assets ++ turnRecords S turn) := by
  by_cases hall : AllPages (S.ec2 turn.2) (S.instances turn.1)
  · simp only [fetchRegion, turnRecords, h.session, fetchEc2_allPages hall,
      fetchRds_onlyClientErrors (h.rds hall), List.append_assoc]
  · simp only [fetchRegion, turnRecords, h.session, fetchEc2_clientError hall h.ec2,
      List.append_nil]

theorem fetchRegion_raises {turn : String × ℕ} (h : ¬ TurnReadable S turn) (assets : List Record) :
    ∃ e, S.fetchRegion assets turn = .error e := by
  unfold fetchRegion
  cases hsession : S.session turn.2 with
  | some e => exact ⟨_, rfl⟩
  | none =>
    by_cases honly : OnlyClientErrors (S.ec2 turn.2) (S.instances turn.1)
    · by_cases hall : AllPages (S.ec2 turn.2) (S.instances turn.1)
      · have hrds : ¬ OnlyClientErrors (S.rds turn.2) (S.dbInstances turn.1) := fun hrds =>
          h ⟨hsession, honly, fun _ => hrds⟩
        exact ⟨.otherAws, by simp [fetchEc2_allPages hall, fetchRds_other hrds]⟩
      · exact absurd ⟨hsession, honly, fun h => absurd h hall⟩ h
    · exact ⟨.otherAws, by simp [fetchEc2_other honly]⟩

/-- A turn adds what it reads, if it reads all pages of instances. -/
theorem mem_turnRecords {turn : String × ℕ} (h : TurnReadable S turn) {r : Record} :
    r ∈ turnRecords S turn ↔ AllPages (S.ec2 turn.2) (S.instances turn.1) ∧
      ((∃ inst ∈ liveInstances S turn.1, instanceRecord turn.1 inst = r) ∨
        ∃ db, OnReadPage (S.rds turn.2) (S.dbInstances turn.1) db ∧ dbRecord turn.1 db = r) := by
  by_cases hall : AllPages (S.ec2 turn.2) (S.instances turn.1)
  · simp only [turnRecords, fetchEc2_allPages hall, fetchRds_onlyClientErrors (h.rds hall),
      List.mem_append, List.mem_map, mem_paginate, hall, true_and]
  · simp only [turnRecords, fetchEc2_clientError hall h.ec2, List.not_mem_nil, hall, false_and]

theorem fetch_eq_ok {records : List Record} : S.fetchSync = .ok records ↔
    (∀ turn ∈ S.regions.zipIdx, TurnReadable S turn) ∧
      records = S.regions.zipIdx.flatMap (turnRecords S) := by
  rw [fetchSync, foldlM_eq_ok_iff (fun turn h assets => fetchRegion_readable h assets)
    fun turn h assets => fetchRegion_raises h assets]
  simp [List.foldl_append_eq_append, List.flatMap_def]

theorem mem_fetch {records : List Record} (h : S.fetchSync = .ok records) {r : Record} :
    r ∈ records ↔ ∃ turn ∈ S.regions.zipIdx, AllPages (S.ec2 turn.2) (S.instances turn.1) ∧
      ((∃ inst ∈ liveInstances S turn.1, instanceRecord turn.1 inst = r) ∨
        ∃ db, OnReadPage (S.rds turn.2) (S.dbInstances turn.1) db ∧ dbRecord turn.1 db = r) := by
  obtain ⟨hreadable, rfl⟩ := fetch_eq_ok.mp h
  rw [List.mem_flatMap]
  exact exists_congr fun turn => and_congr_right fun hturn => mem_turnRecords (hreadable turn hturn)

theorem segment_injective {region region' : String}
    (h : "Cloud-AWS-" ++ region = "Cloud-AWS-" ++ region') : region = region' := by
  have hchars := congrArg String.toList h
  rw [String.toList_append, String.toList_append] at hchars
  exact String.toList_injective (List.append_cancel_left hchars)

theorem dbRecord_injective {region region' : String} {db db' : DbInstance}
    (h : dbRecord region db = dbRecord region' db') : region = region' ∧ db = db' := by
  have hflag : Function.Injective flagJson := by
    intro x y hxy
    cases x <;> cases y <;> simp_all [flagJson]
  have hsegment := congrArg (fun r : Record => r.data.segment) h
  have hname := congrArg (fun r : Record => r.data.name) h
  have hattrs := congrArg Record.attrs h
  simp only [dbRecord, List.cons.injEq, Prod.mk.injEq, true_and, and_true, Entry.value.injEq]
    at hsegment hname hattrs
  obtain ⟨hengine, hversion, hclass, hpublic, hencrypted⟩ := hattrs
  refine ⟨segment_injective hsegment, ?_⟩
  cases db
  cases db'
  simp only [DbInstance.mk.injEq]
  exact ⟨hname, textJson_injective hengine, textJson_injective hversion,
    textJson_injective hclass, hflag hpublic, hflag hencrypted⟩

theorem region_of_instanceRecord {region region' : String} {inst inst' : Instance}
    (h : instanceRecord region inst = instanceRecord region' inst') : region = region' :=
  segment_injective (Entry.value.inj (congrArg (fun r : Record => r.data.segment) h))

theorem instanceRecord_ne_dbRecord (region region' : String) (inst : Instance) (db : DbInstance) :
    instanceRecord region inst ≠ dbRecord region' db := by
  intro h
  have htype := Entry.value.inj (congrArg (fun r : Record => r.data.type) h)
  exact absurd htype (by decide)

theorem whole_iff : (∀ records, S.fetchSync = .ok records → Whole S records) ↔ Covered S := by
  constructor
  · intro h hreadable region hregion
    have hfetch := fetch_eq_ok.mpr ⟨hreadable, rfl⟩
    obtain ⟨hinstances, hdatabases⟩ := h _ hfetch region hregion
    refine ⟨fun hne => ?_, fun db hdb => ?_⟩
    · obtain ⟨inst, hinst⟩ := List.exists_mem_of_ne_nil _ hne
      obtain ⟨⟨region', n⟩, hturn, hall, ⟨inst', -, heq⟩ | ⟨db, -, heq⟩⟩ :=
        (mem_fetch hfetch).mp (hinstances inst hinst)
      · cases region_of_instanceRecord heq
        exact ⟨n, hturn, hall⟩
      · exact absurd heq.symm (instanceRecord_ne_dbRecord _ _ _ _)
    · obtain ⟨⟨region', n⟩, hturn, hall, ⟨inst, -, heq⟩ | ⟨db', hread, heq⟩⟩ :=
        (mem_fetch hfetch).mp (hdatabases db hdb)
      · exact absurd heq (instanceRecord_ne_dbRecord _ _ _ _)
      · obtain ⟨rfl, rfl⟩ := dbRecord_injective heq
        exact ⟨n, hturn, hall, hread⟩
  · intro h records hfetch region hregion
    obtain ⟨hinstances, hdatabases⟩ := h (fetch_eq_ok.mp hfetch).1 region hregion
    refine ⟨fun inst hinst => ?_, fun db hdb => ?_⟩
    · obtain ⟨n, hturn, hall⟩ := hinstances (List.ne_nil_of_mem hinst)
      exact (mem_fetch hfetch).mpr ⟨(region, n), hturn, hall, .inl ⟨inst, hinst, rfl⟩⟩
    · obtain ⟨n, hturn, hall, hread⟩ := hdatabases db hdb
      exact (mem_fetch hfetch).mpr ⟨(region, n), hturn, hall, .inr ⟨db, hread, rfl⟩⟩

end Aws

/-! ## The sync -/

/-- What one of the four connectors reads. -/
inductive Source where
  | crowdstrike (S : CrowdStrike)
  | infoblox (S : Infoblox)
  | nessus (S : Nessus)
  | aws (S : Aws)

namespace Source

def fetchInventory : Source → Except FetchError (List Record)
  | .crowdstrike S => S.fetchInventory
  | .infoblox S => S.fetchInfoblox
  | .nessus S => S.fetchInventory
  | .aws S => S.fetchSync

/-- A record for everything that the connector is to report. -/
def Whole : Source → List Record → Prop
  | .crowdstrike S => CrowdStrike.Whole S
  | .infoblox S => Infoblox.Whole S
  | .nessus S => Nessus.Whole S
  | .aws S => Aws.Whole S

/-- The content and the failing requests under which nothing is lost in silence. -/
def Covered : Source → Prop
  | .crowdstrike S => CrowdStrike.Covered S
  | .infoblox S => Infoblox.Covered S
  | .nessus S => Nessus.Covered S
  | .aws S => Aws.Covered S

/-- The fetch raises or has read the whole source. -/
def RaisesOrWhole (source : Source) : Prop :=
  ∀ records, source.fetchInventory = .ok records → source.Whole records

theorem raisesOrWhole_iff_covered (source : Source) : source.RaisesOrWhole ↔ source.Covered := by
  cases source with
  | crowdstrike S => exact CrowdStrike.whole_iff
  | infoblox S => exact Infoblox.whole_iff
  | nessus S => exact Nessus.whole_iff
  | aws S => exact Aws.whole_iff

end Source

/-- What the connectors of the integrations find: whether the secrets of the configuration
decrypt, the four sources, and what the other connectors deliver. -/
structure Providers where
  resolves : Integration → Bool
  crowdstrike : Integration → CrowdStrike
  infoblox : Integration → Infoblox
  nessus : Integration → Nessus
  aws : Integration → Aws
  other : Integration → Delivery Record

/-- `self.config.get("provider", "infoblox").lower()` is `infoblox`. -/
def isInfoblox (config : List (String × String)) : Bool :=
  Redaction.lower ((config.lookup "provider").getD "infoblox") = "infoblox"

namespace Providers

/-- `get_connector`, for the four connectors. -/
def source (P : Providers) (integ : Integration) : Option Source :=
  if integ.connectorType = "edr_crowdstrike" then some (.crowdstrike (P.crowdstrike integ))
  else if integ.connectorType = "dhcp_dns" && isInfoblox integ.config then
    some (.infoblox (P.infoblox integ))
  else if integ.connectorType = "vuln_nessus" then some (.nessus (P.nessus integ))
  else if integ.connectorType = "cloud_aws" then some (.aws (P.aws integ))
  else none

def deliver (P : Providers) (integ : Integration) : Delivery Record :=
  match P.source integ with
  | none => P.other integ
  | some source =>
    if P.resolves integ then
      match source.fetchInventory with
      | .ok records => .hosts records
      | .error _ => .connectorError
    else .connectorError

end Providers

variable {δ σ : Type*} (B : Backend δ σ) (P : Providers)

def environment (reconcileHost : String → Record → σ → σ × Option Failure) (now : Time) :
    Environment Record σ where
  deliver := P.deliver
  reconcileHost := reconcileHost
  now := now

/-- The stored row of an integration. -/
def storedRow (task : Task δ σ) (integ : Integration) : Option Integration :=
  task.session.committed.integrations.find integ.id

/-- After a turn the stored status is not success, unless the turn wrote nothing into the row or
has read the whole source. -/
def SuccessIsWhole (env : Environment Record σ) (task : Task δ σ) (integ : Integration) : Prop :=
  ∀ source ∈ P.source integ, ∀ row ∈ storedRow (syncOne B env task integ) integ,
    row.lastStatus = some .success → storedRow task integ = some row ∨
      ∃ records, source.fetchInventory = .ok records ∧ source.Whole records

variable {B P}

/-- The handler of an exception stores no success. -/
theorem recordFailure_status {s : Session (Stored δ) (Stored σ)} {integ row : Integration}
    (hrow : storedRow (recordFailure B integ s) integ = some row)
    (hstatus : row.lastStatus = some .success) :
    s.committed.integrations.find integ.id = some row := by
  unfold recordFailure Session.commit at hrow
  split at hrow
  · rename_i committed hcommit
    split at hcommit
    · cases hcommit
    · cases hcommit
      change (onIntegration markFailed integ s.memory).integrations.find integ.id = some row at hrow
      unfold onIntegration at hrow
      cases hfind : s.memory.integrations.find integ.id with
      | none => simp [hfind] at hrow
      | some held =>
        have hkey := Table.find_some_key hfind
        simp only [hfind] at hrow
        have hput := Table.find_put_self (t := s.memory.integrations) (r := markFailed held)
          (by rw [show (markFailed held).id = integ.id from hkey, hfind]; rfl)
        rw [show (markFailed held).id = integ.id from hkey, hrow] at hput
        cases hput
        cases hstatus
  · rename_i hcommit
    split at hcommit
    · cases hcommit
      exact hrow
    · cases hcommit

theorem successIsWhole_of_covered (env : Environment Record σ) (henv : env.deliver = P.deliver)
    (task : Task δ σ) {integ : Integration}
    (hcovered : ∀ source ∈ P.source integ, source.Covered) : SuccessIsWhole B P env task integ := by
  intro source hsource row hrow hstatus
  have hwhole := (source.raisesOrWhole_iff_covered).mpr (hcovered source hsource)
  unfold syncOne at hrow
  split at hrow
  · exact .inl hrow
  · have hdeliver : env.deliver integ = if P.resolves integ then
        match source.fetchInventory with
        | .ok records => .hosts records
        | .error _ => .connectorError
      else .connectorError := by
      rw [henv, Providers.deliver, show P.source integ = some source from hsource]
    cases hfetch : source.fetchInventory with
    | ok records => exact .inr ⟨records, rfl, hwhole records hfetch⟩
    | error e =>
      have herror : env.deliver integ = .connectorError := by
        rw [hdeliver, hfetch]
        split <;> rfl
      rw [herror] at hrow
      exact .inl (recordFailure_status hrow hstatus)

/-- A fetch either raises or has read the whole source exactly when the source is covered. In a
sync of covered sources no success is recorded for a partial inventory. -/
theorem fetch_whole_iff (P : Providers) (B : Backend δ σ)
    (reconcileHost : String → Record → σ → σ × Option Failure) (now : Time) (d : Stored δ)
    (integrationId : Option ℕ) :
    (∀ source : Source, source.RaisesOrWhole ↔ source.Covered) ∧
    ((∀ integ ∈ enabledIntegrations d integrationId, ∀ source ∈ P.source integ, source.Covered) →
      Along (syncOne B (environment P reconcileHost now))
        (SuccessIsWhole B P (environment P reconcileHost now))
        ⟨.start (withIntegrations B) d, false⟩ (enabledIntegrations d integrationId)) := by
  refine ⟨Source.raisesOrWhole_iff_covered, fun hcovered => along_of_forall ?_⟩
  intro integ hinteg task
  exact successIsWhole_of_covered _ rfl task (hcovered integ hinteg)

/-- A host of a completed scan. -/
def webHost : NessusHost := { hostname := some "web-1", hostIp := some "198.51.100.20" }

/-- A Nessus server with one completed scan, whose details are answered with a status. -/
def oneScan (code : ℕ) : Connectors.Nessus where
  scans := [⟨1, some "completed", [webHost], .status code⟩]
  list := .status 200

/-- Integrations of an account without devices, leases and regions, and of a Nessus server. -/
def nessusProviders (S : Connectors.Nessus) : Providers where
  resolves _ := true
  crowdstrike _ := ⟨.empty, .status 200, .status 200, fun _ => .status 200⟩
  infoblox _ := ⟨[], .status 200⟩
  nessus _ := S
  aws _ := ⟨some [], fun _ => [], fun _ => [], fun _ => none, fun _ _ => none, fun _ _ => none⟩
  other _ := .noConnector

/-- No assets and alerts, and a reconciler that changes none. -/
def idle : Backend Unit Unit where
  load d := d
  stored m := m
  writable _ := true
  stored_load _ := rfl
  writable_load _ := rfl

def nessusOnly : Stored Unit where
  integrations := ⟨[IntegrationSync.nessus], by decide⟩
  inventory := ()

def reconcileNothing (_ : String) (_ : Record) (m : Unit) : Unit × Option Failure := (m, none)

theorem oneScan_covered : (Source.nessus (oneScan 200)).Covered := by
  rintro - scan hscan host hhost ip hip -
  have hscan : scan = ⟨1, some "completed", [webHost], .status 200⟩ := by
    simpa [Nessus.completed, oneScan] using hscan
  subst hscan
  obtain rfl := List.mem_singleton.mp hhost
  exact ⟨"web-1", webHost, by decide +kernel, hip⟩

/-- The sync of a server that answers. -/
theorem answered_scan_whole :
    Along (syncOne idle (environment (nessusProviders (oneScan 200)) reconcileNothing 0))
      (SuccessIsWhole idle (nessusProviders (oneScan 200))
        (environment (nessusProviders (oneScan 200)) reconcileNothing 0))
      ⟨.start (withIntegrations idle) nessusOnly, false⟩ (enabledIntegrations nessusOnly none) := by
  refine (fetch_whole_iff (nessusProviders (oneScan 200)) idle reconcileNothing 0 nessusOnly
    none).2 ?_
  intro integ hinteg source hsource
  obtain rfl : integ = IntegrationSync.nessus := by
    simpa [enabledIntegrations, nessusOnly] using (List.mem_filter.mp hinteg).1
  obtain rfl : source = .nessus (oneScan 200) := by
    simpa [Providers.source, nessusProviders, IntegrationSync.nessus, eq_comm] using hsource
  exact oneScan_covered

/-- A scan whose details are answered with 404 is skipped: its host is missing, and the sync
records the success of an empty inventory. -/
theorem skipped_scan_recorded_as_success :
    (¬ ∀ source : Source, source.RaisesOrWhole) ∧
    (syncAll idle (environment (nessusProviders (oneScan 404)) reconcileNothing 0) nessusOnly
        none).session.committed.integrations.rows.map (fun i => (i.lastStatus, i.assetsReported)) =
      [(some .success, 0)] := by
  refine ⟨fun h => ?_, by decide +kernel⟩
  obtain ⟨r, hr, -⟩ := h (.nessus (oneScan 404)) [] rfl _ List.mem_cons_self webHost
    List.mem_cons_self "198.51.100.20" rfl (by decide)
  exact absurd hr List.not_mem_nil

end Kepryx.InventoryCompleteness
