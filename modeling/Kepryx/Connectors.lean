import Kepryx.AssetIntake
import Kepryx.JsonText

/-!
# The connectors that read an inventory

What `fetch_inventory` of four connectors makes of the content of its provider and of the
requests that fail. A query of CrowdStrike or Infoblox answers at most the requested number of
records; a client of AWS asks for page after page.
-/
namespace Kepryx.Connectors
open Kepryx.Models Kepryx.Reconciler Kepryx.Tables
open Kepryx.AssetIntake (assign strip)
open Kepryx.JsonText (Json)
open Kepryx.Redaction (lower occursIn)

/-- A dictionary that a connector returns. -/
structure Record where
  data : HostData
  vulnerabilities : List (String × Json) := []
  attrs : List (String × Json)

inductive FetchError where
  | transport
  | httpStatus (code : ℕ)
  | attributeError
  | clientError
  | otherAws
  deriving DecidableEq, Repr

/-- What becomes of a request. The document of a successful answer is the content asked for. -/
inductive Answer where
  | failed
  | status (code : ℕ)
  deriving DecidableEq, Repr

/-- `is_success` -/
def Answer.isSuccess : Answer → Bool
  | .failed => false
  | .status code => 200 ≤ code && code < 300

/-- The request and `raise_for_status` -/
def Answer.raiseForStatus (a : Answer) : Except FetchError Unit :=
  match a with
  | .failed => .error .transport
  | .status code => if a.isSuccess then .ok () else .error (.httpStatus code)

/-- A value that may be `None`, under a key. -/
def entry : Option String → Entry String
  | none => .null
  | some text => .value text

/-- `a or b` -/
def orElse (a b : Option String) : Option String := (a.filter (· ≠ "")).or b

def textJson : Option String → Json
  | none => .null
  | some text => .str text

def countJson : Option ℕ → Json
  | none => .null
  | some n => .int n

def flagJson : Option Bool → Json
  | none => .null
  | some b => .bool b

/-- A value in an f-string. -/
def shown (value : Option String) : String := value.getD "None"

/-! ## `edr_crowdstrike` -/

/-- A device. Its dates and policies are passed on as they are. -/
structure Device where
  deviceId : String
  hostname : Entry String := .missing
  localIp : Entry String := .missing
  externalIp : Entry String := .missing
  macAddress : Entry String := .missing
  osVersion : Entry String := .missing
  osBuild : Entry String := .missing
  productTypeDesc : Entry String := .missing
  agentVersion : Entry String := .missing
  siteName : Entry String := .missing
  firstSeen : Json := .null
  lastSeen : Json := .null
  policies : Json := .arr []

/-- The devices of a customer, and what becomes of the requests; one for details is known by
the start of its batch. -/
structure CrowdStrike where
  devices : Table Device.deviceId
  token : Answer
  ids : Answer
  detail : ℕ → Answer

def deviceRecord (d : Device) : Record where
  data := {
    name := entry d.hostname.get
    hostname := entry d.hostname.get
    ip := entry (orElse d.localIp.get d.externalIp.get)
    mac := entry d.macAddress.get
    os := .value (strip (shown (d.osVersion.getD "") ++ " " ++ shown (d.osBuild.getD "")))
    type := .value (if occursIn "server" (lower ((d.productTypeDesc.getD "").getD ""))
      then "Server" else "Endpoint")
    edrStatus := .value ("CrowdStrike " ++ shown (d.agentVersion.getD ""))
    controlCoverage := .value "full"
    authMethod := .value "mfa"
    segment := entry (orElse d.siteName.get (some "Corporate")) }
  attrs := [("device_id", .str d.deviceId), ("first_seen", d.firstSeen),
    ("last_seen", d.lastSeen), ("policies", d.policies)]

/-- A null description of the product has no `lower`. -/
def normalizeDevice (d : Device) : Except FetchError Record :=
  if d.productTypeDesc = .null then .error .attributeError else .ok (deviceRecord d)

namespace CrowdStrike
variable (S : CrowdStrike)

/-- The first identifiers, at most `limit` of them. -/
def deviceIds (limit : ℕ) : List String := (S.devices.rows.map Device.deviceId).take limit

/-- The devices of a batch of identifiers. -/
def entities (batch : List String) : List Device := batch.filterMap S.devices.find

/-- `range(0, n, 100)` -/
def batchStarts (n : ℕ) : List ℕ := (List.range ((n + 99) / 100)).map fun i => 100 * i

/-- One turn of the loop over the batches. -/
def fetchBatch (ids : List String) (batchStart : ℕ) : Except FetchError (List Record) := do
  (S.detail batchStart).raiseForStatus
  (S.entities ((ids.drop batchStart).take 100)).mapM normalizeDevice

/-- `CrowdStrikeConnector.fetch_inventory` -/
def fetchInventory : Except FetchError (List Record) := do
  S.token.raiseForStatus
  S.ids.raiseForStatus
  let ids := S.deviceIds 5000
  let assets ← (batchStarts ids.length).mapM (S.fetchBatch ids)
  return assets.flatten.filter fun a => a.data.name.truthy.isSome

end CrowdStrike

/-! ## `dhcp_dns` with Infoblox -/

/-- A lease, with the fields that the query returns. -/
structure Lease where
  address : Option String := none
  hardware : Option String := none
  clientHostname : Option String := none
  bindingState : Option String := none
  starts : Option String := none
  ends : Option String := none
  deriving DecidableEq, Repr

/-- The leases of a grid, and what becomes of the query. -/
structure Infoblox where
  leases : List Lease
  query : Answer

def leaseRecord (lease : Lease) : Record where
  data := {
    name := entry (orElse lease.clientHostname lease.address)
    hostname := entry lease.clientHostname
    ip := entry lease.address
    mac := entry lease.hardware
    type := .value "Unknown"
    segment := .value "DHCP" }
  attrs := [("lease_start", textJson lease.starts), ("lease_end", textJson lease.ends),
    ("binding", textJson lease.bindingState)]

namespace Infoblox
variable (S : Infoblox)

/-- The first leases of a binding state, at most `maxResults` of them. -/
def search (maxResults : ℕ) (bindingState : String) : List Lease :=
  (S.leases.filter fun lease => lease.bindingState = some bindingState).take maxResults

/-- `DHCPDNSConnector._fetch_infoblox` -/
def fetchInfoblox : Except FetchError (List Record) := do
  S.query.raiseForStatus
  let leases := S.search 5000 "ACTIVE"
  return (leases.filter fun lease => lease.bindingState = some "ACTIVE").map leaseRecord

end Infoblox

/-! ## `vuln_nessus` -/

structure NessusHost where
  hostname : Option String := none
  hostIp : Option String := none
  operatingSystem : Option String := none
  critical : Entry ℕ := .missing
  high : Entry ℕ := .missing
  medium : Entry ℕ := .missing
  low : Entry ℕ := .missing
  deriving DecidableEq, Repr

/-- A scan, and what becomes of the request for its details. -/
structure Scan where
  id : ℕ
  status : Option String
  hosts : List NessusHost
  detail : Answer
  deriving DecidableEq, Repr

structure Nessus where
  scans : List Scan
  list : Answer
  deriving DecidableEq, Repr

/-- `host.get("hostname") or host.get("host-ip")`, if it is not empty. -/
def NessusHost.key (host : NessusHost) : Option String :=
  (orElse host.hostname host.hostIp).filter (· ≠ "")

/-- An item of `assets_map`: the host that was first under the key, and the scans. -/
structure Found where
  key : String
  host : NessusHost
  scanIds : List ℕ
  deriving DecidableEq, Repr

def Found.record (f : Found) : Record where
  data := {
    name := entry (orElse f.host.hostname (some f.key))
    ip := entry f.host.hostIp
    hostname := entry f.host.hostname
    type := .value "Unknown"
    os := entry f.host.operatingSystem }
  vulnerabilities := [("critical", countJson (f.host.critical.getD 0)),
    ("high", countJson (f.host.high.getD 0)), ("medium", countJson (f.host.medium.getD 0)),
    ("low", countJson (f.host.low.getD 0))]
  attrs := [("scan_ids", .arr (f.scanIds.map fun id => .int id))]

/-- One host of a scan. -/
def addHost (scanId : ℕ) (assetsMap : Table Found.key) (host : NessusHost) : Table Found.key :=
  match host.key with
  | none => assetsMap
  | some key =>
    match assetsMap.find key with
    | none => (assetsMap.insert? ⟨key, host, [scanId]⟩).getD assetsMap
    | some found => assetsMap.put { found with scanIds := found.scanIds ++ [scanId] }

/-- One turn of the loop over the scans. An answer other than 200 skips the scan. -/
def addScan (assetsMap : Table Found.key) (scan : Scan) :
    Except FetchError (Table Found.key) :=
  if scan.status ≠ some "completed" then .ok assetsMap
  else match scan.detail with
    | .failed => .error .transport
    | .status code =>
      if code ≠ 200 then .ok assetsMap else .ok (scan.hosts.foldl (addHost scan.id) assetsMap)

/-- `NessusConnector.fetch_inventory` -/
def Nessus.fetchInventory (S : Nessus) : Except FetchError (List Record) := do
  S.list.raiseForStatus
  let assetsMap ← S.scans.foldlM addScan .empty
  return assetsMap.rows.map Found.record

/-! ## `cloud_aws` -/

structure Instance where
  instanceId : String
  state : Option String := some "running"
  tags : List (String × String) := []
  privateIpAddress : Option String := none
  publicIpAddress : Option String := none
  platformDetails : Entry String := .missing
  instanceType : Option String := none
  vpcId : Option String := none
  subnetId : Option String := none
  securityGroups : List String := []
  deriving DecidableEq, Repr

structure DbInstance where
  dbInstanceIdentifier : String
  engine : Option String := none
  engineVersion : Option String := none
  dbInstanceClass : Option String := none
  publiclyAccessible : Option Bool := none
  storageEncrypted : Option Bool := none
  deriving DecidableEq, Repr

inductive AwsFailure where
  | clientError
  | other
  deriving DecidableEq, Repr

def AwsFailure.error : AwsFailure → FetchError
  | .clientError => .clientError
  | .other => .otherAws

/-- The configured regions, what each holds page by page, and what fails: the session of a turn
of the loop, or a request for a page in that turn. -/
structure Aws where
  configRegions : Option (List String)
  instances : String → List (List Instance)
  dbInstances : String → List (List DbInstance)
  session : ℕ → Option AwsFailure
  ec2 : ℕ → ℕ → Option AwsFailure
  rds : ℕ → ℕ → Option AwsFailure

/-- `"internet-facing" if exposed else "cloud"` -/
def exposure (exposed : Bool) : Entry String :=
  .value (if exposed then "internet-facing" else "cloud")

def instanceRecord (region : String) (inst : Instance) : Record :=
  let tags := inst.tags.foldl (fun d t => assign d t.1 t.2) []
  { data := {
      name := .value ((tags.lookup "Name").getD inst.instanceId)
      ip := entry inst.privateIpAddress
      type := .value "Cloud Instance"
      os := entry (inst.platformDetails.getD "Unknown")
      segment := .value ("Cloud-AWS-" ++ region)
      networkExposure := exposure (inst.publicIpAddress.filter (· ≠ "")).isSome
      authMethod := .value "certificate"
      criticality := .value ((tags.lookup "Criticality").getD "medium")
      dataClassification := .value ((tags.lookup "DataClass").getD "Internal") }
    attrs := [("instance_id", .str inst.instanceId),
      ("instance_type", textJson inst.instanceType), ("vpc_id", textJson inst.vpcId),
      ("public_ip", textJson inst.publicIpAddress), ("subnet_id", textJson inst.subnetId),
      ("security_groups", .arr (inst.securityGroups.map .str)),
      ("tags", .obj (tags.map fun t => (t.1, .str t.2)))] }

def dbRecord (region : String) (db : DbInstance) : Record where
  data := {
    name := .value db.dbInstanceIdentifier
    type := .value "Database Server"
    os := .value (shown db.engine ++ " " ++ shown db.engineVersion)
    segment := .value ("Cloud-AWS-" ++ region)
    networkExposure := exposure (db.publiclyAccessible.getD false)
    authMethod := .value "certificate"
    criticality := .value "high"
    dataClassification := .value "Confidential" }
  attrs := [("engine", textJson db.engine), ("engine_version", textJson db.engineVersion),
    ("instance_class", textJson db.dbInstanceClass),
    ("publicly_accessible", flagJson db.publiclyAccessible),
    ("storage_encrypted", flagJson db.storageEncrypted)]

/-- The records of the pages up to the request that fails. -/
def paginate {α : Type} (failure : ℕ → Option AwsFailure) :
    List (List α) → List α × Option AwsFailure
  | [] => ([], none)
  | page :: pages =>
    match failure 0 with
    | some e => ([], some e)
    | none =>
      let rest := paginate (fun n => failure (n + 1)) pages
      (page ++ rest.1, rest.2)

namespace Aws
variable (S : Aws)

/-- `self.config.get("regions", ["us-east-1"])` -/
def regions : List String := S.configRegions.getD ["us-east-1"]

/-- `AWSConnector._fetch_ec2` -/
def fetchEc2 (turn : ℕ) (region : String) : Except AwsFailure (List Record) :=
  match paginate (S.ec2 turn) (S.instances region) with
  | (_, some e) => .error e
  | (found, none) =>
    .ok ((found.filter fun inst => inst.state ≠ some "terminated").map (instanceRecord region))

/-- `AWSConnector._fetch_rds` -/
def fetchRds (turn : ℕ) (region : String) : Except AwsFailure (List Record) :=
  match paginate (S.rds turn) (S.dbInstances region) with
  | (_, some .other) => .error .other
  | (found, _) => .ok (found.map (dbRecord region))

/-- One turn of the loop over the regions. -/
def fetchRegion (assets : List Record) (turn : String × ℕ) : Except FetchError (List Record) :=
  match S.session turn.2 with
  | some e => .error e.error
  | none =>
    match S.fetchEc2 turn.2 turn.1 with
    | .error .clientError => .ok assets
    | .error .other => .error .otherAws
    | .ok ec2 =>
      match S.fetchRds turn.2 turn.1 with
      | .error .clientError => .ok (assets ++ ec2)
      | .error .other => .error .otherAws
      | .ok rds => .ok (assets ++ ec2 ++ rds)

/-- `AWSConnector._fetch_sync` -/
def fetchSync : Except FetchError (List Record) := S.regions.zipIdx.foldlM S.fetchRegion []

end Aws

end Kepryx.Connectors
