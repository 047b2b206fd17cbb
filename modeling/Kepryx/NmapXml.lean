import Mathlib.Data.List.Forall2
import Mathlib.Data.List.ReduceOption
import Kepryx.AssetIntake
import Kepryx.Results

/-!
# What nmap reports

`_parse_xml` walks the XML document of nmap and returns the hosts that are up. It takes the
address of a host from its elements of type `ipv4` only, so a host with other addresses alone
is left out.
-/
namespace Kepryx.NmapXml
open Kepryx.AssetIntake Kepryx.Results

/-! ## Documents -/

/-- An element of a parsed document. -/
inductive Element where
  | mk (tag : String) (attrs : List (String × String)) (text : Option String)
      (children : List Element)

namespace Element

def tag : Element → String
  | mk tag _ _ _ => tag

def text : Element → Option String
  | mk _ _ text _ => text

/-- `e.get(key)` -/
def get (key : String) : Element → Option String
  | mk _ attrs _ _ => attrs.lookup key

/-- `e.findall(name)`: the children of that name. -/
def findall (name : String) : Element → List Element
  | mk _ _ _ children => children.filter fun e => e.tag = name

/-- `e.find(name)` -/
def find (name : String) (e : Element) : Option Element := (e.findall name).head?

end Element

/-! ## Numbers -/

/-- The digits zero of Unicode; the other nine follow each of them. -/
def decimalZeros : List ℕ := [
  0x30, 0x660, 0x6f0, 0x7c0, 0x966, 0x9e6, 0xa66, 0xae6, 0xb66, 0xbe6, 0xc66, 0xce6, 0xd66, 0xde6,
  0xe50, 0xed0, 0xf20, 0x1040, 0x1090, 0x17e0, 0x1810, 0x1946, 0x19d0, 0x1a80, 0x1a90, 0x1b50,
  0x1bb0, 0x1c40, 0x1c50, 0xa620, 0xa8d0, 0xa900, 0xa9d0, 0xa9f0, 0xaa50, 0xabf0, 0xff10, 0x104a0,
  0x10d30, 0x11066, 0x110f0, 0x11136, 0x111d0, 0x112f0, 0x11450, 0x114d0, 0x11650, 0x116c0,
  0x11730, 0x118e0, 0x11950, 0x11c50, 0x11d50, 0x11da0, 0x11f50, 0x16a60, 0x16ac0, 0x16b50,
  0x1d7ce, 0x1d7d8, 0x1d7e2, 0x1d7ec, 0x1d7f6, 0x1e140, 0x1e2f0, 0x1e4f0, 0x1e950, 0x1fbf0]

def decimalValue (c : Char) : Option ℕ :=
  (decimalZeros.find? fun first => first ≤ c.toNat && c.toNat < first + 10).map (c.toNat - ·)

/-- Digits, of which single underscores may separate groups. -/
def intDigits (cs : List Char) : Option ℕ :=
  let parts := cs.splitOn '_'
  if parts.any List.isEmpty then none
  else match parts.flatten.mapM decimalValue with
    | none => none
    | some digits => if 4300 < digits.length then none else some (digits.foldl (10 * · + ·) 0)

/-- `int(text)`, with nothing for a `ValueError`. -/
def pyInt (text : String) : Option ℤ :=
  match (strip text).toList with
  | '+' :: cs => (intDigits cs).map Int.ofNat
  | '-' :: cs => (intDigits cs).map fun n => -Int.ofNat n
  | cs => (intDigits cs).map Int.ofNat

/-! ## The parser -/

/-- `ScanExecutionError("nmap returned invalid XML")`, or the `ValueError` of a port. -/
inductive ParseError where
  | invalidXml
  | value (text : String)
  deriving DecidableEq, Repr

/-- A service of a host: the entries of its dictionary. -/
structure PortService where
  port : ℤ
  protocol : Option String
  service : Option String
  product : Option String
  version : Option String
  cpe : List (Option String)
  deriving DecidableEq, Repr

structure DiscoveredHost where
  ip : String
  mac : Option String
  macVendor : Option String
  hostname : Option String
  osGuess : Option String
  state : String
  services : List PortService
  lastSeen : String
  deriving DecidableEq, Repr

/-- The addresses of a host, as the loop over them collects them. -/
structure Addresses where
  ip : Option String := none
  mac : Option String := none
  macVendor : Option String := none

def readAddress (found : Addresses) (addr : Element) : Addresses :=
  if addr.get "addrtype" = some "ipv4" then { found with ip := addr.get "addr" }
  else if addr.get "addrtype" = some "mac" then
    { found with mac := addr.get "addr", macVendor := addr.get "vendor" }
  else found

/-- `int(port.get("portid", 0))` -/
def portNumber (port : Element) : Except ParseError ℤ :=
  match port.get "portid" with
  | none => .ok 0
  | some text =>
    match pyInt text with
    | some n => .ok n
    | none => .error (.value text)

def portService (port : Element) : Except ParseError PortService := do
  let svc := port.find "service"
  return {
    port := ← portNumber port
    protocol := port.get "protocol"
    service := svc.bind (Element.get "name")
    product := svc.bind (Element.get "product")
    version := svc.bind (Element.get "version")
    cpe := (svc.map fun svc => (svc.findall "cpe").map Element.text).getD [] }

def isUp (host : Element) : Bool := (host.find "status").bind (Element.get "state") = some "up"

def isOpen (port : Element) : Bool := (port.find "state").bind (Element.get "state") = some "open"

def openPorts (host : Element) : List Element :=
  (((host.find "ports").map (Element.findall "port")).getD []).filter isOpen

def hostname (host : Element) : Option String :=
  ((host.find "hostnames").bind (Element.find "hostname")).bind (Element.get "name")

/-- The turn of a host, with nothing where the loop goes on without it. -/
def parseHost (host : Element) : Except ParseError (Option DiscoveredHost) :=
  if !isUp host then .ok none
  else
    let found := (host.findall "address").foldl readAddress {}
    match found.ip.filter (· ≠ "") with
    | none => .ok none
    | some ip => do
      let services ← (openPorts host).mapM portService
      return some {
        ip := ip
        mac := found.mac
        macVendor := found.macVendor
        hostname := hostname host
        osGuess := ((host.find "os").bind (Element.find "osmatch")).bind (Element.get "name")
        state := "up"
        services := services
        lastSeen := (host.get "endtime").getD "" }

def parseHosts (root : Element) : Except ParseError (List DiscoveredHost) :=
  (root.findall "host").foldlM (fun hosts host => do return hosts ++ (← parseHost host).toList) []

/-- `_parse_xml`, over the XML parser. -/
def parseXml (fromstring : String → Option Element) (xml : String) :
    Except ParseError (List DiscoveredHost) :=
  match fromstring xml with
  | none => .error .invalidXml
  | some root => parseHosts root

/-! ## What it should return -/

def ofType (addrtype : String) (addr : Element) : Bool := addr.get "addrtype" = some addrtype

def addressesOf (addrtype : String) (host : Element) : List Element :=
  (host.findall "address").filter (ofType addrtype)

/-- A host that is up and has an address of one of the two families. -/
def live (host : Element) : Bool :=
  isUp host && (!(addressesOf "ipv4" host).isEmpty || !(addressesOf "ipv6" host).isEmpty)

/-- What is returned for an open port. -/
structure Reports (port : Element) (s : PortService) : Prop where
  number : portNumber port = .ok s.port
  protocol : s.protocol = port.get "protocol"
  service : s.service = (port.find "service").bind (Element.get "name")
  product : s.product = (port.find "service").bind (Element.get "product")
  version : s.version = (port.find "service").bind (Element.get "version")

/-- What is returned for a host. -/
structure Describes (host : Element) (d : DiscoveredHost) : Prop where
  ip : ∃ addr ∈ addressesOf "ipv4" host ++ addressesOf "ipv6" host, addr.get "addr" = some d.ip
  mac : (addressesOf "mac" host = [] ∧ d.mac = none ∧ d.macVendor = none) ∨
    ∃ addr ∈ addressesOf "mac" host, addr.get "addr" = d.mac ∧ addr.get "vendor" = d.macVendor
  hostname : d.hostname = hostname host
  services : List.Forall₂ Reports (openPorts host) d.services

/-- One host for each element that is live, in their order, and no other. -/
def Complete (root : Element) : Prop :=
  ∃ hosts, parseHosts root = .ok hosts ∧
    List.Forall₂ Describes ((root.findall "host").filter live) hosts

/-- The host has an address of type `ipv4`, of which the last is not empty, and its open ports
have numbers. -/
structure Readable (host : Element) : Prop where
  ip : ∃ ip, ip ≠ "" ∧
    ((addressesOf "ipv4" host).getLast?.bind (Element.get "addr")) = some ip
  ports : ∀ port ∈ openPorts host, ∃ n, portNumber port = .ok n

/-! ## The turn of a host -/

/-- The last address of a type is the one that stays. -/
theorem foldl_readAddress (addresses : List Element) (found : Addresses) :
    (addresses.foldl readAddress found).ip =
        (((addresses.filter (ofType "ipv4")).getLast?.map (Element.get "addr")).getD found.ip) ∧
      (addresses.foldl readAddress found).mac =
        (((addresses.filter (ofType "mac")).getLast?.map (Element.get "addr")).getD found.mac) ∧
      (addresses.foldl readAddress found).macVendor =
        (((addresses.filter (ofType "mac")).getLast?.map
          (Element.get "vendor")).getD found.macVendor) := by
  induction addresses generalizing found with
  | nil => exact ⟨rfl, rfl, rfl⟩
  | cons a addresses ih =>
    rw [List.foldl_cons]
    obtain ⟨hip, hmac, hvendor⟩ := ih (readAddress found a)
    rw [hip, hmac, hvendor]
    by_cases hipv4 : a.get "addrtype" = some "ipv4"
    · have hnot : ofType "mac" a = false := by simp [ofType, hipv4]
      have hthis : ofType "ipv4" a = true := by simp [ofType, hipv4]
      rw [List.filter_cons_of_pos hthis, List.filter_cons_of_neg (by simp [hnot]),
        List.getLast?_cons]
      simp only [readAddress, if_pos hipv4]
      refine ⟨?_, trivial, trivial⟩
      cases (addresses.filter (ofType "ipv4")).getLast? with
      | none => rfl
      | some b => rfl
    · have hnot : ofType "ipv4" a = false := by simp [ofType, hipv4]
      rw [List.filter_cons_of_neg (by simp [hnot])]
      by_cases hmac : a.get "addrtype" = some "mac"
      · have hthis : ofType "mac" a = true := by simp [ofType, hmac]
        rw [List.filter_cons_of_pos hthis, List.getLast?_cons]
        simp only [readAddress, if_neg hipv4, if_pos hmac]
        refine ⟨trivial, ?_, ?_⟩
        · cases (addresses.filter (ofType "mac")).getLast? with
          | none => rfl
          | some b => rfl
        · cases (addresses.filter (ofType "mac")).getLast? with
          | none => rfl
          | some b => rfl
      · have hother : ofType "mac" a = false := by simp [ofType, hmac]
        rw [List.filter_cons_of_neg (by simp [hother])]
        simp only [readAddress, if_neg hipv4, if_neg hmac, and_self]

/-- The address of the host, before an empty one is left out. -/
theorem ip_eq (host : Element) : ((host.findall "address").foldl readAddress {}).ip =
    (addressesOf "ipv4" host).getLast?.bind (Element.get "addr") := by
  rw [(foldl_readAddress _ _).1]
  unfold addressesOf
  cases ((host.findall "address").filter (ofType "ipv4")).getLast? with
  | none => rfl
  | some a => rfl

/-- The address with its vendor, from one element. -/
theorem mac_cases (host : Element) :
    let found := (host.findall "address").foldl readAddress {}
    (addressesOf "mac" host = [] ∧ found.mac = none ∧ found.macVendor = none) ∨
      ∃ addr ∈ addressesOf "mac" host,
        addr.get "addr" = found.mac ∧ addr.get "vendor" = found.macVendor := by
  intro found
  obtain ⟨-, hmac, hvendor⟩ := foldl_readAddress (host.findall "address") {}
  cases hlast : (addressesOf "mac" host).getLast? with
  | none =>
    unfold addressesOf at hlast
    rw [hlast] at hmac hvendor
    exact .inl ⟨List.getLast?_eq_none_iff.mp hlast, hmac, hvendor⟩
  | some addr =>
    have hmem : addr ∈ addressesOf "mac" host := List.mem_of_getLast? hlast
    unfold addressesOf at hlast
    rw [hlast] at hmac hvendor
    exact .inr ⟨addr, hmem, hmac.symm, hvendor.symm⟩

theorem portService_ok {port : Element} {s : PortService} (h : portService port = .ok s) :
    Reports port s := by
  obtain ⟨n, hn, hpure⟩ := bind_eq_ok.mp h
  cases hpure
  exact ⟨hn, rfl, rfl, rfl, rfl⟩

theorem mapM_portService_ok {ports : List Element} {services : List PortService}
    (h : ports.mapM portService = .ok services) : List.Forall₂ Reports ports services := by
  induction ports generalizing services with
  | nil =>
    cases h
    exact .nil
  | cons port ports ih =>
    rw [List.mapM_cons] at h
    obtain ⟨s, hs, hrest⟩ := bind_eq_ok.mp h
    obtain ⟨ss, hss, hpure⟩ := bind_eq_ok.mp hrest
    cases hpure
    exact .cons (portService_ok hs) (ih hss)

theorem numbers_of_reports {ports : List Element} {services : List PortService}
    (h : List.Forall₂ Reports ports services) : ∀ port ∈ ports, ∃ n, portNumber port = .ok n := by
  induction h with
  | nil => exact fun port hport => absurd hport List.not_mem_nil
  | @cons port s ports services hs _ ih =>
    intro p hp
    rcases List.mem_cons.mp hp with rfl | hp
    · exact ⟨s.port, hs.number⟩
    · exact ih p hp

theorem exists_mapM_portService {ports : List Element}
    (h : ∀ port ∈ ports, ∃ n, portNumber port = .ok n) :
    ∃ services, ports.mapM portService = .ok services := by
  induction ports with
  | nil => exact ⟨[], rfl⟩
  | cons port ports ih =>
    obtain ⟨n, hn⟩ := h port List.mem_cons_self
    obtain ⟨services, hservices⟩ := ih fun p hp => h p (List.mem_cons_of_mem port hp)
    have hport : ∃ s, portService port = .ok s := by
      unfold portService
      rw [hn]
      exact ⟨_, rfl⟩
    obtain ⟨s, hs⟩ := hport
    refine ⟨s :: services, ?_⟩
    rw [List.mapM_cons, hs, hservices]
    rfl

theorem isUp_of_live {host : Element} (h : live host = true) : isUp host = true :=
  (Bool.and_eq_true_iff.mp h).1

/-- A host is left out if it is not up, or its last address of type `ipv4` is empty or missing. -/
theorem parseHost_of_no_ip {host : Element}
    (h : isUp host = false ∨ ∀ ip, ip ≠ "" →
      (addressesOf "ipv4" host).getLast?.bind (Element.get "addr") ≠ some ip) :
    parseHost host = .ok none := by
  unfold parseHost
  cases hup : isUp host with
  | false => rfl
  | true =>
    have hno := h.resolve_left (by rw [hup]; exact Bool.noConfusion)
    have hip : ((host.findall "address").foldl readAddress {}).ip.filter (· ≠ "") = none := by
      rw [ip_eq, Option.filter_eq_none_iff]
      intro ip hsome
      by_cases hempty : ip = ""
      · simp [hempty]
      · exact absurd hsome (hno ip hempty)
    simp only [Bool.not_true, Bool.false_eq_true, if_false, hip]

/-- A host that is returned is live, readable, and described by what is returned. -/
theorem parseHost_some {host : Element} {d : DiscoveredHost}
    (h : parseHost host = .ok (some d)) :
    live host = true ∧ Readable host ∧ Describes host d := by
  unfold parseHost at h
  cases hup : isUp host with
  | false => simp [hup] at h
  | true =>
    simp only [hup, Bool.not_true, Bool.false_eq_true, if_false] at h
    cases hip : ((host.findall "address").foldl readAddress {}).ip.filter (· ≠ "") with
    | none =>
      rw [hip] at h
      cases h
    | some ip =>
      rw [hip] at h
      obtain ⟨services, hservices, hpure⟩ := bind_eq_ok.mp h
      cases hpure
      obtain ⟨hsome, hne⟩ := Option.filter_eq_some_iff.mp hip
      rw [ip_eq] at hsome
      obtain ⟨addr, hlast, haddr⟩ := Option.bind_eq_some_iff.mp hsome
      have hmem : addr ∈ addressesOf "ipv4" host := List.mem_of_getLast? hlast
      have hreports := mapM_portService_ok hservices
      refine ⟨?_, ⟨⟨ip, of_decide_eq_true hne, hsome⟩, numbers_of_reports hreports⟩, ?_⟩
      · have hsomeAddress : (addressesOf "ipv4" host).isEmpty = false :=
          List.isEmpty_eq_false_iff.mpr (List.ne_nil_of_mem hmem)
        simp [live, hup, hsomeAddress]
      · exact ⟨⟨addr, List.mem_append_left _ hmem, haddr⟩, mac_cases host, rfl, hreports⟩

/-- A host that is up and readable is returned. -/
theorem exists_parseHost {host : Element} (hup : isUp host = true) (h : Readable host) :
    ∃ d, parseHost host = .ok (some d) := by
  obtain ⟨ip, hne, hip⟩ := h.ip
  obtain ⟨services, hservices⟩ := exists_mapM_portService h.ports
  have hfilter : ((host.findall "address").foldl readAddress {}).ip.filter (· ≠ "") = some ip := by
    rw [ip_eq, hip]
    exact Option.filter_eq_some_iff.mpr ⟨rfl, decide_eq_true hne⟩
  unfold parseHost
  simp only [hup, Bool.not_true, Bool.false_eq_true, if_false, hfilter, hservices]
  exact ⟨_, rfl⟩

/-! ## The whole document -/

/-- The loop over the hosts is the turn of each of them. -/
theorem foldlM_parseHost {hosts : List Element} {acc result : List DiscoveredHost} :
    hosts.foldlM (fun hosts host => do return hosts ++ (← parseHost host).toList) acc =
        .ok result ↔
      ∃ turns, List.Forall₂ (fun host turn => parseHost host = .ok turn) hosts turns ∧
        result = acc ++ turns.reduceOption := by
  induction hosts generalizing acc with
  | nil =>
    constructor
    · intro h
      cases h
      exact ⟨[], .nil, by simp⟩
    · rintro ⟨turns, hturns, rfl⟩
      cases hturns
      exact congrArg Except.ok (List.append_nil acc).symm
  | cons host hosts ih =>
    have hsplit : ∀ turn : Option DiscoveredHost, ∀ turns,
        acc ++ (turn :: turns).reduceOption = acc ++ turn.toList ++ turns.reduceOption := by
      intro turn turns
      cases turn with
      | none => simp
      | some d => simp
    rw [List.foldlM_cons]
    constructor
    · intro h
      obtain ⟨acc', hacc, hrest⟩ := bind_eq_ok.mp h
      obtain ⟨turn, hturn, hpure⟩ := bind_eq_ok.mp hacc
      cases hpure
      obtain ⟨turns, hturns, rfl⟩ := ih.mp hrest
      exact ⟨turn :: turns, .cons hturn hturns, (hsplit turn turns).symm⟩
    · rintro ⟨turns, hturns, rfl⟩
      cases hturns with
      | @cons _ turn _ turns hturn hturns =>
        rw [hturn]
        exact ih.mpr ⟨turns, hturns, hsplit turn turns⟩

/-- Where all live hosts are readable, they are returned and nothing else. -/
theorem exists_turns {hosts : List Element} (h : ∀ host ∈ hosts, live host → Readable host) :
    ∃ turns, List.Forall₂ (fun host turn => parseHost host = .ok turn) hosts turns ∧
      List.Forall₂ Describes (hosts.filter live) turns.reduceOption := by
  induction hosts with
  | nil => exact ⟨[], .nil, .nil⟩
  | cons host hosts ih =>
    obtain ⟨turns, hturns, hdescribes⟩ := ih fun x hx => h x (List.mem_cons_of_mem host hx)
    by_cases hlive : live host = true
    · obtain ⟨d, hd⟩ := exists_parseHost (isUp_of_live hlive) (h host List.mem_cons_self hlive)
      refine ⟨some d :: turns, .cons hd hturns, ?_⟩
      rw [List.filter_cons_of_pos hlive, List.reduceOption_cons_of_some]
      exact .cons (parseHost_some hd).2.2 hdescribes
    · have hskip : parseHost host = .ok none := by
        refine parseHost_of_no_ip ?_
        by_cases hup : isUp host = true
        · refine .inr fun ip _ hlast => hlive ?_
          obtain ⟨addr, haddr, -⟩ := Option.bind_eq_some_iff.mp hlast
          have hsome : (addressesOf "ipv4" host).isEmpty = false :=
            List.isEmpty_eq_false_iff.mpr (List.ne_nil_of_mem (List.mem_of_getLast? haddr))
          simp [live, hup, hsome]
        · exact .inl (Bool.eq_false_iff.mpr hup)
      refine ⟨none :: turns, .cons hskip hturns, ?_⟩
      rw [List.filter_cons_of_neg hlive, List.reduceOption_cons_of_none]
      exact hdescribes

/-- What is returned comes from live hosts, and as many are returned as are live only if all of
these are readable. -/
theorem readable_of_length {hosts : List Element} {turns : List (Option DiscoveredHost)}
    (h : List.Forall₂ (fun host turn => parseHost host = .ok turn) hosts turns) :
    turns.reduceOption.length ≤ (hosts.filter live).length ∧
      ((hosts.filter live).length = turns.reduceOption.length →
        ∀ host ∈ hosts, live host → Readable host) := by
  induction h with
  | nil => exact ⟨Nat.le_refl _, fun _ host hhost => absurd hhost List.not_mem_nil⟩
  | @cons host turn hosts turns hturn _ ih =>
    obtain ⟨hle, hall⟩ := ih
    cases turn with
    | none =>
      rw [List.reduceOption_cons_of_none]
      by_cases hlive : live host = true
      · rw [List.filter_cons_of_pos hlive, List.length_cons]
        exact ⟨by omega, fun heq => by omega⟩
      · rw [List.filter_cons_of_neg hlive]
        refine ⟨hle, fun heq x hx hx' => ?_⟩
        rcases List.mem_cons.mp hx with rfl | hx
        · exact absurd hx' hlive
        · exact hall heq x hx hx'
    | some d =>
      obtain ⟨hlive, hreadable, -⟩ := parseHost_some hturn
      rw [List.reduceOption_cons_of_some, List.filter_cons_of_pos hlive, List.length_cons,
        List.length_cons]
      refine ⟨by omega, fun heq x hx hx' => ?_⟩
      rcases List.mem_cons.mp hx with rfl | hx
      · exact hreadable
      · exact hall (by omega) x hx hx'

/-- The hosts that are returned are the live ones, each as it is described, if and only if every
live host has an address of type `ipv4`, of which the last is not empty, and numbers for its open
ports. -/
theorem parse_complete_iff (root : Element) :
    Complete root ↔ ∀ host ∈ root.findall "host", live host → Readable host := by
  constructor
  · rintro ⟨hosts, hparse, hdescribes⟩
    obtain ⟨turns, hturns, rfl⟩ := foldlM_parseHost.mp hparse
    exact (readable_of_length hturns).2 hdescribes.length_eq
  · intro h
    obtain ⟨turns, hturns, hdescribes⟩ := exists_turns h
    exact ⟨turns.reduceOption, foldlM_parseHost.mpr ⟨turns, hturns, rfl⟩, hdescribes⟩

/-! ## A host with an address of the other family -/

/-- `<nmaprun><host><status state="up"/><address addr="2001:db8::7" addrtype="ipv6"/></host>
</nmaprun>` -/
def ipv6Only : Element :=
  .mk "nmaprun" [] none [.mk "host" [] none [.mk "status" [("state", "up")] none [],
    .mk "address" [("addr", "2001:db8::7"), ("addrtype", "ipv6")] none []]]

/-- It is up and has an address, and is lost. -/
theorem ipv6_host_lost :
    ((ipv6Only.findall "host").map live = [true]) ∧ parseHosts ipv6Only = .ok [] ∧
      ¬ Complete ipv6Only := by
  have hlive : (ipv6Only.findall "host").map live = [true] := by decide +kernel
  have hparse : parseHosts ipv6Only = .ok [] := by rfl
  refine ⟨hlive, hparse, ?_⟩
  rintro ⟨hosts, hhosts, hdescribes⟩
  rw [hparse] at hhosts
  cases hhosts
  have hlength := hdescribes.length_eq
  revert hlength
  decide +kernel

end Kepryx.NmapXml
