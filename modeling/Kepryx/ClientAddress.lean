import Kepryx.RateLimit

/-!
# The address of a client

A proxy in front of the application appends the address it has seen to `X-Forwarded-For`. The
application reads the first element of that header, which is the client's own as soon as the
client sends one.
-/
namespace Kepryx.ClientAddress
open Kepryx.Accounts Kepryx.IpNetworks Kepryx.ManagementNetwork Kepryx.RateLimit

/-- The header that the proxy passes on, from what the client sent and the address it saw. -/
def appended (observed : String) : Option String → String
  | none => observed
  | some supplied => supplied ++ ", " ++ observed

/-- A request that reaches the application through the proxy. -/
def behindProxy (peer observed : String) (supplied : Option String) : Origin where
  client := some peer
  realIp := none
  forwardedFor := some (appended observed supplied)

variable (T : Texts) (boundary : Boundary)

/-- The peer is in a trusted range. -/
def Trusted (peer : String) : Prop :=
  ∃ a, T.address peer = some a ∧ ∃ cidr ∈ boundary.trustedProxyCidrs, ∃ n,
    T.network false cidr = some n ∧ n.contains a = true

/-- The headers of the peer count: it is in a trusted range, and each text before that range is
a network. -/
def Honoured (peer : String) : Prop :=
  peer ≠ "unknown" ∧ anyNetwork T (T.address peer) boundary.trustedProxyCidrs = some true

instance (peer : String) : Decidable (Honoured T boundary peer) :=
  inferInstanceAs (Decidable (_ ∧ _))

/-- The address that the first element of the forwarding header spells. -/
def leftmost (o : Origin) : Option Address :=
  o.forwarded.bind fun forwarded => T.address (firstHop forwarded)

/-- The first elements of two headers lead to one address: they spell the same one, or neither
spells any, or only one does and it is the peer's. -/
def Agree (peer : String) : Option Address → Option Address → Prop
  | some a, some b => a = b
  | some a, none => T.addressText a = peer
  | none, some b => T.addressText b = peer
  | none, none => True

/-- Nothing that rests on the address tells the two requests apart. -/
structure Unsteered (o o' : Origin) : Prop where
  address : getRequestIp T boundary o = getRequestIp T boundary o'
  management : ensureManagementNetwork T boundary o = ensureManagementNetwork T boundary o'
  bucket : ∀ d user, bucketKey T boundary d ⟨user, o⟩ = bucketKey T boundary d ⟨user, o'⟩

variable {T boundary}

theorem mem_of_anyNetwork {a : Option Address} {cidrs : List String}
    (h : anyNetwork T a cidrs = some true) : ∃ b, a = some b ∧ ∃ cidr ∈ cidrs, ∃ n,
      T.network false cidr = some n ∧ n.contains b = true := by
  induction cidrs with
  | nil => cases h
  | cons cidr cidrs ih =>
    cases a with
    | none => cases h
    | some b =>
      cases hn : T.network false cidr with
      | none => simp [anyNetwork, hn] at h
      | some n =>
        by_cases hb : n.contains b
        · exact ⟨b, rfl, cidr, List.mem_cons_self, n, hn, hb⟩
        · have hrest : anyNetwork T (some b) cidrs = some true := by
            simpa [anyNetwork, hn, hb] using h
          obtain ⟨b', hb', cidr', hcidr', hin⟩ := ih hrest
          exact ⟨b', hb', cidr', List.mem_cons_of_mem cidr hcidr', hin⟩

theorem Honoured.trusted {peer : String} (h : Honoured T boundary peer) :
    Trusted T boundary peer :=
  mem_of_anyNetwork h.2

/-- Without a trusted peer the headers do not count. -/
theorem getRequestIp_of_not_honoured {o : Origin} {peer : String} (hpeer : o.client = some peer)
    (h : ¬ Honoured T boundary peer) : getRequestIp T boundary o = peer := by
  unfold getRequestIp
  rw [hpeer, Option.getD_some]
  cases o.forwarded with
  | none => rfl
  | some forwarded =>
    by_cases hunknown : peer = "unknown"
    · exact if_pos hunknown
    · have hany : anyNetwork T (T.address peer) boundary.trustedProxyCidrs ≠ some true :=
        fun hany => h ⟨hunknown, hany⟩
      dsimp only
      rw [if_neg hunknown]
      split
      · contradiction
      · rfl

theorem getRequestIp_of_honoured {o : Origin} {peer : String} (hpeer : o.client = some peer)
    (h : Honoured T boundary peer) :
    getRequestIp T boundary o = ((leftmost T o).map T.addressText).getD peer := by
  obtain ⟨hknown, hany⟩ := h
  unfold getRequestIp leftmost
  rw [hpeer, Option.getD_some]
  cases o.forwarded with
  | none => rfl
  | some forwarded =>
    dsimp only
    rw [if_neg hknown, hany, Option.bind_some]
    cases T.address (firstHop forwarded) with
    | none => rfl
    | some a => rfl

/-- What was read is told apart by its printed form. -/
theorem eq_of_addressText {s t : String} {a b : Address} (ha : T.address s = some a)
    (hb : T.address t = some b) (h : T.addressText a = T.addressText b) : a = b := by
  have hread := T.address_text ha
  rw [h, T.address_text hb] at hread
  exact (Option.some.inj hread).symm

theorem exists_of_leftmost {o : Origin} {a : Address} (h : leftmost T o = some a) :
    ∃ s, T.address s = some a := by
  obtain ⟨forwarded, -, ha⟩ := Option.bind_eq_some_iff.mp h
  exact ⟨_, ha⟩

/-- Behind a trusted peer two requests come from one address exactly when the first elements of
their headers agree. -/
theorem getRequestIp_eq_iff {o o' : Origin} {peer : String} (hpeer : o.client = some peer)
    (hpeer' : o'.client = some peer) (h : Honoured T boundary peer) :
    getRequestIp T boundary o = getRequestIp T boundary o' ↔
      Agree T peer (leftmost T o) (leftmost T o') := by
  rw [getRequestIp_of_honoured hpeer h, getRequestIp_of_honoured hpeer' h]
  cases hleft : leftmost T o with
  | none =>
    cases leftmost T o' with
    | none => exact iff_of_true rfl trivial
    | some b => exact eq_comm
  | some a =>
    cases hleft' : leftmost T o' with
    | none => exact Iff.rfl
    | some b =>
      obtain ⟨s, hs⟩ := exists_of_leftmost hleft
      obtain ⟨t, ht⟩ := exists_of_leftmost hleft'
      exact ⟨eq_of_addressText hs ht, congrArg T.addressText⟩

/-- The management check and the rate limits see of an origin its address only. -/
theorem unsteered_iff {o o' : Origin} : Unsteered T boundary o o' ↔
    getRequestIp T boundary o = getRequestIp T boundary o' := by
  refine ⟨Unsteered.address, fun h => ⟨h, ?_, fun d user => ?_⟩⟩
  · rw [ensureManagementNetwork, h, ensureManagementNetwork]
  · rw [bucketKey, bucketKey, h]

/-- A peer that is not trusted is the address whatever headers it sends. Behind a proxy, two
requests that differ in what the client supplied are not told apart if and only if the headers
of the proxy do not count or the first elements of the two headers agree. -/
theorem client_address_iff (T : Texts) (boundary : Boundary) (peer : String) :
    (∀ o : Origin, o.client = some peer → ¬ Trusted T boundary peer →
      getRequestIp T boundary o = peer) ∧
    ∀ observed supplied supplied',
      Unsteered T boundary (behindProxy peer observed supplied)
          (behindProxy peer observed supplied') ↔
        (Honoured T boundary peer → Agree T peer (leftmost T (behindProxy peer observed supplied))
          (leftmost T (behindProxy peer observed supplied'))) := by
  constructor
  · intro o hpeer htrusted
    exact getRequestIp_of_not_honoured hpeer fun h => htrusted h.trusted
  · intro observed supplied supplied'
    rw [unsteered_iff]
    by_cases h : Honoured T boundary peer
    · rw [getRequestIp_eq_iff rfl rfl h]
      exact ⟨fun hagree _ => hagree, fun hagree => hagree h⟩
    · rw [getRequestIp_of_not_honoured rfl h, getRequestIp_of_not_honoured rfl h]
      exact iff_of_true rfl fun hhonoured => absurd hhonoured h

/-! ## A client that names an address of the management network -/

/-- The address 172.29.0.2 of the proxy. -/
def proxy : Address := ⟨.v4, 2887581698, none, by decide⟩

/-- The address 10.0.0.7 of an administrator. -/
def desk : Address := ⟨.v4, 167772167, none, by decide⟩

/-- The address 203.0.113.6 of the client. -/
def stranger : Address := ⟨.v4, 3405803782, none, by decide⟩

/-- The network 172.29.0.2/32. -/
def proxyNetwork : Network := ⟨proxy, 32, by decide, by decide⟩

/-- The texts of the three addresses and of the networks of the proxy and of the desk. -/
def proxyTexts : Texts where
  address s :=
    if s = "172.29.0.2" then some proxy
    else if s = "10.0.0.7" then some desk
    else if s = "203.0.113.6" then some stranger
    else none
  network _ s :=
    if s = "172.29.0.2/32" then some proxyNetwork
    else if s = "10.0.0.0/8" then some Network.privateBlock
    else none
  addressText a :=
    if a = proxy then "172.29.0.2" else if a = desk then "10.0.0.7" else "203.0.113.6"
  networkText n := if n = proxyNetwork then "172.29.0.2/32" else "10.0.0.0/8"
  address_text h := by
    have hdesk : desk ≠ proxy := by decide
    have hproxy : stranger ≠ proxy := by decide
    have hstranger : stranger ≠ desk := by decide
    split at h
    · cases h
      simp
    split at h
    · cases h
      simp [hdesk]
    split at h
    · cases h
      simp [hproxy, hstranger]
    · cases h
  network_text h _ := by
    have hne : Network.privateBlock ≠ proxyNetwork := by decide
    split at h
    · cases h
      simp
    split at h
    · cases h
      simp [hne]
    · cases h
  address_networkText n := by
    split <;> rfl

def proxied : Boundary := ⟨["172.29.0.2/32"], ["10.0.0.0/8"]⟩

/-- The stranger is refused by the management check, and let through where it sends the header
`X-Forwarded-For: 10.0.0.7`. -/
theorem supplied_address_trusted :
    Trusted proxyTexts proxied "172.29.0.2" ∧
      getRequestIp proxyTexts proxied (behindProxy "172.29.0.2" "203.0.113.6" none) =
        "203.0.113.6" ∧
      getRequestIp proxyTexts proxied (behindProxy "172.29.0.2" "203.0.113.6" (some "10.0.0.7")) =
        "10.0.0.7" ∧
      ensureManagementNetwork proxyTexts proxied (behindProxy "172.29.0.2" "203.0.113.6" none) =
        .error ⟨403, "Management network access required"⟩ ∧
      ensureManagementNetwork proxyTexts proxied
        (behindProxy "172.29.0.2" "203.0.113.6" (some "10.0.0.7")) = .ok () ∧
      ¬ Unsteered proxyTexts proxied (behindProxy "172.29.0.2" "203.0.113.6" none)
        (behindProxy "172.29.0.2" "203.0.113.6" (some "10.0.0.7")) := by
  have hhonest : getRequestIp proxyTexts proxied (behindProxy "172.29.0.2" "203.0.113.6" none) =
      "203.0.113.6" := by decide +kernel
  have hsupplied : getRequestIp proxyTexts proxied
      (behindProxy "172.29.0.2" "203.0.113.6" (some "10.0.0.7")) = "10.0.0.7" := by
    decide +kernel
  refine ⟨?_, hhonest, hsupplied, by decide +kernel, by decide +kernel, fun h => ?_⟩
  · exact Honoured.trusted (by decide +kernel)
  · have heq := h.address
    rw [hhonest, hsupplied] at heq
    revert heq
    decide

end Kepryx.ClientAddress
