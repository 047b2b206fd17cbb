import Kepryx.ConnectorSecrets
import Kepryx.RequirementPatches

/-!
# Other spellings of a refused host

A resolver takes a name in capitals, with a dot behind it, and an address in octal, in
hexadecimal, as one number or mapped into the second family. The check of a connector URL reads
a host strictly and takes what it cannot read for a name, so that some of these spellings pass.
-/
namespace Kepryx.HostSpellings
open Kepryx.IpNetworks (Address)
open Kepryx.IpLiterals Kepryx.ConnectorUrls Kepryx.ConnectorSecrets

/-! ## What a host denotes -/

/-- The address of the first family that a mapped address stands for. -/
def mapped (a : Address) : Option Address :=
  if a.version = .v6 then (ipv4Mapped a.value).bind (address .v4 none) else none

def inetAddress (text : List Char) : Option Address := (inetAton text).bind (address .v4 none)

/-- An address a text is read as: strictly, as `inet_aton` reads it, or mapped. -/
def Reads (text : List Char) (a : Address) : Prop :=
  ipAddress text = some a ∨ inetAddress text = some a ∨
    ∃ b, ipAddress text = some b ∧ mapped b = some a

variable (settings : Settings)

/-- The address of a metadata endpoint, or one that is neither global nor in a network that the
settings list. -/
def Refused (a : Address) : Prop :=
  (∃ text ∈ blockedHosts, ∃ b, ipAddress text = some b ∧ b.version = a.version ∧
    b.value = a.value) ∨
  (isGlobal a = false ∧ ∀ n, some n ∈ settings.connectorAllowedCidrs → n.contains a = false)

/-- A blocked name, or a text that is read as a refused address. -/
def Names (text : List Char) : Prop :=
  text ∈ blockedHosts ∨ ∃ a, Reads text a ∧ Refused settings a

/-- A host that is, in lower case and perhaps without a trailing dot, a blocked name or a text
of a refused address. -/
def SpellsRefused (host : List Char) : Prop :=
  Names settings (lower host) ∨ ∃ text, lower host = text ++ ['.'] ∧ Names settings text

/-- The host of a URL as it is written. -/
def urlHost (U : Unicode) (value : List Char) : Option (List Char) :=
  (urlparse U value).map fun parsed => writtenHost parsed.netloc

/-- The spellings that the strict reader does not see through name nothing refused: a dot behind
a host that is no strict text, an address of the first family that is read by `inet_aton` alone,
and a mapped address. -/
structure PlainlySpelled (host : List Char) : Prop where
  dot : ipAddress (lower host) = none → ∀ text, lower host = text ++ ['.'] → ¬ Names settings text
  lax : ipAddress (lower host) = none → ∀ a, inetAddress (lower host) = some a →
    ¬ Refused settings a
  mapped : ∀ b a, ipAddress (lower host) = some b → mapped b = some a → ¬ Refused settings a

/-! ## Lower case -/

theorem lower_append (s t : List Char) : lower (s ++ t) = lower s ++ lower t := List.map_append

theorem lowerChar_lowerChar (c : Char) :
    RequirementPatches.lowerChar (RequirementPatches.lowerChar c) =
      RequirementPatches.lowerChar c := by
  by_cases hkelvin : c = '\u212a'
  · rw [hkelvin]
    decide
  by_cases hupper : c.isUpper
  · have hlower := RequirementPatches.isLower_iff.mp (RequirementPatches.isLower_toLower hupper)
    have hc : RequirementPatches.lowerChar c = c.toLower := if_neg hkelvin
    rw [hc]
    refine RequirementPatches.lowerChar_of_not_isUpper ?_ ?_
    · intro he
      rw [he] at hlower
      revert hlower
      decide
    · rw [RequirementPatches.isUpper_iff]
      omega
  · rw [RequirementPatches.lowerChar_of_not_isUpper hkelvin hupper,
      RequirementPatches.lowerChar_of_not_isUpper hkelvin hupper]

theorem lower_lower (text : List Char) : lower (lower text) = lower text := by
  have hmap (text : List Char) : lower text = text.map RequirementPatches.lowerChar := rfl
  rw [hmap, hmap, List.map_map]
  exact List.map_congr_left fun c _ => lowerChar_lowerChar c

/-- The host that is checked is the written one in lower case. -/
theorem lower_hostname {parsed : SplitResult} {hostname : List Char}
    (h : parsed.hostname = some hostname) : lower hostname = lower (writtenHost parsed.netloc) := by
  unfold SplitResult.hostname at h
  split at h
  · cases h
  · rw [← Option.some.inj h, lower_append, lower_lower, ← lower_append,
      List.takeWhile_append_dropWhile]

/-! ## What the check lets through -/

/-- Global, or in a network that the settings list. -/
def Authorised (settings : Settings) (a : Address) : Prop :=
  isGlobal a = true ∨ ∃ n, some n ∈ settings.connectorAllowedCidrs ∧ n.contains a = true

variable {settings} {U : Unicode} {field : String}

theorem explicitlyAllowed_ok {a : Address} {cidrs : List (Option IpNetworks.Network)}
    (h : explicitlyAllowed a cidrs = .ok true) : ∃ n, some n ∈ cidrs ∧ n.contains a = true := by
  induction cidrs with
  | nil => cases h
  | cons cidr cidrs ih =>
    cases cidr with
    | none => cases h
    | some n =>
      rw [explicitlyAllowed] at h
      split_ifs at h with hn
      · exact ⟨n, List.mem_cons_self, hn⟩
      · obtain ⟨m, hm, hcontains⟩ := ih h
        exact ⟨m, List.mem_cons_of_mem _ hm, hcontains⟩

theorem validateAddress_ok {a : Address} (h : validateAddress settings field a = .ok ()) :
    Authorised settings a := by
  unfold validateAddress at h
  split_ifs at h with hglobal
  · exact .inl hglobal
  · obtain ⟨allowed, hallowed, h⟩ := Results.bind_eq_ok.mp h
    cases allowed with
    | true => exact .inr (explicitlyAllowed_ok hallowed)
    | false => cases h

/-- A URL that passes has a host that is not blocked, and that is authorised if it is read as an
address. -/
theorem validateUrl_ok {value : List Char} (h : validateUrl U settings field value = .ok ()) :
    ∃ host, urlHost U value = some host ∧ lower host ∉ blockedHosts ∧
      ∀ a, ipAddress (lower host) = some a → Authorised settings a := by
  unfold validateUrl at h
  split at h
  · cases h
  next parsed hparsed =>
  dsimp only at h
  split at h
  · cases h
  next hostname hhostname =>
  rw [lower_hostname hhostname] at h
  split_ifs at h with _ hblocked
  refine ⟨writtenHost parsed.netloc, by rw [urlHost, hparsed, Option.map_some], hblocked, ?_⟩
  intro a ha
  rw [ha] at h
  exact validateAddress_ok h

/-! ## When no spelling of a refused host passes -/

theorem isGlobal_congr {a b : Address} (hversion : a.version = b.version)
    (hvalue : a.value = b.value) : isGlobal a = isGlobal b := by
  rw [isGlobal, isGlobal, hversion, hvalue]

theorem contains_congr {a b : Address} (hversion : a.version = b.version)
    (hvalue : a.value = b.value) (n : IpNetworks.Network) : n.contains a = n.contains b := by
  rw [IpNetworks.Network.contains, IpNetworks.Network.contains, hversion, hvalue]

theorem mapped_congr {a b : Address} (hversion : a.version = b.version)
    (hvalue : a.value = b.value) : mapped a = mapped b := by
  rw [mapped, mapped, hversion, hvalue]

/-- A scope does not matter. -/
theorem refused_congr {a b : Address} (hversion : a.version = b.version)
    (hvalue : a.value = b.value) : Refused settings a ↔ Refused settings b := by
  simp only [Refused, isGlobal_congr hversion hvalue, contains_congr hversion hvalue, hversion,
    hvalue]

theorem blockedHosts_colon : ∀ text ∈ blockedHosts, ':' ∉ text := by decide

/-- What the check lets through as an address is not refused. -/
theorem not_refused {text : List Char} {a : Address} (ha : ipAddress text = some a)
    (hblocked : text ∉ blockedHosts) (hauthorised : Authorised settings a) :
    ¬ Refused settings a := by
  rintro (⟨blocked, hmem, b, hb, hversion, hvalue⟩ | ⟨hglobal, hnone⟩)
  · rcases ipAddress_cases hb with ⟨hv4, hread⟩ | ⟨-, hread⟩
    · rcases ipAddress_cases ha with ⟨-, hread'⟩ | ⟨hv6, -⟩
      · rw [hvalue] at hread
        exact hblocked (ipv4Int_inj hread hread' ▸ hmem)
      · rw [← hversion, hv4] at hv6
        cases hv6
    · exact blockedHosts_colon blocked hmem (ipv6Address_mem_colon hread)
  · rcases hauthorised with htrue | ⟨n, hn, hcontains⟩
    · rw [hglobal] at htrue
      cases htrue
    · rw [hnone n hn] at hcontains
      cases hcontains

/-- The lax reader reads a strict text as the same address, or not at all. -/
theorem inetAddress_of_ipAddress {text : List Char} {a b : Address} (hb : ipAddress text = some b)
    (ha : inetAddress text = some a) : a.version = b.version ∧ a.value = b.value := by
  obtain ⟨n, hn, ha⟩ := Option.bind_eq_some_iff.mp ha
  obtain ⟨hversion, hvalue⟩ := address_eq_some ha
  rcases ipAddress_cases hb with ⟨hv4, hread⟩ | ⟨-, hread⟩
  · rw [inetAton_of_ipv4Int hread] at hn
    exact ⟨hversion.trans hv4.symm, hvalue.trans (Option.some.inj hn).symm⟩
  · rw [inetAton_colon (ipv6Address_mem_colon hread)] at hn
    cases hn

section Passed
variable {host : List Char} (hblocked : lower host ∉ blockedHosts)
  (hauthorised : ∀ a, ipAddress (lower host) = some a → Authorised settings a)
include hblocked hauthorised

/-- A host that passed names nothing refused, as far as it is spelled plainly. -/
theorem not_names (h : PlainlySpelled settings host) : ¬ Names settings (lower host) := by
  rintro (hmem | ⟨a, hread | hread | ⟨b, hb, hmapped⟩, hrefused⟩)
  · exact hblocked hmem
  · exact not_refused hread hblocked (hauthorised a hread) hrefused
  · cases hstrict : ipAddress (lower host) with
    | none => exact h.lax hstrict a hread hrefused
    | some b =>
      obtain ⟨hversion, hvalue⟩ := inetAddress_of_ipAddress hstrict hread
      exact not_refused hstrict hblocked (hauthorised b hstrict)
        ((refused_congr hversion hvalue).mp hrefused)
  · exact h.mapped b a hb hmapped hrefused

/-- Nor does it without a trailing dot. -/
theorem not_names_dot (h : PlainlySpelled settings host) {text : List Char}
    (hdot : lower host = text ++ ['.']) : ¬ Names settings text := by
  cases hstrict : ipAddress (lower host) with
  | none => exact h.dot hstrict text hdot
  | some b =>
    -- the dot ends a scope, so that the text before it is read as the same address
    have hgood := not_refused hstrict hblocked (hauthorised b hstrict)
    have hcolon : ':' ∈ text := by
      rcases ipAddress_cases hstrict with ⟨-, hread⟩ | ⟨-, hread⟩
      · rw [hdot, ipv4Int_dot] at hread
        cases hread
      · have hmem := ipv6Address_mem_colon hread
        rw [hdot] at hmem
        simpa using hmem
    have hsame {a : Address} (ha : ipAddress text = some a) :
        a.version = b.version ∧ a.value = b.value := by
      obtain ⟨hb6, ha6, hvalue⟩ := ipAddress_dot (hdot ▸ hstrict) ha
      exact ⟨ha6.trans hb6.symm, hvalue⟩
    rintro (hmem | ⟨a, hread | hread | ⟨a', ha', hmapped⟩, hrefused⟩)
    · exact blockedHosts_colon text hmem hcolon
    · obtain ⟨hversion, hvalue⟩ := hsame hread
      exact hgood ((refused_congr hversion hvalue).mp hrefused)
    · rw [inetAddress, inetAton_colon hcolon] at hread
      cases hread
    · obtain ⟨hversion, hvalue⟩ := hsame ha'
      rw [mapped_congr hversion hvalue] at hmapped
      exact h.mapped b a hstrict hmapped hrefused

theorem not_spellsRefused_iff :
    ¬ SpellsRefused settings host ↔ PlainlySpelled settings host := by
  constructor
  · intro h
    refine ⟨fun _ text hdot hnames => h (.inr ⟨text, hdot, hnames⟩), fun _ a ha hrefused => ?_,
      fun b a hb ha hrefused => ?_⟩
    · exact h (.inl (.inr ⟨a, .inr (.inl ha), hrefused⟩))
    · exact h (.inl (.inr ⟨a, .inr (.inr ⟨b, hb, ha⟩), hrefused⟩))
  · rintro h (hnames | ⟨text, hdot, hnames⟩)
    · exact not_names hblocked hauthorised h hnames
    · exact not_names_dot hblocked hauthorised h hdot hnames

end Passed

/-- The URL fields of a type of connectors. -/
def urlFields (connectorType : String) : List String :=
  ((schemas.lookup connectorType).map Schema.urls).getD []

/-- No URL of an accepted configuration has a host that spells a refused one, if and only if all
their hosts are spelled plainly. -/
theorem refusedHosts_iff {R : Runtime} {connectorType : String} {config validated : Config}
    (h : validateConnectorConfig R settings connectorType config = .ok validated) :
    (∀ field ∈ urlFields connectorType, ∀ host,
      urlHost R.unicode (urlText R config field) = some host → ¬ SpellsRefused settings host) ↔
    ∀ field ∈ urlFields connectorType, ∀ host,
      urlHost R.unicode (urlText R config field) = some host → PlainlySpelled settings host := by
  obtain ⟨schema, hschema, -, hurls, -⟩ := validate_spec h
  refine forall₂_congr fun field hfield => forall₂_congr fun host hhost => ?_
  have hmem : field ∈ schema.urls := by
    simpa [urlFields, hschema] using hfield
  obtain ⟨host', hhost', hblocked, hauthorised⟩ := validateUrl_ok (hurls field hmem)
  obtain rfl := Option.some.inj (hhost'.symm.trans hhost)
  exact not_spellsRefused_iff hblocked hauthorised

theorem refusedHosts_iff_falcon : ∃ host,
    urlHost plain.unicode (urlText plain falcon "base_url") = some host ∧
      ¬ SpellsRefused strict host := by
  have hwritten : urlHost plain.unicode (urlText plain falcon "base_url") =
      some "falcon.example.test".toList := by decide
  refine ⟨_, hwritten, (refusedHosts_iff falcon_validated).mpr (fun field hfield host hhost => ?_)
    "base_url" (List.mem_singleton_self _) _ hwritten⟩
  obtain rfl : field = "base_url" := List.mem_singleton.mp hfield
  obtain rfl := Option.some.inj (hwritten.symm.trans hhost)
  have hname : ipAddress (lower "falcon.example.test".toList) = none := by decide
  have hlax : inetAddress (lower "falcon.example.test".toList) = none := by decide
  have hend : (lower "falcon.example.test".toList).getLast? = some 't' := by decide
  refine ⟨fun _ text hdot => ?_, fun _ a ha => ?_, fun b a hb => ?_⟩
  · rw [hdot, List.getLast?_concat] at hend
    cases hend
  · rw [hlax] at ha
    cases ha
  · rw [hname] at hb
    cases hb

/-- The metadata endpoint, as one decimal number. -/
def decimalMetadata : Config where
  rows := [("base_url", .str "https://2852039166"), ("client_id", .str "client-id"),
    ("client_secret", .str "top-secret")]
  nodup := falcon.nodup

theorem decimalMetadata_validated :
    validateConnectorConfig plain strict "edr_crowdstrike" decimalMetadata = .ok decimalMetadata :=
  rfl

theorem decimalMetadata_spellsRefused :
    validateConnectorConfig plain strict "edr_crowdstrike" decimalMetadata = .ok decimalMetadata ∧
    ∃ field ∈ urlFields "edr_crowdstrike", ∃ host,
      urlHost plain.unicode (urlText plain decimalMetadata field) = some host ∧
        SpellsRefused strict host := by
  have hhost : urlHost plain.unicode (urlText plain decimalMetadata "base_url") =
      some "2852039166".toList := by decide
  obtain ⟨a, ha⟩ : ∃ a, inetAddress (lower "2852039166".toList) = some a := ⟨_, rfl⟩
  obtain ⟨b, hb⟩ : ∃ b, ipAddress "169.254.169.254".toList = some b := ⟨_, rfl⟩
  refine ⟨decimalMetadata_validated, "base_url", List.mem_singleton_self _, _, hhost,
    .inl (.inr ⟨a, .inr (.inl ha), .inl ⟨_, List.mem_cons_self, b, hb, ?_⟩⟩)⟩
  have hread : (ipAddress "169.254.169.254".toList).map (fun b => (b.version, b.value)) =
      (inetAddress (lower "2852039166".toList)).map fun a => (a.version, a.value) := by decide
  rw [ha, hb, Option.map_some, Option.map_some] at hread
  exact Prod.mk.inj (Option.some.inj hread)

end Kepryx.HostSpellings
