import Mathlib.Algebra.Order.Floor.Ring
import Mathlib.Data.List.Infix
import Mathlib.Data.Rat.Floor
import Kepryx.CompliancePercentages
import Kepryx.Models

/-!
# The rules of the compliance catalog

A rule looks at the record of one asset. Its check decides whether the asset is compliant; the
fields that it names are the evidence, and they also decide between a partial result and a gap.
-/
namespace Kepryx.ComplianceCatalog
open Kepryx.Models Kepryx.CompliancePercentages

/-- A row of `assets` with the one further column that the rules read. -/
structure AssessedAsset extends Asset where
  lastPatch : Option String := none
  deriving DecidableEq, Repr

/-- A value as it stands in the JSON of an evidence item. -/
inductive Observation where
  | null
  | bool (b : Bool)
  | text (s : String)
  | list (xs : List String)
  deriving DecidableEq, Repr

/-- The column of a text that may be null. -/
def Observation.ofText : Option String → Observation
  | none => .null
  | some s => .text s

/-- The characters that `str.strip` removes. -/
def isSpace (c : Char) : Bool :=
  let n := c.toNat
  (9 ≤ n && n ≤ 13) || (28 ≤ n && n ≤ 32) || n = 0x85 || n = 0xa0 || n = 0x1680 ||
    (0x2000 ≤ n && n ≤ 0x200a) || n = 0x2028 || n = 0x2029 || n = 0x202f || n = 0x205f ||
    n = 0x3000

/-- `_has_observation` -/
def hasObservation : Observation → Bool
  | .null => false
  | .bool _ => true
  | .text s => s.toList.any fun c => !isSpace c
  | .list xs => !xs.isEmpty

/-- The columns that the rules name as evidence. -/
inductive Column where
  | name | ip | os | type | softwareStack | controlCoverage | authMethod | lastPatch
  | eolStatus | edrStatus
  deriving DecidableEq, Repr

/-- The name of a column. -/
def Column.text : Column → String
  | .name => "name"
  | .ip => "ip"
  | .os => "os"
  | .type => "type"
  | .softwareStack => "software_stack"
  | .controlCoverage => "control_coverage"
  | .authMethod => "auth_method"
  | .lastPatch => "last_patch"
  | .eolStatus => "eol_status"
  | .edrStatus => "edr_status"

/-- `_json_value(getattr(asset, name, None))` -/
def jsonValue (a : AssessedAsset) : Column → Observation
  | .name => .text a.name
  | .ip => .ofText a.ip
  | .os => .ofText a.os
  | .type => .text a.type
  | .softwareStack => (a.softwareStack.map .list).getD .null
  | .controlCoverage => .text a.controlCoverage
  | .authMethod => .text a.authMethod
  | .lastPatch => .ofText a.lastPatch
  | .eolStatus => .bool a.eolStatus
  | .edrStatus => .ofText a.edrStatus

/-- What `_run_audit` reads of an entry of the catalog. -/
structure ControlRule where
  ruleKey : String
  desc : String
  check : AssessedAsset → Bool
  evidenceFields : List Column

/-! ## The checks -/

/-- A text in a boolean position. -/
def truthy (o : Option String) : Bool := o.any (· ≠ "")

/-- `bool(a.last_patch and a.last_patch != "Never")` -/
def patched (a : AssessedAsset) : Bool := truthy a.lastPatch && a.lastPatch ≠ some "Never"

/-- `bool(a.edr_status and a.edr_status not in ("None", "N/A"))` -/
def edrDeployed (a : AssessedAsset) : Bool :=
  truthy a.edrStatus && !(a.edrStatus = some "None" || a.edrStatus = some "N/A")

/-- `"mfa" in (a.auth_method or "").lower()` -/
def mentionsMfa (a : AssessedAsset) : Bool :=
  ['m', 'f', 'a'] <:+: a.authMethod.toLower.toList

/-- `FRAMEWORK_CATALOGS`: the controls of each framework, in their order. -/
def frameworkCatalogs : List (String × List (String × ControlRule)) := [
  ("cis-v8", [
    ("1.1", {
      ruleKey := "asset_inventory"
      desc := "Detailed asset inventory exists"
      check := fun a => a.name ≠ "" && truthy a.ip && truthy a.os
      evidenceFields := [.name, .ip, .os] }),
    ("2.1", {
      ruleKey := "software_inventory"
      desc := "Software inventory tracked"
      check := fun a => a.softwareStack.any fun xs => !xs.isEmpty
      evidenceFields := [.softwareStack] }),
    ("4.1", {
      ruleKey := "secure_configuration"
      desc := "Encryption and hardening applied"
      check := fun a => a.controlCoverage ∈ ["partial", "full"]
      evidenceFields := [.controlCoverage] }),
    ("6.1", {
      ruleKey := "strong_authentication"
      desc := "MFA enforced"
      check := mentionsMfa
      evidenceFields := [.authMethod] }),
    ("7.1", {
      ruleKey := "vulnerability_management"
      desc := "Vulnerability scanning + patching"
      check := patched
      evidenceFields := [.lastPatch] }),
    ("10.1", {
      ruleKey := "endpoint_defense"
      desc := "EDR/antimalware deployed"
      check := edrDeployed
      evidenceFields := [.edrStatus] })]),
  ("nist-800-53", [
    ("CM-8", {
      ruleKey := "system_component_inventory"
      desc := "System component inventory"
      check := fun a => a.name ≠ "" && a.type ≠ "" && truthy a.os
      evidenceFields := [.name, .type, .os] }),
    ("AC-2", {
      ruleKey := "account_management"
      desc := "Strong auth controls"
      check := fun a => a.authMethod ∈ ["mfa", "mfa+pam", "certificate"]
      evidenceFields := [.authMethod] }),
    ("SI-2", {
      ruleKey := "flaw_remediation"
      desc := "Timely patching"
      check := fun a => patched a && !a.eolStatus
      evidenceFields := [.lastPatch, .eolStatus] }),
    ("SI-4", {
      ruleKey := "system_monitoring"
      desc := "Continuous monitoring deployed"
      check := edrDeployed
      evidenceFields := [.edrStatus] })]),
  ("iso-27001", [
    ("A.8.1", {
      ruleKey := "asset_inventory"
      desc := "Asset inventory maintained"
      check := fun a => a.name ≠ "" && a.type ≠ ""
      evidenceFields := [.name, .type] }),
    ("A.8.9", {
      ruleKey := "configuration_management"
      desc := "Configuration management"
      check := fun a => a.controlCoverage ≠ "none"
      evidenceFields := [.controlCoverage] }),
    ("A.12.6", {
      ruleKey := "technical_vulnerability_management"
      desc := "Technical vuln management"
      check := patched
      evidenceFields := [.lastPatch] })])]

/-! ## The assessment of one asset -/

/-- The observed fields of an asset, by name. -/
abbrev Observed := List (String × Observation)

def observe (rule : ControlRule) (a : AssessedAsset) : Observed :=
  rule.evidenceFields.map fun c => (c.text, jsonValue a c)

/-- `_evidence`; the source is always `asset_record`. -/
structure EvidencePayload where
  description : String
  observed : Observed
  deriving DecidableEq, Repr

def evidence (rule : ControlRule) (a : AssessedAsset) : EvidencePayload :=
  ⟨rule.desc, observe rule a⟩

/-- `round(x, 2)`; no quotient of the catalog lies halfway. -/
def roundHundredths (x : ℚ) : ℚ := (⌊x * 100 + 1 / 2⌋ : ℚ) / 100

structure Assessment where
  status : Status
  score : ℚ
  confidence : ℚ
  rationale : String
  deriving DecidableEq, Repr

/-- The status of a control for an asset. -/
def assessedStatus (rule : ControlRule) (a : AssessedAsset) : Status :=
  let present := (observe rule a).countP fun p => hasObservation p.2
  let total := (observe rule a).length
  if rule.check a then .compliant
  else if 1 < total ∧ 0 < present ∧ present < total then .partially
  else .gap

/-- `_assess` -/
def assess (rule : ControlRule) (a : AssessedAsset) : Assessment where
  status := assessedStatus rule a
  score := match assessedStatus rule a with
    | .compliant => 1
    | .partially => roundHundredths
        (((observe rule a).countP fun p => hasObservation p.2) / (observe rule a).length)
    | _ => 0
  confidence := 1
  rationale := "Deterministic asset-observation rule: " ++ rule.desc ++
    ". Evidence availability: " ++ ", ".intercalate ((observe rule a).map fun p =>
      p.1 ++ "=" ++ (if hasObservation p.2 then "present" else "missing")) ++ "."

/-- A result is compliant if and only if the check holds. -/
theorem assess_compliant_iff (rule : ControlRule) (a : AssessedAsset) :
    (assess rule a).status = .compliant ↔ rule.check a = true := by
  simp only [assess, assessedStatus]
  by_cases h : rule.check a = true
  · simp [h]
  · rw [if_neg h]
    split
    · simp [h]
    · simp [h]

end Kepryx.ComplianceCatalog
