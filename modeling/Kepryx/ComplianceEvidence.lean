import Kepryx.ComplianceCatalog
import Kepryx.Reconciler

/-!
# Compliant verdicts and the evidence behind them

A check asks in its own way whether a field has a value, and the evidence in another. Here the
fields of an asset hold any value, a null or a blank text as well, and a check that would raise
on one is false.
-/
namespace Kepryx.ComplianceEvidence
open Kepryx.CompliancePercentages Kepryx.ComplianceCatalog

/-! ## The rules on arbitrary values -/

/-- The values of the fields of an asset. -/
abbrev Values := Column → Observation

/-- `bool(value)` -/
def truth : Observation → Bool
  | .null => false
  | .bool b => b
  | .text s => s ≠ ""
  | .list xs => !xs.isEmpty

/-- `value in texts` -/
def isOneOf (o : Observation) (texts : List String) : Bool := texts.any fun s => o = .text s

/-- `"mfa" in (value or "").lower()`; only a text has `lower`. -/
def containsMfa : Observation → Bool
  | .text s => ['m', 'f', 'a'] <:+: s.toLower.toList
  | _ => false

/-- `bool(value and value != "Never")` -/
def patchedValue (o : Observation) : Bool := truth o && o ≠ .text "Never"

/-- `bool(value and value not in ("None", "N/A"))` -/
def deployedValue (o : Observation) : Bool := truth o && !isOneOf o ["None", "N/A"]

/-- A rule of the catalog, with a check for arbitrary values. -/
structure ValueRule where
  ruleKey : String
  desc : String
  check : Values → Bool
  evidenceFields : List Column

/-- The rules of `FRAMEWORK_CATALOGS`, by control. -/
def controlRules : List (String × ValueRule) := [
  ("1.1", {
    ruleKey := "asset_inventory"
    desc := "Detailed asset inventory exists"
    check := fun a => truth (a .name) && truth (a .ip) && truth (a .os)
    evidenceFields := [.name, .ip, .os] }),
  ("2.1", {
    ruleKey := "software_inventory"
    desc := "Software inventory tracked"
    check := fun a => truth (a .softwareStack)
    evidenceFields := [.softwareStack] }),
  ("4.1", {
    ruleKey := "secure_configuration"
    desc := "Encryption and hardening applied"
    check := fun a => isOneOf (a .controlCoverage) ["partial", "full"]
    evidenceFields := [.controlCoverage] }),
  ("6.1", {
    ruleKey := "strong_authentication"
    desc := "MFA enforced"
    check := fun a => containsMfa (a .authMethod)
    evidenceFields := [.authMethod] }),
  ("7.1", {
    ruleKey := "vulnerability_management"
    desc := "Vulnerability scanning + patching"
    check := fun a => patchedValue (a .lastPatch)
    evidenceFields := [.lastPatch] }),
  ("10.1", {
    ruleKey := "endpoint_defense"
    desc := "EDR/antimalware deployed"
    check := fun a => deployedValue (a .edrStatus)
    evidenceFields := [.edrStatus] }),
  ("CM-8", {
    ruleKey := "system_component_inventory"
    desc := "System component inventory"
    check := fun a => truth (a .name) && truth (a .type) && truth (a .os)
    evidenceFields := [.name, .type, .os] }),
  ("AC-2", {
    ruleKey := "account_management"
    desc := "Strong auth controls"
    check := fun a => isOneOf (a .authMethod) ["mfa", "mfa+pam", "certificate"]
    evidenceFields := [.authMethod] }),
  ("SI-2", {
    ruleKey := "flaw_remediation"
    desc := "Timely patching"
    check := fun a => patchedValue (a .lastPatch) && !truth (a .eolStatus)
    evidenceFields := [.lastPatch, .eolStatus] }),
  ("SI-4", {
    ruleKey := "system_monitoring"
    desc := "Continuous monitoring deployed"
    check := fun a => deployedValue (a .edrStatus)
    evidenceFields := [.edrStatus] }),
  ("A.8.1", {
    ruleKey := "asset_inventory"
    desc := "Asset inventory maintained"
    check := fun a => truth (a .name) && truth (a .type)
    evidenceFields := [.name, .type] }),
  ("A.8.9", {
    ruleKey := "configuration_management"
    desc := "Configuration management"
    check := fun a => a .controlCoverage ≠ .text "none"
    evidenceFields := [.controlCoverage] }),
  ("A.12.6", {
    ruleKey := "technical_vulnerability_management"
    desc := "Technical vuln management"
    check := fun a => patchedValue (a .lastPatch)
    evidenceFields := [.lastPatch] })]

/-- The number of evidence fields with an observation. -/
def present (rule : ValueRule) (a : Values) : ℕ :=
  rule.evidenceFields.countP fun c => hasObservation (a c)

/-- The number of evidence fields. -/
def total (rule : ValueRule) : ℕ := rule.evidenceFields.length

/-- The status that `_assess` returns. -/
def verdict (rule : ValueRule) (a : Values) : Status :=
  if rule.check a then .compliant
  else if 1 < total rule ∧ 0 < present rule a ∧ present rule a < total rule then .partially
  else .gap

/-- The score that `_assess` returns. -/
def score (rule : ValueRule) (a : Values) : ℚ :=
  match verdict rule a with
  | .compliant => 1
  | .partially => roundHundredths (present rule a / total rule)
  | _ => 0

/-! ## The rows of the database -/

theorem truth_ofText (o : Option String) : truth (.ofText o) = truthy o := by
  cases o <;> rfl

theorem isOneOf_text (s : String) (texts : List String) :
    isOneOf (.text s) texts = decide (s ∈ texts) := by
  rw [Bool.eq_iff_iff]
  simp [isOneOf]

theorem patchedValue_row (a : AssessedAsset) :
    patchedValue (jsonValue a .lastPatch) = patched a := by
  unfold patchedValue patched
  rw [show jsonValue a .lastPatch = .ofText a.lastPatch from rfl, truth_ofText]
  cases a.lastPatch <;> simp [Observation.ofText]

theorem deployedValue_row (a : AssessedAsset) :
    deployedValue (jsonValue a .edrStatus) = edrDeployed a := by
  unfold deployedValue edrDeployed
  rw [show jsonValue a .edrStatus = .ofText a.edrStatus from rfl, truth_ofText]
  cases a.edrStatus with
  | none => rfl
  | some s => simp [Observation.ofText, isOneOf]

/-- On the columns of a row the rules are those of the catalog. -/
theorem controlRules_row (a : AssessedAsset) :
    controlRules.map (fun r => (r.1, r.2.ruleKey, r.2.desc, r.2.check (jsonValue a),
        r.2.evidenceFields)) =
      (frameworkCatalogs.flatMap Prod.snd).map fun r =>
        (r.1, r.2.ruleKey, r.2.desc, r.2.check a, r.2.evidenceFields) := by
  have hstack : truth (jsonValue a .softwareStack) = a.softwareStack.any fun xs => !xs.isEmpty := by
    simp only [jsonValue]
    cases a.softwareStack <;> rfl
  have hmfa : containsMfa (jsonValue a .authMethod) = mentionsMfa a := rfl
  have hname : truth (jsonValue a .name) = decide (a.name ≠ "") := rfl
  have htype : truth (jsonValue a .type) = decide (a.type ≠ "") := rfl
  have hip : truth (jsonValue a .ip) = truthy a.ip := truth_ofText a.ip
  have hos : truth (jsonValue a .os) = truthy a.os := truth_ofText a.os
  have heol : truth (jsonValue a .eolStatus) = a.eolStatus := rfl
  have hcoverage : ∀ texts, isOneOf (jsonValue a .controlCoverage) texts =
      decide (a.controlCoverage ∈ texts) := isOneOf_text _
  have hauth : ∀ texts, isOneOf (jsonValue a .authMethod) texts =
      decide (a.authMethod ∈ texts) := isOneOf_text _
  have hnone : decide (jsonValue a .controlCoverage ≠ .text "none") =
      decide (a.controlCoverage ≠ "none") := by
    simp [jsonValue]
  simp only [controlRules, frameworkCatalogs, List.flatMap_cons, List.flatMap_nil, List.append_nil,
    List.cons_append, List.nil_append, List.map_cons, List.map_nil, hstack, hmfa, hname, htype, hip,
    hos, heol, hcoverage, hauth, hnone, patchedValue_row, deployedValue_row]

/-! ## What a verdict promises -/

/-- A compliant verdict has every evidence field observed, a partial one is given exactly for a
failed check with some but not all of its fields observed, and only a compliant one scores 1. -/
structure Sound (rule : ValueRule) (a : Values) : Prop where
  backed : verdict rule a = .compliant → ∀ c ∈ rule.evidenceFields, hasObservation (a c)
  partially : verdict rule a = .partially ∧
      score rule a = roundHundredths (present rule a / total rule) ↔
    rule.check a = false ∧ 2 ≤ total rule ∧ 0 < present rule a ∧ present rule a < total rule
  nonneg : 0 ≤ score rule a
  le_one : score rule a ≤ 1
  one : score rule a = 1 → verdict rule a = .compliant

/-- A null, the empty text or the empty list. -/
def Empty (o : Observation) : Prop := o = .null ∨ o = .text "" ∨ o = .list []

/-- A text of white space. -/
def Blank (o : Observation) : Prop := ∃ s, o = .text s ∧ s ≠ "" ∧ s.toList.all isSpace

/-- The evidence fields that the check of a control lets pass when they are empty. -/
def lenient (control : String) : List Column :=
  if control = "A.8.9" then [.controlCoverage]
  else if control = "SI-2" then [.eolStatus]
  else []

/-- If the check passes, no evidence field is a text of white space, and no field that may be
empty is. -/
def Evidenced (control : String) (rule : ValueRule) (a : Values) : Prop :=
  rule.check a → (∀ c ∈ rule.evidenceFields, ¬ Blank (a c)) ∧ ∀ c ∈ lenient control, ¬ Empty (a c)

/-! ## Observed values -/

theorem hasObservation_iff (o : Observation) : hasObservation o ↔ ¬ Empty o ∧ ¬ Blank o := by
  cases o with
  | null => simp [hasObservation, Empty]
  | bool b => simp [hasObservation, Empty, Blank]
  | list xs => simp [hasObservation, Empty, Blank]
  | text s =>
    have hblank : Blank (.text s) ↔ s ≠ "" ∧ s.toList.all isSpace := by
      simp [Blank]
    have hempty : Empty (.text s) ↔ s = "" := by simp [Empty]
    have hobs : hasObservation (.text s) ↔ ¬ s.toList.all isSpace := by
      simp [hasObservation]
    rw [hblank, hempty, hobs]
    constructor
    · intro h
      refine ⟨?_, fun hb => h hb.2⟩
      rintro rfl
      exact h rfl
    · rintro ⟨hne, hb⟩ hall
      exact hb ⟨hne, hall⟩

theorem not_empty_of_truth {o : Observation} (h : truth o) : ¬ Empty o := by
  rintro (rfl | rfl | rfl) <;> simp [truth] at h

theorem not_empty_of_patched {o : Observation} (h : patchedValue o) : ¬ Empty o :=
  not_empty_of_truth (Bool.and_eq_true_iff.mp h).1

theorem not_empty_of_deployed {o : Observation} (h : deployedValue o) : ¬ Empty o :=
  not_empty_of_truth (Bool.and_eq_true_iff.mp h).1

theorem not_empty_of_oneOf {o : Observation} {texts : List String} (hne : "" ∉ texts)
    (h : isOneOf o texts) : ¬ Empty o := by
  simp only [isOneOf, List.any_eq_true, decide_eq_true_eq] at h
  obtain ⟨s, hs, rfl⟩ := h
  have : s ≠ "" := fun he => hne (he ▸ hs)
  simp [Empty, this]

theorem not_empty_of_mfa {o : Observation} (h : containsMfa o) : ¬ Empty o := by
  rintro (rfl | rfl | rfl)
  · cases h
  · exact absurd h (by decide +kernel)
  · cases h

/-- A check that passes leaves no evidence field empty, but for the fields it lets pass. -/
theorem check_not_empty {control : String} {rule : ValueRule}
    (hrule : (control, rule) ∈ controlRules) {a : Values} (h : rule.check a) :
    ∀ c ∈ rule.evidenceFields, c ∉ lenient control → ¬ Empty (a c) := by
  simp only [controlRules, List.mem_cons, List.not_mem_nil, or_false, Prod.mk.injEq] at hrule
  rcases hrule with ⟨rfl, rfl⟩ | ⟨rfl, rfl⟩ | ⟨rfl, rfl⟩ | ⟨rfl, rfl⟩ | ⟨rfl, rfl⟩ | ⟨rfl, rfl⟩ |
    ⟨rfl, rfl⟩ | ⟨rfl, rfl⟩ | ⟨rfl, rfl⟩ | ⟨rfl, rfl⟩ | ⟨rfl, rfl⟩ | ⟨rfl, rfl⟩ | ⟨rfl, rfl⟩ <;>
    simp only [Bool.and_eq_true, List.mem_cons, List.not_mem_nil, or_false] at h ⊢
  · rintro c (rfl | rfl | rfl) -
    · exact not_empty_of_truth h.1.1
    · exact not_empty_of_truth h.1.2
    · exact not_empty_of_truth h.2
  · rintro c rfl -
    exact not_empty_of_truth h
  · rintro c rfl -
    exact not_empty_of_oneOf (by decide) h
  · rintro c rfl -
    exact not_empty_of_mfa h
  · rintro c rfl -
    exact not_empty_of_patched h
  · rintro c rfl -
    exact not_empty_of_deployed h
  · rintro c (rfl | rfl | rfl) -
    · exact not_empty_of_truth h.1.1
    · exact not_empty_of_truth h.1.2
    · exact not_empty_of_truth h.2
  · rintro c rfl -
    exact not_empty_of_oneOf (by decide) h
  · rintro c (rfl | rfl) hc
    · exact not_empty_of_patched h.1
    · exact absurd (by decide) hc
  · rintro c rfl -
    exact not_empty_of_deployed h
  · rintro c (rfl | rfl) -
    · exact not_empty_of_truth h.1
    · exact not_empty_of_truth h.2
  · rintro c rfl hc
    exact absurd (by decide) hc
  · rintro c rfl -
    exact not_empty_of_patched h

theorem lenient_evidence {control : String} {rule : ValueRule}
    (hrule : (control, rule) ∈ controlRules) : ∀ c ∈ lenient control, c ∈ rule.evidenceFields := by
  have hall : ∀ r ∈ controlRules, ∀ c ∈ lenient r.1, c ∈ r.2.evidenceFields := by decide
  exact hall _ hrule

theorem total_le_three {control : String} {rule : ValueRule}
    (hrule : (control, rule) ∈ controlRules) : total rule ≤ 3 := by
  have hall : ∀ r ∈ controlRules, total r.2 ≤ 3 := by decide
  exact hall _ hrule

/-! ## When a verdict is sound -/

/-- The partial scores of the catalog are 0.5, 0.33 and 0.67. -/
theorem partialScore_bounds {p t : ℕ} (ht : t ≤ 3) (hp : 0 < p) (hpt : p < t) :
    0 ≤ roundHundredths (p / t) ∧ roundHundredths (p / t) < 1 := by
  have hcases : (p = 1 ∧ t = 2) ∨ (p = 1 ∧ t = 3) ∨ (p = 2 ∧ t = 3) := by omega
  rcases hcases with ⟨rfl, rfl⟩ | ⟨rfl, rfl⟩ | ⟨rfl, rfl⟩ <;> decide +kernel

theorem verdict_compliant_iff (rule : ValueRule) (a : Values) :
    verdict rule a = .compliant ↔ rule.check a := by
  unfold verdict
  split
  · simp_all
  · split <;> simp_all

theorem verdict_partially_iff (rule : ValueRule) (a : Values) :
    verdict rule a = .partially ↔
      rule.check a = false ∧ 2 ≤ total rule ∧ 0 < present rule a ∧ present rule a < total rule := by
  have htotal : 2 ≤ total rule ↔ 1 < total rule := Iff.rfl
  rw [htotal]
  unfold verdict
  by_cases h : rule.check a
  · simp [h]
  · rw [if_neg h]
    split <;> simp_all

theorem score_partially {rule : ValueRule} {a : Values} (h : verdict rule a = .partially) :
    score rule a = roundHundredths (present rule a / total rule) := by
  simp only [score, h]

/-- The score of a verdict that is not compliant stays below 1. -/
theorem score_bounds {control : String} {rule : ValueRule}
    (hrule : (control, rule) ∈ controlRules) (a : Values) :
    0 ≤ score rule a ∧ score rule a ≤ 1 ∧ (score rule a = 1 → verdict rule a = .compliant) := by
  by_cases hcomp : verdict rule a = .compliant
  · simp [score, hcomp]
  · by_cases hpart : verdict rule a = .partially
    · obtain ⟨-, -, hp, hpt⟩ := (verdict_partially_iff rule a).mp hpart
      have hb := partialScore_bounds (total_le_three hrule) hp hpt
      rw [score_partially hpart]
      exact ⟨hb.1, hb.2.le, fun h => absurd h hb.2.ne⟩
    · have hzero : score rule a = 0 := by
        unfold score
        split
        · exact absurd ‹_› hcomp
        · exact absurd ‹_› hpart
        · rfl
      simp [hzero]

/-- The verdict of a control is sound exactly when a passing check comes with no evidence field
of white space and no empty field that it lets pass. -/
theorem sound_iff {control : String} {rule : ValueRule} (hrule : (control, rule) ∈ controlRules)
    (a : Values) : Sound rule a ↔ Evidenced control rule a := by
  constructor
  · intro h hcheck
    have hobs := h.backed ((verdict_compliant_iff rule a).mpr hcheck)
    exact ⟨fun c hc => ((hasObservation_iff _).mp (hobs c hc)).2,
      fun c hc => ((hasObservation_iff _).mp (hobs c (lenient_evidence hrule c hc))).1⟩
  · intro h
    obtain ⟨hnonneg, hle, hone⟩ := score_bounds hrule a
    refine ⟨fun hcomp c hc => ?_, ?_, hnonneg, hle, hone⟩
    · have hcheck := (verdict_compliant_iff rule a).mp hcomp
      obtain ⟨hblank, hempty⟩ := h hcheck
      refine (hasObservation_iff _).mpr ⟨?_, hblank c hc⟩
      by_cases hl : c ∈ lenient control
      · exact hempty c hl
      · exact check_not_empty hrule hcheck c hc hl
    · rw [verdict_partially_iff]
      exact ⟨And.left, fun hp => ⟨hp, score_partially ((verdict_partially_iff rule a).mpr hp)⟩⟩

/-- A host that a connector reports with an empty control coverage. -/
def uncovered : AssessedAsset where
  toAsset := { Reconciler.newColumns 0 1 "edr_crowdstrike" { controlCoverage := .value "" } "web"
    "Server" with sources := some ["edr_crowdstrike"] }

/-- The rule of control A.8.9. -/
def configurationManagement : ValueRule := (controlRules.get ⟨11, by decide⟩).2

theorem configurationManagement_mem : ("A.8.9", configurationManagement) ∈ controlRules :=
  List.get_mem controlRules ⟨11, by decide⟩

theorem sound_iff_uncovered :
    Sound configurationManagement (jsonValue uncovered) ↔
      Evidenced "A.8.9" configurationManagement (jsonValue uncovered) :=
  sound_iff configurationManagement_mem (jsonValue uncovered)

/-- The empty coverage is not `none`, so the host is compliant with no evidence. -/
theorem compliant_without_evidence :
    verdict configurationManagement (jsonValue uncovered) = .compliant ∧
      ¬ Sound configurationManagement (jsonValue uncovered) := by
  have hcomp : verdict configurationManagement (jsonValue uncovered) = .compliant := by
    decide +kernel
  refine ⟨hcomp, fun h => ?_⟩
  exact absurd (h.backed hcomp .controlCoverage (by decide)) (by decide +kernel)

end Kepryx.ComplianceEvidence
