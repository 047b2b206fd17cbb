import Kepryx.Grading
import Kepryx.Models

/-!
# The risk engine

`compute_risk` reads the CVE list of an asset only through the worst CVSS and EPSS values
and through whether a listed CVE is known to be exploited. Measurements are exact
rationals, scores and weights whole hundredths.
-/
namespace Kepryx.RiskEngine
open Kepryx.Models Kepryx.Grading

def controlMap : List (String × ℤ) := [("full", 1), ("partial", 3), ("none", 5)]

def exposureMap : List (String × ℤ) :=
  [("isolated", 1), ("internal", 2), ("dmz", 3), ("cloud", 4), ("internet-facing", 5)]

def accessMap : List (String × ℤ) := [
  ("mfa+pam", 1),
  ("mfa", 2),
  ("certificate", 2),
  ("password", 4),
  ("password-only", 5),
  ("none", 5)]

def criticalityMap : List (String × ℤ) :=
  [("low", 1), ("medium", 2), ("high", 3), ("critical", 4), ("tier-1", 5)]

def dataClassificationMap : List (String × ℤ) :=
  [("public", 1), ("internal", 2), ("confidential", 4), ("restricted", 5)]

/-- `WEIGHTS`, in hundredths. -/
def weights : Breakdown where
  cve := 23
  kev := 18
  controls := 18
  exposure := 14
  access := 9
  criticality := 10
  dataClassification := 8

/-- One element of `asset["cves"]`. -/
structure CveEvidence where
  cvssV3 : Option ℚ := none
  cvss : Option ℚ := none
  epssScore : Option ℚ := none
  epss : Option ℚ := none
  kev : Bool := false
  kevRansomware : Bool := false
  deriving DecidableEq, Repr

/-- The dictionary given to `compute_risk`. -/
structure RiskInput where
  controlCoverage : Entry String := .missing
  networkExposure : Entry String := .missing
  authMethod : Entry String := .missing
  criticality : Entry String := .missing
  dataClassification : Entry String := .missing
  eolStatus : Bool := false
  cves : List CveEvidence := []

/-- `x or y or 0` -/
def firstNonzero (x y : Option ℚ) : ℚ := ((x.filter (· ≠ 0)).or (y.filter (· ≠ 0))).getD 0

/-- `c.get("cvss_v3") or c.get("cvss") or 0` -/
def CveEvidence.cvssValue (c : CveEvidence) : ℚ := firstNonzero c.cvssV3 c.cvss

/-- `c.get("epss_score") or c.get("epss") or 0` -/
def CveEvidence.epssValue (c : CveEvidence) : ℚ := firstNonzero c.epssScore c.epss

/-- `_norm_cvss` -/
def normCvss (cvss : ℚ) : ℤ := clamp 5 (roundHalfEven (cvss / 10 * 5))

/-- `_norm_epss` -/
def normEpss (epss : ℚ) : ℤ := clamp 5 (roundHalfEven (epss * 5))

/-- `_tier` -/
def tier (score : ℤ) : Tier :=
  if 400 ≤ score then .critical
  else if 300 ≤ score then .high
  else if 200 ≤ score then .medium
  else if 150 ≤ score then .low
  else .informational

/-- `_action_and_sla` -/
def actionAndSla (tier : Tier) (eol hasKev : Bool) : String × ℕ :=
  match tier with
  | .critical => ("Immediate patch / isolate / compensating control", 7)
  | .high => ("Priority patch cycle — patch or compensate", 30)
  | .medium => ("Standard remediation track", 90)
  | _ =>
    if eol then ("Plan replacement / EOL migration", 180)
    else if hasKev then ("Apply KEV remediation", 14)
    else ("Monitor", 365)

/-- The part of a result that the risk columns of an asset store. -/
structure Risk where
  score : ℤ
  tier : Tier
  breakdown : Breakdown
  deriving DecidableEq, Repr

/-- `RiskResult` -/
structure RiskResult extends Risk where
  recommendedAction : String
  slaDays : ℕ
  deriving DecidableEq, Repr

/-- The CVE score before the boost for active ransomware exploitation. -/
def worstCveScore (cves : List CveEvidence) : ℤ :=
  if cves = [] then 1
  else max (normCvss (maxOr 0 (cves.map CveEvidence.cvssValue)))
    (normEpss (maxOr 0 (cves.map CveEvidence.epssValue)))

def hasKev (cves : List CveEvidence) : Bool := cves.any (·.kev)

def hasRansomwareKev (cves : List CveEvidence) : Bool := cves.any fun c => c.kev && c.kevRansomware

def cveScore (cves : List CveEvidence) : ℤ :=
  if hasRansomwareKev cves then min 5 (worstCveScore cves + 1) else worstCveScore cves

/-- `FACTOR_MAP.get(asset.get(key, default), otherwise)` -/
def factor (map : List (String × ℤ)) (e : Entry String) (default : String) (otherwise : ℤ) : ℤ :=
  ((e.getD default).bind fun v => map.lookup v).getD otherwise

/-- `str(asset.get("data_classification", "internal")).lower()` -/
def classification (e : Entry String) : String := ((e.getD "internal").getD "None").toLower

/-- The factor scores of an asset. -/
def breakdown (a : RiskInput) : Breakdown where
  cve := cveScore a.cves
  kev := if hasKev a.cves then 5 else 1
  controls := factor controlMap a.controlCoverage "none" 3
  exposure := factor exposureMap a.networkExposure "internal" 3
  access := factor accessMap a.authMethod "password" 3
  criticality := factor criticalityMap a.criticality "medium" 3
  dataClassification :=
    (dataClassificationMap.lookup (classification a.dataClassification)).getD 2

/-- The weighted sum of the factor scores, in hundredths. -/
def weighted (b : Breakdown) : ℤ :=
  b.cve * weights.cve + b.kev * weights.kev + b.controls * weights.controls +
    b.exposure * weights.exposure + b.access * weights.access +
    b.criticality * weights.criticality + b.dataClassification * weights.dataClassification

/-- `compute_risk` -/
def computeRisk (a : RiskInput) : RiskResult :=
  let b := breakdown a
  let score := weighted b
  let action := actionAndSla (tier score) a.eolStatus (hasKev a.cves)
  { score := score
    tier := tier score
    breakdown := b
    recommendedAction := action.1
    slaDays := action.2 }

/-! ## Bounds -/

theorem normCvss_mono : Monotone normCvss := fun p q h =>
  clamp_mono 5 (roundHalfEven_mono (by linarith))

theorem normEpss_mono : Monotone normEpss := fun p q h =>
  clamp_mono 5 (roundHalfEven_mono (by linarith))

/-- How much one CVE weighs in the CVE score. -/
def CveEvidence.severity (c : CveEvidence) : ℤ :=
  max (normCvss c.cvssValue) (normEpss c.epssValue)

/-- The CVE score is bounded exactly by what bounds every single CVE. -/
theorem worstCveScore_le {cves : List CveEvidence} {k : ℤ} (hk : 1 ≤ k) :
    worstCveScore cves ≤ k ↔ ∀ c ∈ cves, c.severity ≤ k := by
  unfold worstCveScore
  split
  · rename_i hnil
    simp [hnil, hk]
  · rename_i hne
    have hcvss : normCvss (maxOr 0 (cves.map CveEvidence.cvssValue)) ≤ k ↔
        ∀ x ∈ cves.map CveEvidence.cvssValue, normCvss x ≤ k :=
      grade_maxOr_le normCvss_mono (by simpa using hne)
    have hepss : normEpss (maxOr 0 (cves.map CveEvidence.epssValue)) ≤ k ↔
        ∀ x ∈ cves.map CveEvidence.epssValue, normEpss x ≤ k :=
      grade_maxOr_le normEpss_mono (by simpa using hne)
    rw [max_le_iff, hcvss, hepss]
    simp only [List.forall_mem_map, CveEvidence.severity, max_le_iff]
    constructor
    · intro h c hc
      exact ⟨h.1 c hc, h.2 c hc⟩
    · intro h
      exact ⟨fun c hc => (h c hc).1, fun c hc => (h c hc).2⟩

theorem one_le_worstCveScore (cves : List CveEvidence) : 1 ≤ worstCveScore cves := by
  unfold worstCveScore
  split
  · exact le_rfl
  · exact (one_le_clamp (by norm_num) _).trans (le_max_left _ _)

theorem severity_le_worstCveScore {cves : List CveEvidence} {c : CveEvidence} (hc : c ∈ cves) :
    c.severity ≤ worstCveScore cves :=
  (worstCveScore_le (one_le_worstCveScore cves)).mp le_rfl c hc

/-! ## When two CVE lists give one risk -/

/-- No CVE of `ds` weighs more than the worst of `cs`, and `cs` lists an exploited CVE if `ds`
does. -/
structure Covers (cs ds : List CveEvidence) : Prop where
  severity : ∀ d ∈ ds, d.severity ≤ worstCveScore cs
  kev : (∃ d ∈ ds, d.kev) → ∃ c ∈ cs, c.kev

theorem covers_iff {cs ds : List CveEvidence} :
    Covers cs ds ↔ worstCveScore ds ≤ worstCveScore cs ∧ (hasKev ds → hasKev cs) := by
  rw [worstCveScore_le (one_le_worstCveScore cs)]
  simp only [hasKev, List.any_eq_true]
  exact ⟨fun h => ⟨h.severity, h.kev⟩, fun h => ⟨h.1, h.2⟩⟩

/-- A list covers each of its parts. -/
theorem Covers.of_subset {cs ds : List CveEvidence} (h : ds ⊆ cs) : Covers cs ds :=
  ⟨fun _ hd => severity_le_worstCveScore (h hd), fun ⟨d, hd, hk⟩ => ⟨d, h hd, hk⟩⟩

theorem Covers.trans {cs ds es : List CveEvidence} (h : Covers cs ds) (h' : Covers ds es) :
    Covers cs es := by
  rw [covers_iff] at *
  exact ⟨h'.1.trans h.1, fun hk => h.2 (h'.2 hk)⟩

/-- Without ransomware flags, two lists give an asset one risk exactly when they cover each
other. -/
theorem computeRisk_eq_iff (a : RiskInput) {cs ds : List CveEvidence}
    (hcs : ∀ c ∈ cs, c.kevRansomware = false) (hds : ∀ d ∈ ds, d.kevRansomware = false) :
    (computeRisk { a with cves := cs }).toRisk = (computeRisk { a with cves := ds }).toRisk ↔
      Covers cs ds ∧ Covers ds cs := by
  have hplain : ∀ {xs : List CveEvidence}, (∀ c ∈ xs, c.kevRansomware = false) →
      cveScore xs = worstCveScore xs := by
    intro xs hxs
    have : hasRansomwareKev xs = false := by
      simp only [hasRansomwareKev, List.any_eq_false]
      intro c hc
      simp [hxs c hc]
    simp [cveScore, this]
  rw [covers_iff, covers_iff]
  constructor
  · intro h
    have hb : breakdown { a with cves := cs } = breakdown { a with cves := ds } :=
      congrArg Risk.breakdown h
    have hcve : worstCveScore cs = worstCveScore ds := by
      rw [← hplain hcs, ← hplain hds]
      exact congrArg Breakdown.cve hb
    have hkev : hasKev cs = hasKev ds := by
      have := congrArg Breakdown.kev hb
      simp only [breakdown] at this
      cases h1 : hasKev cs <;> cases h2 : hasKev ds <;> simp_all
    simp [hcve, hkev]
  · rintro ⟨⟨hle, hk⟩, hge, hk'⟩
    have hcve : cveScore cs = cveScore ds := by
      rw [hplain hcs, hplain hds]
      exact le_antisymm hge hle
    have hkev : hasKev cs = hasKev ds := Bool.eq_iff_iff.mpr ⟨hk', hk⟩
    have hb : breakdown { a with cves := cs } = breakdown { a with cves := ds } := by
      simp only [breakdown, hcve, hkev]
    simp only [computeRisk, hb]

end Kepryx.RiskEngine
