import Kepryx.RiskEngine
import Mathlib.Tactic.Linarith
import Mathlib.Tactic.Ring

/-!
# Risk scores are bounded and monotone

Every factor score lies between one and five and the weights add up to one, so the score
does too. Evidence and mapped factors enter the score monotonically: what makes an input
worse never lowers its score or its tier. The deadline is not monotone, because
`_action_and_sla` asks for a known exploited vulnerability only after the tier and the end of
life.
-/
namespace Kepryx.Models

/-- The order of the tiers, the most urgent one last. -/
def Tier.rank : Tier → ℕ
  | .informational => 0
  | .low => 1
  | .medium => 2
  | .high => 3
  | .critical => 4

/-- No factor of `b` scores lower than in `a`. -/
structure Breakdown.Le (a b : Breakdown) : Prop where
  cve : a.cve ≤ b.cve
  kev : a.kev ≤ b.kev
  controls : a.controls ≤ b.controls
  exposure : a.exposure ≤ b.exposure
  access : a.access ≤ b.access
  criticality : a.criticality ≤ b.criticality
  dataClassification : a.dataClassification ≤ b.dataClassification

/-- The breakdown that gives every factor the score `k`. -/
def Breakdown.const (k : ℤ) : Breakdown := ⟨k, k, k, k, k, k, k⟩

end Kepryx.Models

namespace Kepryx.RiskEngine
open Kepryx.Models Kepryx.Grading

/-! ## The score as a function of the breakdown -/

theorem weighted_mono {a b : Breakdown} (h : a.Le b) : weighted a ≤ weighted b := by
  obtain ⟨h1, h2, h3, h4, h5, h6, h7⟩ := h
  simp only [weighted, weights]
  omega

theorem weighted_const (k : ℤ) : weighted (Breakdown.const k) = 100 * k := by
  simp only [weighted, weights, Breakdown.const]
  ring

theorem tier_mono {s t : ℤ} (h : s ≤ t) : (tier s).rank ≤ (tier t).rank := by
  unfold tier
  split_ifs <;> first | omega | simp [Tier.rank]

/-- The weighted sum of the factor scores with the weights of `WEIGHTS`. -/
def weightedSum (b : Breakdown) : ℚ :=
  b.cve * (23 / 100) + b.kev * (18 / 100) + b.controls * (18 / 100) + b.exposure * (14 / 100) +
    b.access * (9 / 100) + b.criticality * (10 / 100) + b.dataClassification * (8 / 100)

theorem roundHalfEven_intCast (k : ℤ) : roundHalfEven (k : ℚ) = k := by
  unfold roundHalfEven
  simp

/-- The weights are whole hundredths, so rounding to two places loses nothing. -/
theorem roundHalfEven_weightedSum (b : Breakdown) :
    roundHalfEven (100 * weightedSum b) = weighted b := by
  have hexact : 100 * weightedSum b = (weighted b : ℤ) := by
    simp only [weightedSum, weighted, weights]
    push_cast
    ring
  rw [hexact, roundHalfEven_intCast]

/-! ## The range of the factor scores -/

theorem clamp_le (top k : ℤ) : clamp top k ≤ top := min_le_left _ _

theorem worstCveScore_le_five (cves : List CveEvidence) : worstCveScore cves ≤ 5 := by
  apply (worstCveScore_le (by norm_num)).mpr
  intro c _
  exact max_le (clamp_le 5 _) (clamp_le 5 _)

theorem cveScore_mem (cves : List CveEvidence) : 1 ≤ cveScore cves ∧ cveScore cves ≤ 5 := by
  have hlow := one_le_worstCveScore cves
  have htop := worstCveScore_le_five cves
  unfold cveScore
  split <;> omega

/-- A looked-up factor score lies in the range of the map and the fallback. -/
theorem lookup_mem_range {map : List (String × ℤ)} {lo hi : ℤ}
    (hmap : ∀ p ∈ map, lo ≤ p.2 ∧ p.2 ≤ hi) {otherwise : ℤ} (hlo : lo ≤ otherwise)
    (hhi : otherwise ≤ hi) (v : Option String) :
    lo ≤ (v.bind fun k => map.lookup k).getD otherwise ∧
      (v.bind fun k => map.lookup k).getD otherwise ≤ hi := by
  cases hfound : v.bind fun k => map.lookup k with
  | none => exact ⟨hlo, hhi⟩
  | some n =>
    obtain ⟨k, _, hk⟩ := Option.bind_eq_some_iff.mp hfound
    obtain ⟨l₁, l₂, heq, _⟩ := List.lookup_eq_some_iff.mp hk
    exact hmap (k, n) (by simp [heq])

theorem factor_mem {map : List (String × ℤ)} (hmap : ∀ p ∈ map, 1 ≤ p.2 ∧ p.2 ≤ 5)
    (e : Entry String) (default : String) :
    1 ≤ factor map e default 3 ∧ factor map e default 3 ≤ 5 :=
  lookup_mem_range hmap (by norm_num) (by norm_num) (e.getD default)

theorem one_le_breakdown (a : RiskInput) : (Breakdown.const 1).Le (breakdown a) where
  cve := (cveScore_mem a.cves).1
  kev := by
    simp only [breakdown, Breakdown.const]
    split <;> norm_num
  controls := (factor_mem (by decide) _ _).1
  exposure := (factor_mem (by decide) _ _).1
  access := (factor_mem (by decide) _ _).1
  criticality := (factor_mem (by decide) _ _).1
  dataClassification := by
    have h := lookup_mem_range (show ∀ p ∈ dataClassificationMap, 1 ≤ p.2 ∧ p.2 ≤ 5 by decide)
      (show (1 : ℤ) ≤ 2 by norm_num) (by norm_num) (some (classification a.dataClassification))
    exact h.1

theorem breakdown_le_five (a : RiskInput) : (breakdown a).Le (Breakdown.const 5) where
  cve := (cveScore_mem a.cves).2
  kev := by
    simp only [breakdown, Breakdown.const]
    split <;> norm_num
  controls := (factor_mem (by decide) _ _).2
  exposure := (factor_mem (by decide) _ _).2
  access := (factor_mem (by decide) _ _).2
  criticality := (factor_mem (by decide) _ _).2
  dataClassification := by
    have h := lookup_mem_range (show ∀ p ∈ dataClassificationMap, 1 ≤ p.2 ∧ p.2 ≤ 5 by decide)
      (show (1 : ℤ) ≤ 2 by norm_num) (by norm_num) (some (classification a.dataClassification))
    exact h.2

/-! ## Worse evidence, worse factors -/

/-- The evidence `c'` on a CVE is at least as bad as `c`. -/
structure CveEvidence.Le (c c' : CveEvidence) : Prop where
  cvss : c.cvssValue ≤ c'.cvssValue
  epss : c.epssValue ≤ c'.epssValue
  kev : c.kev → c'.kev
  kevRansomware : c.kevRansomware → c'.kevRansomware

theorem CveEvidence.Le.refl (c : CveEvidence) : c.Le c := ⟨le_rfl, le_rfl, id, id⟩

theorem CveEvidence.Le.severity {c c' : CveEvidence} (h : c.Le c') : c.severity ≤ c'.severity :=
  max_le_max (normCvss_mono h.cvss) (normEpss_mono h.epss)

/-- Every CVE of `cs` is matched in `ds` by evidence that is at least as bad. -/
def Outweighs (ds cs : List CveEvidence) : Prop := ∀ c ∈ cs, ∃ d ∈ ds, c.Le d

theorem Outweighs.cons (xs ys : List CveEvidence) (c : CveEvidence) :
    Outweighs (xs ++ c :: ys) (xs ++ ys) := by
  intro d hd
  refine ⟨d, ?_, .refl d⟩
  rcases List.mem_append.mp hd with h | h
  · exact List.mem_append_left _ h
  · exact List.mem_append_right _ (List.mem_cons_of_mem c h)

theorem Outweighs.replace (xs ys : List CveEvidence) {c c' : CveEvidence} (hle : c.Le c') :
    Outweighs (xs ++ c' :: ys) (xs ++ c :: ys) := by
  intro d hd
  rcases List.mem_append.mp hd with h | h
  · exact ⟨d, List.mem_append_left _ h, .refl d⟩
  · rcases List.mem_cons.mp h with heq | h
    · exact ⟨c', by simp, heq ▸ hle⟩
    · exact ⟨d, List.mem_append_right _ (List.mem_cons_of_mem c' h), .refl d⟩

section Outweighs
variable {cs ds : List CveEvidence}

theorem Outweighs.worstCveScore_le (h : Outweighs ds cs) :
    worstCveScore cs ≤ worstCveScore ds := by
  apply (RiskEngine.worstCveScore_le (one_le_worstCveScore ds)).mpr
  intro c hc
  obtain ⟨d, hd, hle⟩ := h c hc
  exact hle.severity.trans (severity_le_worstCveScore hd)

theorem Outweighs.hasKev (h : Outweighs ds cs) (hk : hasKev cs) : RiskEngine.hasKev ds := by
  simp only [RiskEngine.hasKev, List.any_eq_true] at hk ⊢
  obtain ⟨c, hc, hkev⟩ := hk
  obtain ⟨d, hd, hle⟩ := h c hc
  exact ⟨d, hd, hle.kev hkev⟩

theorem Outweighs.hasRansomwareKev (h : Outweighs ds cs) (hk : hasRansomwareKev cs) :
    RiskEngine.hasRansomwareKev ds := by
  simp only [RiskEngine.hasRansomwareKev, List.any_eq_true, Bool.and_eq_true] at hk ⊢
  obtain ⟨c, hc, hkev, hransom⟩ := hk
  obtain ⟨d, hd, hle⟩ := h c hc
  exact ⟨d, hd, hle.kev hkev, hle.kevRansomware hransom⟩

/-- The boost for ransomware and the clamp keep the order of the CVE scores. -/
theorem Outweighs.cveScore_le (h : Outweighs ds cs) : cveScore cs ≤ cveScore ds := by
  have hworst := h.worstCveScore_le
  have htop := worstCveScore_le_five ds
  have hboost := h.hasRansomwareKev
  unfold cveScore
  split_ifs with h1 h2
  · omega
  · exact absurd (hboost h1) h2
  · omega
  · exact hworst

theorem Outweighs.breakdown_le (h : Outweighs ds cs) {a : RiskInput} (hcs : a.cves = cs) :
    (breakdown a).Le (breakdown { a with cves := ds }) := by
  subst hcs
  refine ⟨h.cveScore_le, ?_, le_rfl, le_rfl, le_rfl, le_rfl, le_rfl⟩
  have hkev := h.hasKev
  simp only [breakdown]
  split_ifs with h1 h2
  · exact le_rfl
  · exact absurd (hkev h1) h2
  · norm_num
  · exact le_rfl

end Outweighs

/-- The ways in which one input is worse than another: one more CVE, worse evidence on one CVE,
or a factor that maps to a larger score. -/
inductive Worsening (a : RiskInput) : RiskInput → Prop where
  | addCve (xs ys : List CveEvidence) (c : CveEvidence) (hcves : a.cves = xs ++ ys) :
      Worsening a { a with cves := xs ++ c :: ys }
  | evidence (xs ys : List CveEvidence) (c c' : CveEvidence) (hcves : a.cves = xs ++ c :: ys)
      (hle : c.Le c') : Worsening a { a with cves := xs ++ c' :: ys }
  | controls (e : Entry String)
      (hle : factor controlMap a.controlCoverage "none" 3 ≤ factor controlMap e "none" 3) :
      Worsening a { a with controlCoverage := e }
  | exposure (e : Entry String)
      (hle : factor exposureMap a.networkExposure "internal" 3 ≤
        factor exposureMap e "internal" 3) :
      Worsening a { a with networkExposure := e }
  | access (e : Entry String)
      (hle : factor accessMap a.authMethod "password" 3 ≤ factor accessMap e "password" 3) :
      Worsening a { a with authMethod := e }
  | criticality (e : Entry String)
      (hle : factor criticalityMap a.criticality "medium" 3 ≤
        factor criticalityMap e "medium" 3) :
      Worsening a { a with criticality := e }
  | dataClassification (e : Entry String)
      (hle : (dataClassificationMap.lookup (classification a.dataClassification)).getD 2 ≤
        (dataClassificationMap.lookup (classification e)).getD 2) :
      Worsening a { a with dataClassification := e }

theorem Worsening.breakdown_le {a b : RiskInput} (h : Worsening a b) :
    (breakdown a).Le (breakdown b) := by
  cases h with
  | addCve xs ys c hcves => exact (Outweighs.cons xs ys c).breakdown_le hcves
  | evidence xs ys c c' hcves hle => exact (Outweighs.replace xs ys hle).breakdown_le hcves
  | controls e hle => exact ⟨le_rfl, le_rfl, hle, le_rfl, le_rfl, le_rfl, le_rfl⟩
  | exposure e hle => exact ⟨le_rfl, le_rfl, le_rfl, hle, le_rfl, le_rfl, le_rfl⟩
  | access e hle => exact ⟨le_rfl, le_rfl, le_rfl, le_rfl, hle, le_rfl, le_rfl⟩
  | criticality e hle => exact ⟨le_rfl, le_rfl, le_rfl, le_rfl, le_rfl, hle, le_rfl⟩
  | dataClassification e hle => exact ⟨le_rfl, le_rfl, le_rfl, le_rfl, le_rfl, le_rfl, hle⟩

/-- The score is the rounded weighted sum of factor scores from 1 to 5, lies between 1.00 and
5.00 and fixes the tier; no worsening lowers the score or the tier. -/
theorem computeRisk_bounded_and_monotone (a : RiskInput) :
    (computeRisk a).score = roundHalfEven (100 * weightedSum (computeRisk a).breakdown) ∧
    100 ≤ (computeRisk a).score ∧ (computeRisk a).score ≤ 500 ∧
    (Breakdown.const 1).Le (computeRisk a).breakdown ∧
    (computeRisk a).breakdown.Le (Breakdown.const 5) ∧
    (computeRisk a).tier = tier (computeRisk a).score ∧
    ∀ b, Worsening a b → (computeRisk a).score ≤ (computeRisk b).score ∧
      (computeRisk a).tier.rank ≤ (computeRisk b).tier.rank := by
  have hlow := weighted_mono (one_le_breakdown a)
  have htop := weighted_mono (breakdown_le_five a)
  rw [weighted_const] at hlow htop
  refine ⟨(roundHalfEven_weightedSum _).symm, hlow, htop, one_le_breakdown a,
    breakdown_le_five a, rfl, ?_⟩
  intro b hb
  have hscore : weighted (breakdown a) ≤ weighted (breakdown b) := weighted_mono hb.breakdown_le
  exact ⟨hscore, tier_mono hscore⟩

/-- A first CVE with a CVSS of 9.8 raises the score of an asset without CVEs. -/
theorem computeRisk_monotone_first_cve :
    (computeRisk {}).score ≤ (computeRisk { cves := [{ cvssV3 := some (98 / 10) }] }).score :=
  ((computeRisk_bounded_and_monotone {}).2.2.2.2.2.2 _
    (.addCve [] [] { cvssV3 := some (98 / 10) } rfl)).1

/-! ## Deadlines -/

/-- The deadline as a function of the score, the end of life and a known exploited
vulnerability. -/
def deadline (score : ℤ) (eol kev : Bool) : ℕ :=
  if 400 ≤ score then 7
  else if 300 ≤ score then 30
  else if 200 ≤ score then 90
  else if eol then 180
  else if kev then 14
  else 365

theorem slaDays_eq_deadline (a : RiskInput) :
    (computeRisk a).slaDays = deadline (weighted (breakdown a)) a.eolStatus (hasKev a.cves) := by
  simp only [computeRisk, tier, deadline]
  split_ifs <;> simp_all [actionAndSla]

/-- Below Medium and before the end of life an exploited vulnerability sets 14 days, and a worse
case keeps that deadline only in the same branch or when it is Critical. -/
theorem deadline_le_iff {s t : ℤ} (hst : s ≤ t) {eol eol' kev kev' : Bool}
    (heol : eol → eol') (hkev : kev → kev') :
    deadline t eol' kev' ≤ deadline s eol kev ↔
      (s < 200 ∧ eol = false ∧ kev = true → 400 ≤ t ∨ (t < 200 ∧ eol' = false)) := by
  unfold deadline
  cases eol with
  | true =>
    have heol' : eol' = true := heol rfl
    simp only [heol', ↓reduceIte, Bool.true_eq_false, false_and, and_false, false_implies, iff_true]
    split_ifs <;> omega
  | false =>
    cases kev with
    | true =>
      have hkev' : kev' = true := hkev rfl
      cases eol' <;>
        simp only [hkev', Bool.false_eq_true, Bool.true_eq_false, ↓reduceIte, and_true,
          and_false, or_false] <;>
        split_ifs <;> omega
    | false =>
      simp only [Bool.false_eq_true, ↓reduceIte, and_false, false_implies, iff_true]
      split_ifs <;> omega

/-- A worse asset keeps at least as short a deadline exactly when an asset with the 14 days of a
known exploited vulnerability becomes Critical or stays below Medium without reaching its end
of life. -/
theorem slaDays_le_iff {a b : RiskInput}
    (hle : (computeRisk a).breakdown.Le (computeRisk b).breakdown)
    (hkev : hasKev a.cves → hasKev b.cves) (heol : a.eolStatus → b.eolStatus) :
    (computeRisk b).slaDays ≤ (computeRisk a).slaDays ↔
      (weighted (breakdown a) < 200 ∧ a.eolStatus = false ∧ hasKev a.cves = true →
        400 ≤ weighted (breakdown b) ∨
          (weighted (breakdown b) < 200 ∧ b.eolStatus = false)) := by
  rw [slaDays_eq_deadline, slaDays_eq_deadline]
  exact deadline_le_iff (weighted_mono hle) heol hkev

/-- A well protected asset with one exploited CVE. -/
def protectedAsset : RiskInput where
  controlCoverage := .value "full"
  networkExposure := .value "isolated"
  authMethod := .value "mfa+pam"
  criticality := .value "low"
  dataClassification := .value "public"
  cves := [{ cvssV3 := some 2, kev := true }]

/-- The same CVE on an unprotected asset, which is Critical. -/
def exposedAsset : RiskInput where
  controlCoverage := .value "none"
  networkExposure := .value "internet-facing"
  authMethod := .value "none"
  criticality := .value "tier-1"
  dataClassification := .value "restricted"
  cves := [{ cvssV3 := some 2, kev := true }]

theorem slaDays_le_exposed :
    (computeRisk exposedAsset).slaDays ≤ (computeRisk protectedAsset).slaDays :=
  (slaDays_le_iff (a := protectedAsset) (b := exposedAsset)
    ⟨by decide +kernel, by decide +kernel, by decide +kernel, by decide +kernel,
      by decide +kernel, by decide +kernel, by decide +kernel⟩
    id id).mpr fun _ => .inl (by decide +kernel)

/-- The asset at its end of life gets 180 days, where it had 14. -/
theorem slaDays_longer_at_end_of_life :
    ¬ ∀ a b : RiskInput, (computeRisk a).breakdown.Le (computeRisk b).breakdown →
      (hasKev a.cves → hasKev b.cves) → (a.eolStatus → b.eolStatus) →
      (computeRisk b).slaDays ≤ (computeRisk a).slaDays := by
  intro h
  have hle := h protectedAsset { protectedAsset with eolStatus := true }
    ⟨le_rfl, le_rfl, le_rfl, le_rfl, le_rfl, le_rfl, le_rfl⟩ id (fun _ => rfl)
  revert hle
  decide +kernel

end Kepryx.RiskEngine
