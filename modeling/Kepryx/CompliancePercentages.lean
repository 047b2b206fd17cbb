import Mathlib.Algebra.Field.Rat
import Mathlib.Data.List.Nodup
import Mathlib.Logic.Function.Basic
import Mathlib.Tactic.NormNum
import Kepryx.GroupedFold

/-!
# The compliance percentage in four read models

Without a completed assessment, the compliance summary, the packet of the assistant, the audit
report and the dashboard all read the same counts by framework and status. Each folds the rows
into a dictionary of its own and divides the compliant controls by what it takes for the
applicable ones. How a quotient is rounded is a parameter.
-/
namespace Kepryx.CompliancePercentages
open Kepryx.GroupedFold

inductive Status where
  | compliant | partially | gap | exception | notAssessed | notApplicable | na | unknown
  deriving DecidableEq, Repr

/-- A row of the query: the number of mappings of a framework with a status. -/
structure Row where
  framework : String
  status : Status
  count : ℕ
  deriving DecidableEq, Repr

/-- `round(x, digits)`, which leaves zero as it is. -/
structure Rounding where
  round : ℕ → ℚ → ℚ
  zero : ∀ digits, round digits 0 = 0

/-- No rounding at all. -/
def Rounding.exact : Rounding := ⟨fun _ x => x, fun _ => rfl⟩

/-- `round(part / whole * 100, digits) if whole else 0` -/
def percentage (rounding : Rounding) (digits part whole : ℕ) : ℚ :=
  if whole ≠ 0 then rounding.round digits ((part : ℚ) / whole * 100) else 0

theorem percentage_zero (rounding : Rounding) (digits whole : ℕ) :
    percentage rounding digits 0 whole = 0 := by
  simp [percentage, rounding.zero]

/-- Unrounded, a positive part has the same percentage of two wholes only if these are equal. -/
theorem whole_eq_of_percentage {digits digits' part whole whole' : ℕ} (hpart : 0 < part)
    (hwhole : 0 < whole) (hwhole' : 0 < whole')
    (h : percentage .exact digits part whole = percentage .exact digits' part whole') :
    whole = whole' := by
  have hquotient : (part : ℚ) / whole * 100 = (part : ℚ) / whole' * 100 := by
    simpa [percentage, Rounding.exact, hwhole.ne', hwhole'.ne'] using h
  have hp : (part : ℚ) ≠ 0 := by exact_mod_cast hpart.ne'
  have hw : (whole : ℚ) ≠ 0 := by exact_mod_cast hwhole.ne'
  have hw' : (whole' : ℚ) ≠ 0 := by exact_mod_cast hwhole'.ne'
  have hdiv : (part : ℚ) / whole = part / whole' := mul_right_cancel₀ (by norm_num) hquotient
  have hmul : (part : ℚ) * whole' = part * whole := (div_eq_div_iff hw hw').mp hdiv
  exact_mod_cast (mul_left_cancel₀ hp hmul).symm

variable (rounding : Rounding)

/-! ## The summary of the compliance endpoints -/

/-- A count for each status, zero where there is none. -/
abbrev Counts := Status → ℕ

/-- `_empty_counts` -/
def emptyCounts : Counts := fun _ => 0

/-- `_add_count` -/
def addCount (target : Counts) (row : Row) : Counts :=
  let key := if row.status = .na then .notApplicable else row.status
  let target := Function.update target key (target key + row.count)
  if row.status = .na then Function.update target .na (target .na + row.count) else target

/-- A framework in a summary. -/
structure Entry where
  counts : Counts
  total : ℕ
  assessed : ℕ := 0
  compliancePct : ℚ

/-- The sum over the seven statuses other than `na`. -/
def Counts.total (counts : Counts) : ℕ :=
  counts .compliant + counts .partially + counts .gap + counts .exception + counts .notAssessed +
    counts .notApplicable + counts .unknown

/-- `_finalize_counts` -/
def finalizeCounts (target : Counts) : Entry :=
  let applicable := target.total - target .notApplicable
  { counts := target
    total := target.total
    assessed := applicable - target .notAssessed
    compliancePct := percentage rounding 2 (target .compliant) applicable }

/-- `_legacy_summary` -/
def legacySummary (rows : List Row) : Dict String Entry := fun framework =>
  (group Row.framework emptyCounts addCount rows framework).map (finalizeCounts rounding)

/-! ## The packet of the assistant -/

/-- `_safe_text` -/
def safeText (limit : ℕ) (value : String) : String :=
  String.ofList ((value.toList.filter fun c => c = '\n' || c = '\t' || 32 ≤ c.toNat).take limit)

/-- `_safe_text(framework, 32) or "unknown"` -/
def packetKey (framework : String) : String :=
  if safeText 32 framework = "" then "unknown" else safeText 32 framework

/-- The loop of `build_evidence_packet`, which assigns. -/
def assignCount (values : Counts) (row : Row) : Counts :=
  let key := if row.status = .na then .notApplicable else row.status
  let values := Function.update values key row.count
  if row.status = .na then Function.update values .na row.count else values

def finalizePacket (values : Counts) : Entry :=
  let applicable := values.total - values .notApplicable
  { counts := values
    total := values.total
    compliancePct := percentage rounding 2 (values .compliant) applicable }

/-- The part `compliance` of `build_evidence_packet`. -/
def packetCompliance (rows : List Row) : Dict String Entry := fun key =>
  (group (fun r => packetKey r.framework) emptyCounts assignCount rows key).map
    (finalizePacket rounding)

/-! ## The audit report -/

/-- The row of a framework in the report. -/
structure ReportRow where
  compliant : ℕ
  partially : ℕ
  gap : ℕ
  na : ℕ
  total : ℕ
  pct : ℚ

/-- `summary.setdefault(row.framework, {})[row.status] = row.count` -/
def setCount (values : Status → Option ℕ) (row : Row) : Status → Option ℕ :=
  Function.update values row.status (some row.count)

/-- A row of the table in `export_compliance_pdf`. -/
def reportRow (s : Status → Option ℕ) : ReportRow :=
  let get := fun status => (s status).getD 0
  let na := (s .notApplicable).getD (get .na)
  let total :=
    get .compliant + get .partially + get .gap + na + get .exception + get .notAssessed
  { compliant := get .compliant
    partially := get .partially
    gap := get .gap
    na := na
    total := total
    pct := percentage rounding 1 (get .compliant) (total - na) }

def reportTable (rows : List Row) : Dict String ReportRow := fun framework =>
  (group Row.framework (fun _ => none) setCount rows framework).map (reportRow rounding)

/-! ## The dashboard -/

/-- `values[status] = count` in `dashboard_overview`. -/
def overwriteCount (values : Counts) (row : Row) : Counts :=
  Function.update values row.status row.count

def dashboardEntry (values : Counts) : Entry :=
  let total := values.total + values .na
  { counts := values
    total := total
    compliancePct := percentage rounding 2 (values .compliant) total }

/-- The part `compliance` of `dashboard_overview`. -/
def dashboardCompliance (rows : List Row) : Dict String Entry := fun framework =>
  (group Row.framework emptyCounts overwriteCount rows framework).map (dashboardEntry rounding)

/-! ## What all of them read -/

/-- The rows of the query, one for each framework and status that occurs. No two frameworks
share the name under which the assistant shows them: the writer takes the codes of the
catalog. -/
structure StatusCounts where
  rows : List Row
  grouped : (rows.map fun r => (r.framework, r.status)).Nodup
  positive : ∀ r ∈ rows, 0 < r.count
  named : ∀ r ∈ rows, ∀ r' ∈ rows, packetKey r'.framework = packetKey r.framework →
    r'.framework = r.framework

def StatusCounts.frameworks (t : StatusCounts) : List String := t.rows.map Row.framework

/-- The rows of a framework. -/
def rowsOf (rows : List Row) (framework : String) : List Row :=
  rows.filter fun r => r.framework = framework

/-- The number of mappings of a framework with a status. -/
def StatusCounts.count (t : StatusCounts) (framework : String) (status : Status) : ℕ :=
  (((rowsOf t.rows framework).find? fun r => r.status = status).map Row.count).getD 0

/-- All mappings of a framework that are neither `not_applicable` nor `na`. -/
def StatusCounts.applicable (t : StatusCounts) (framework : String) : ℕ :=
  t.count framework .compliant + t.count framework .partially + t.count framework .gap +
    t.count framework .exception + t.count framework .notAssessed + t.count framework .unknown

theorem statuses_nodup (t : StatusCounts) (framework : String) :
    ((rowsOf t.rows framework).map Row.status).Nodup := by
  refine List.Nodup.map_on ?_ ((List.Nodup.of_map _ t.grouped).filter _)
  intro r hr r' hr' hstatus
  have hr := List.mem_filter.mp hr
  have hr' := List.mem_filter.mp hr'
  refine List.inj_on_of_nodup_map t.grouped hr.1 hr'.1 (Prod.ext ?_ hstatus)
  exact (of_decide_eq_true hr.2).trans (of_decide_eq_true hr'.2).symm

/-- A status that only its own row sets has the count of that row. -/
theorem observed_count {ν : Type*} {add : ν → Row → ν} {status : Status} (observe : ν → ℕ)
    (hother : ∀ v r, r.status ≠ status → observe (add v r) = observe v)
    (hself : ∀ v r, r.status = status → observe v = 0 → observe (add v r) = r.count)
    (t : StatusCounts) (framework : String) {init : ν} (hinit : observe init = 0) :
    observe ((rowsOf t.rows framework).foldl add init) = t.count framework status :=
  foldl_observed observe hother hself (statuses_nodup t framework) hinit

/-- The statuses that the summary and the packet keep apart. -/
def Plain (status : Status) : Prop := status ≠ .na ∧ status ≠ .notApplicable

theorem addCount_of_ne {status : Status} (hplain : Plain status) (v : Counts) (r : Row)
    (h : r.status ≠ status) : addCount v r status = v status := by
  obtain ⟨hna, hnotApplicable⟩ := hplain
  unfold addCount
  by_cases hr : r.status = .na
  · simp [hr, hna, hnotApplicable]
  · simp [hr, Ne.symm h]

theorem addCount_self {status : Status} (hplain : Plain status) (v : Counts) (r : Row)
    (h : r.status = status) (hzero : v status = 0) : addCount v r status = r.count := by
  have hr : r.status ≠ .na := h ▸ hplain.1
  subst h
  simp [addCount, hr, hzero]

theorem assignCount_of_ne {status : Status} (hplain : Plain status) (v : Counts) (r : Row)
    (h : r.status ≠ status) : assignCount v r status = v status := by
  obtain ⟨hna, hnotApplicable⟩ := hplain
  unfold assignCount
  by_cases hr : r.status = .na
  · simp [hr, hna, hnotApplicable]
  · simp [hr, Ne.symm h]

theorem assignCount_self {status : Status} (hplain : Plain status) (v : Counts) (r : Row)
    (h : r.status = status) : assignCount v r status = r.count := by
  have hr : r.status ≠ .na := h ▸ hplain.1
  subst h
  simp [assignCount, hr]

/-- What a dictionary that keeps the plain statuses apart takes for the applicable controls. -/
theorem applicable_of_plain {t : StatusCounts} {framework : String} {counts : Counts}
    (h : ∀ status, Plain status → counts status = t.count framework status) :
    counts .compliant = t.count framework .compliant ∧
      counts.total - counts .notApplicable = t.applicable framework := by
  have hcompliant := h .compliant (by simp [Plain])
  have hpartially := h .partially (by simp [Plain])
  have hgap := h .gap (by simp [Plain])
  have hexception := h .exception (by simp [Plain])
  have hnotAssessed := h .notAssessed (by simp [Plain])
  have hunknown := h .unknown (by simp [Plain])
  refine ⟨hcompliant, ?_⟩
  unfold Counts.total StatusCounts.applicable
  omega

/-! ## What each of them shows -/

theorem group_framework {ν : Type*} (init : ν) (add : ν → Row → ν) {t : StatusCounts}
    {framework : String} (h : framework ∈ t.frameworks) :
    group Row.framework init add t.rows framework =
      some ((rowsOf t.rows framework).foldl add init) := by
  obtain ⟨r, hr, rfl⟩ := List.mem_map.mp h
  exact group_lookup Row.framework init add hr

/-- The assistant groups the rows of a framework in the same way, under the name it shows. -/
theorem group_packetKey {ν : Type*} (init : ν) (add : ν → Row → ν) {t : StatusCounts}
    {framework : String} (h : framework ∈ t.frameworks) :
    group (fun r => packetKey r.framework) init add t.rows (packetKey framework) =
      some ((rowsOf t.rows framework).foldl add init) := by
  obtain ⟨r, hr, rfl⟩ := List.mem_map.mp h
  have hrows : (t.rows.filter fun x => packetKey x.framework = packetKey r.framework) =
      rowsOf t.rows r.framework := by
    refine List.filter_congr fun x hx => ?_
    have hiff : packetKey x.framework = packetKey r.framework ↔ x.framework = r.framework :=
      ⟨t.named r hr x hx, congrArg packetKey⟩
    simp [hiff]
  rw [group_lookup (fun x : Row => packetKey x.framework) init add hr, hrows]

theorem summary_pct {t : StatusCounts} {framework : String} (h : framework ∈ t.frameworks) :
    (legacySummary rounding t.rows framework).map Entry.compliancePct =
      some (percentage rounding 2 (t.count framework .compliant) (t.applicable framework)) := by
  have hplain : ∀ status, Plain status →
      (rowsOf t.rows framework).foldl addCount emptyCounts status = t.count framework status :=
    fun status hplain => observed_count (fun v : Counts => v status) (addCount_of_ne hplain)
      (addCount_self hplain) t framework rfl
  obtain ⟨hcompliant, happlicable⟩ := applicable_of_plain hplain
  simp only [legacySummary, group_framework _ _ h, Option.map_some, finalizeCounts, hcompliant,
    happlicable]

theorem packet_pct {t : StatusCounts} {framework : String} (h : framework ∈ t.frameworks) :
    (packetCompliance rounding t.rows (packetKey framework)).map Entry.compliancePct =
      some (percentage rounding 2 (t.count framework .compliant) (t.applicable framework)) := by
  have hplain : ∀ status, Plain status →
      (rowsOf t.rows framework).foldl assignCount emptyCounts status = t.count framework status :=
    fun status hplain => observed_count (fun v : Counts => v status) (assignCount_of_ne hplain)
      (fun v r hr _ => assignCount_self hplain v r hr) t framework rfl
  obtain ⟨hcompliant, happlicable⟩ := applicable_of_plain hplain
  simp only [packetCompliance, group_packetKey _ _ h, Option.map_some, finalizePacket, hcompliant,
    happlicable]

/-- The report leaves out the mappings with status `unknown`. -/
theorem report_pct {t : StatusCounts} {framework : String} (h : framework ∈ t.frameworks) :
    (reportTable rounding t.rows framework).map ReportRow.pct =
      some (percentage rounding 1 (t.count framework .compliant)
        (t.applicable framework - t.count framework .unknown)) := by
  have hcount : ∀ status, ((rowsOf t.rows framework).foldl setCount (fun _ => none) status).getD 0 =
      t.count framework status := fun status =>
    observed_count (fun v : Status → Option ℕ => (v status).getD 0)
      (fun v r hr => by simp [setCount, Ne.symm hr]) (fun v r hr _ => by simp [setCount, hr])
      t framework rfl
  have hwhole : ∀ n, t.count framework .compliant + t.count framework .partially +
      t.count framework .gap + n + t.count framework .exception + t.count framework .notAssessed -
        n = t.applicable framework - t.count framework .unknown := by
    intro n
    unfold StatusCounts.applicable
    omega
  simp only [reportTable, group_framework _ _ h, Option.map_some, reportRow, hcount, hwhole]

/-- The dashboard divides by all mappings. -/
theorem dashboard_pct {t : StatusCounts} {framework : String} (h : framework ∈ t.frameworks) :
    (dashboardCompliance rounding t.rows framework).map Entry.compliancePct =
      some (percentage rounding 2 (t.count framework .compliant)
        (t.applicable framework + (t.count framework .notApplicable + t.count framework .na))) := by
  have hcount : ∀ status, (rowsOf t.rows framework).foldl overwriteCount emptyCounts status =
      t.count framework status := fun status =>
    observed_count (fun v : Counts => v status)
      (fun v r hr => by simp [overwriteCount, Ne.symm hr])
      (fun v r hr _ => by simp [overwriteCount, hr]) t framework rfl
  have hwhole : ((rowsOf t.rows framework).foldl overwriteCount emptyCounts).total +
      t.count framework .na =
        t.applicable framework + (t.count framework .notApplicable + t.count framework .na) := by
    simp only [Counts.total, StatusCounts.applicable, hcount]
    omega
  simp only [dashboardCompliance, group_framework _ _ h, Option.map_some, dashboardEntry, hcount,
    hwhole]

/-! ## When they agree -/

/-- All four show the share of the compliant controls among the applicable ones, each rounded
to its own number of digits. -/
def Agree (t : StatusCounts) (framework : String) : Prop :=
  let compliant := t.count framework .compliant
  let applicable := t.applicable framework
  (legacySummary rounding t.rows framework).map Entry.compliancePct =
      some (percentage rounding 2 compliant applicable) ∧
    (packetCompliance rounding t.rows (packetKey framework)).map Entry.compliancePct =
      some (percentage rounding 2 compliant applicable) ∧
    (reportTable rounding t.rows framework).map ReportRow.pct =
      some (percentage rounding 1 compliant applicable) ∧
    (dashboardCompliance rounding t.rows framework).map Entry.compliancePct =
      some (percentage rounding 2 compliant applicable)

/-- No mapping has a status that one of them treats on its own. -/
def Uniform (t : StatusCounts) (framework : String) : Prop :=
  t.count framework .unknown = 0 ∧ t.count framework .notApplicable = 0 ∧
    t.count framework .na = 0

theorem agree_of_none {t : StatusCounts} {framework : String} (h : framework ∈ t.frameworks)
    (hnone : t.count framework .compliant = 0) : Agree rounding t framework := by
  simp only [Agree, summary_pct rounding h, packet_pct rounding h, report_pct rounding h,
    dashboard_pct rounding h, hnone, percentage_zero, and_self]

theorem agree_of_uniform {t : StatusCounts} {framework : String} (h : framework ∈ t.frameworks)
    (huniform : Uniform t framework) : Agree rounding t framework := by
  obtain ⟨hunknown, hnotApplicable, hna⟩ := huniform
  simp only [Agree, summary_pct rounding h, packet_pct rounding h, report_pct rounding h,
    dashboard_pct rounding h, hunknown, hnotApplicable, hna, Nat.sub_zero, Nat.add_zero,
    and_self]

theorem uniform_of_agree {t : StatusCounts} {framework : String} (h : framework ∈ t.frameworks)
    (hsome : 0 < t.count framework .compliant) (hagree : Agree .exact t framework) :
    Uniform t framework := by
  have happlicable : t.count framework .compliant + t.count framework .unknown ≤
      t.applicable framework := by
    unfold StatusCounts.applicable
    omega
  obtain ⟨-, -, hreport, hdashboard⟩ := hagree
  rw [report_pct _ h] at hreport
  rw [dashboard_pct _ h] at hdashboard
  have hunknown := whole_eq_of_percentage hsome (by omega) (by omega) (Option.some.inj hreport)
  have hna := whole_eq_of_percentage hsome (by omega) (by omega) (Option.some.inj hdashboard)
  unfold Uniform
  omega

/-- The four agree on a framework, however they round, if and only if it has no compliant
control or all its mappings have a status that they treat alike. -/
theorem agree_iff (t : StatusCounts) :
    (∀ framework ∈ t.frameworks, ∀ rounding, Agree rounding t framework) ↔
      ∀ framework ∈ t.frameworks,
        t.count framework .compliant = 0 ∨ Uniform t framework := by
  constructor
  · intro hagree framework h
    rcases Nat.eq_zero_or_pos (t.count framework .compliant) with hnone | hsome
    · exact .inl hnone
    · exact .inr (uniform_of_agree h hsome (hagree framework h .exact))
  · intro hcondition framework h rounding
    rcases hcondition framework h with hnone | huniform
    · exact agree_of_none rounding h hnone
    · exact agree_of_uniform rounding h huniform

/-- One compliant control, one that is not applicable. -/
def halfApplicable : StatusCounts where
  rows := [⟨"nist-800-53", .compliant, 1⟩, ⟨"nist-800-53", .notApplicable, 1⟩]
  grouped := by decide
  positive := by decide
  named := by simp

/-- The dashboard shows 50 percent where the others show 100. -/
theorem dashboard_disagrees :
    (legacySummary .exact halfApplicable.rows "nist-800-53").map Entry.compliancePct = some 100 ∧
      (packetCompliance .exact halfApplicable.rows "nist-800-53").map Entry.compliancePct =
        some 100 ∧
      (reportTable .exact halfApplicable.rows "nist-800-53").map ReportRow.pct = some 100 ∧
      (dashboardCompliance .exact halfApplicable.rows "nist-800-53").map Entry.compliancePct =
        some 50 ∧
      ¬ ∀ framework ∈ halfApplicable.frameworks, ∀ rounding,
        Agree rounding halfApplicable framework := by
  refine ⟨by decide +kernel, by decide +kernel, by decide +kernel, by decide +kernel, ?_⟩
  intro hagree
  have huniform :=
    uniform_of_agree (by decide) (by decide) (hagree "nist-800-53" (by decide) .exact)
  exact absurd huniform.2.1 (by decide)

end Kepryx.CompliancePercentages
