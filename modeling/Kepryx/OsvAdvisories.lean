import Mathlib.Order.Bounds.Basic
import Kepryx.UpdateWorkflow

/-!
# Advisories with affected ranges, and the runs of the dependency tasks

OSV gives for an affected package ranges of introduced and fixed events. The scanner reads the
fixed events of all ranges as one list.
-/
namespace Kepryx.OsvAdvisories
open Kepryx.Models Kepryx.Tables Kepryx.SelfSecurity Kepryx.UpdateWorkflow
open Kepryx.Redaction (lower)

/-- `packaging.version` as the tasks rely on it: the text of a version is a text of that version,
and the empty text is none. -/
structure Packaging (V : Type) extends VersionScheme V where
  parse_str : ∀ value v, parse value = some v → parse (str value) = some v
  parse_empty : parse "" = none

/-- The same functions, as `_propose_updates` uses them. -/
def Packaging.order {V : Type} (P : Packaging V) : VersionOrder V := ⟨P.parse, P.str⟩

/-! ## The OSV answers -/

/-- An event of a range; other keys are not read. -/
structure RangeEvent where
  introduced : Option String := none
  fixed : Option String := none
  deriving DecidableEq, Repr

/-- A range: `ECOSYSTEM` and `SEMVER` ranges are about versions, `GIT` ranges about commits. -/
structure AffectedRange where
  type : String
  events : List RangeEvent
  deriving DecidableEq, Repr

/-- An entry of `affected`. -/
structure AffectedPackage where
  name : String
  ranges : List AffectedRange
  deriving DecidableEq, Repr

/-- An advisory of an OSV answer, with its ranges. -/
structure Advisory where
  id : String := ""
  aliases : List String := []
  severity : List (String × String) := []
  affected : List AffectedPackage := []
  summary : Option String := none
  details : Option String := none
  databaseSeverity : String := ""
  deriving DecidableEq, Repr

/-- The versions of the fixed events. -/
def AffectedRange.fixes (r : AffectedRange) : List String := r.events.filterMap (·.fixed)

/-- What `find_vulns` reads of an advisory. -/
def Advisory.read (a : Advisory) : OsvVuln where
  id := a.id
  aliases := a.aliases
  severity := a.severity
  affected := a.affected.map fun p => (p.name, p.ranges.flatMap (·.fixes))
  summary := a.summary
  details := a.details
  databaseSeverity := a.databaseSeverity

def Advisory.cveId (a : Advisory) : String := a.read.cveId

/-- The ranges of an advisory for a package. -/
def Advisory.rangesFor (a : Advisory) (dep : DepRecord) : List AffectedRange :=
  (a.affected.filter fun p => lower p.name = lower dep.name).flatMap (·.ranges)

/-- `fixed_candidates` -/
theorem fixedCandidates_read (a : Advisory) (dep : DepRecord) :
    (a.read.affected.filter fun p => lower p.1 = lower dep.name).flatMap Prod.snd =
      (a.rangesFor dep).flatMap (·.fixes) := by
  simp only [Advisory.read, Advisory.rangesFor, List.filter_map, List.flatMap_map,
    List.flatMap_assoc]
  rfl

/-! ## The smallest fixed version above the installed one -/

variable {V : Type} [LinearOrder V]

/-- The versions above the installed one at which a range of the advisory has a fixed event. -/
def fixesAbove (P : Packaging V) (dep : DepRecord) (a : Advisory) : Set V :=
  {v | ∃ current, P.parse dep.version = some current ∧ current < v ∧
    ∃ r ∈ a.rangesFor dep, ∃ value ∈ r.fixes, P.parse value = some v}

section FixedVersion
variable {P : Packaging V} {dep : DepRecord} {a : Advisory}

omit [LinearOrder V] in
theorem mem_valid {values : List String} {v : V} {value : String} :
    (v, value) ∈ values.filterMap (fun value => (P.parse value).map fun v => (v, value)) ↔
      value ∈ values ∧ P.parse value = some v := by
  simp only [List.mem_filterMap, Option.map_eq_some_iff, Prod.mk.injEq]
  constructor
  · rintro ⟨_, hvalue, _, hv, rfl, rfl⟩
    exact ⟨hvalue, hv⟩
  · rintro ⟨hvalue, hv⟩
    exact ⟨value, hvalue, v, hv, rfl, rfl⟩

theorem mem_fixesAbove {current v : V} (hcurrent : P.parse dep.version = some current) :
    v ∈ fixesAbove P dep a ↔ current < v ∧
      ∃ value ∈ (a.rangesFor dep).flatMap (·.fixes), P.parse value = some v := by
  simp only [fixesAbove, Set.mem_ofPred_eq, hcurrent, Option.some.injEq, exists_eq_left',
    List.mem_flatMap]
  refine and_congr_right fun _ => ?_
  constructor
  · rintro ⟨r, hr, value, hvalue, hv⟩
    exact ⟨value, ⟨r, hr, hvalue⟩, hv⟩
  · rintro ⟨value, ⟨r, hr, hvalue⟩, hv⟩
    exact ⟨r, hr, value, hvalue, hv⟩

/-- The fixed version of a finding is the least fix above the installed version. -/
theorem fixedVersion_some {text : String}
    (h : fixedVersion P.toVersionScheme dep a.read.affected = some text) :
    ∃ v, P.parse text = some v ∧ IsLeast (fixesAbove P dep a) v := by
  unfold fixedVersion at h
  dsimp only at h
  rw [fixedCandidates_read] at h
  split at h
  · cases h
  · rename_i current hcurrent
    obtain ⟨⟨v, value⟩, hargmin, rfl⟩ := Option.map_eq_some_iff.mp h
    obtain ⟨hvalid, habove⟩ := List.mem_filter.mp (List.argmin_mem hargmin)
    obtain ⟨hvalue, hv⟩ := mem_valid.mp hvalid
    refine ⟨v, P.parse_str value v hv, ?_, ?_⟩
    · exact (mem_fixesAbove hcurrent).mpr ⟨of_decide_eq_true habove, value, hvalue, hv⟩
    · intro w hw
      obtain ⟨hlt, value', hvalue', hw⟩ := (mem_fixesAbove hcurrent).mp hw
      refine List.le_of_mem_argmin (List.mem_filter.mpr ⟨mem_valid.mpr ⟨hvalue', hw⟩, ?_⟩) hargmin
      exact decide_eq_true hlt

/-- A finding has a fixed version if there is a fix above the installed one. -/
theorem fixedVersion_ne_none {v : V} (hv : v ∈ fixesAbove P dep a) :
    fixedVersion P.toVersionScheme dep a.read.affected ≠ none := by
  have hinstalled := hv
  obtain ⟨current, hcurrent, -⟩ := hinstalled
  obtain ⟨hlt, value, hvalue, hv⟩ := (mem_fixesAbove hcurrent).mp hv
  unfold fixedVersion
  dsimp only
  rw [fixedCandidates_read, hcurrent]
  intro hnone
  have hempty := List.argmin_eq_none.mp (Option.map_eq_none_iff.mp hnone)
  exact List.filter_eq_nil_iff.mp hempty _ (mem_valid.mpr ⟨hvalue, hv⟩) (decide_eq_true hlt)

end FixedVersion

/-! ## The runs -/

/-- What the first phase of the scan gathers: the installed distributions, the OSV answers and
the latest versions. -/
structure Gathered where
  distributions : List (String × String)
  advisories : DepRecord → List Advisory
  latest : DepRecord → Option String

/-- The scan of the component `api`; the excluded packages come from the settings. -/
def Gathered.scan (P : Packaging V) (g : Gathered) : Scan V where
  inventory := scanInstalledPythonDeps "api" g.distributions
  excluded := []
  versions := P.toVersionScheme
  vulns dep := (g.advisories dep).map Advisory.read
  latest := g.latest

/-- The operations between two scans. -/
inductive Request where
  | propose (now : Time)
  | suppress (finding : ℕ × String) (reason username : String)
  | exclude (packages : List String)

/-- A scan, whose first phase may raise, or another operation. -/
inductive Event where
  | scan (now : Time) (gathered : Option Gathered)
  | request (r : Request)

/-- An operation between two scans. -/
def perform (P : Packaging V) (s : State) : Request → State
  | .propose now => (proposeUpdates P.order now s).toOption.getD s
  | .suppress finding reason username => suppressFinding finding reason username s
  | .exclude packages => updateSettings (some packages) none s

@[simp] theorem perform_propose (P : Packaging V) (s : State) (now : Time) :
    perform P s (.propose now) = (proposeUpdates P.order now s).toOption.getD s := rfl

def step (P : Packaging V) (s : State) : Event → State
  | .scan now gathered => scanPlatformDeps now (gathered.map (Gathered.scan P)) s
  | .request r => perform P s r

end Kepryx.OsvAdvisories
