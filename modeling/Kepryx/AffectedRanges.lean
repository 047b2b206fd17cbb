import Mathlib.Order.WithBot
import Kepryx.UpdateTargets

/-!
# Whether a target leaves the affected ranges

The scanner keeps of each advisory the smallest fix above the installed version, and the target
is the greatest of these. A target chosen for one advisory may lie in a later range of another,
or in a range that overlaps the one that was fixed.
-/
namespace Kepryx.AffectedRanges
open Kepryx.Models Kepryx.Tables Kepryx.Runs Kepryx.SelfSecurity Kepryx.DependencyScan
  Kepryx.OsvAdvisories Kepryx.ScannedFixes Kepryx.UpdateTargets
open Kepryx.UpdateWorkflow hiding step Event

variable {V : Type} [LinearOrder V]

/-! ## Half-open intervals -/

/-- The interval that opens at `start` and ends before the next fix holds the version. -/
def Covers (start : WithBot V) (fixes : Set V) (v : V) : Prop :=
  start ≤ v ∧ ∀ fixed ∈ fixes, start < fixed → v < fixed

/-- The interval spans the targets: it opens at or below one of them, and no fix that follows is
at or below one. -/
def Spans (start : WithBot V) (fixes targets : Set V) : Prop :=
  (∃ t ∈ targets, start ≤ t) ∧ ∀ fixed ∈ fixes, start < fixed → ∀ t ∈ targets, t < fixed

/-- The greatest target is in the interval if and only if the interval spans the targets. -/
theorem covers_greatest_iff {start : WithBot V} {fixes targets : Set V} {v : V}
    (h : IsGreatest targets v) : Covers start fixes v ↔ Spans start fixes targets := by
  constructor
  · rintro ⟨hstart, hfixed⟩
    exact ⟨⟨v, h.1, hstart⟩, fun fixed hmem hlt t ht => (h.2 ht).trans_lt (hfixed fixed hmem hlt)⟩
  · rintro ⟨⟨t, ht, hstart⟩, hfixed⟩
    exact ⟨hstart.trans (WithBot.coe_le_coe.mpr (h.2 ht)),
      fun fixed hmem hlt => hfixed fixed hmem hlt v h.1⟩

/-! ## The ranges of an advisory -/

/-- The place of an introduced event; `"0"` stands for the first version. -/
def startOf (P : Packaging V) (text : String) : Option (WithBot V) :=
  if text = "0" then some ⊥ else (P.parse text).map fun v => (v : WithBot V)

/-- The places at which a range opens. -/
def opens (P : Packaging V) (r : AffectedRange) : Set (WithBot V) :=
  {start | r.type ≠ "GIT" ∧ ∃ e ∈ r.events, ∃ text, e.introduced = some text ∧
    startOf P text = some start}

/-- The versions at which a range is fixed. -/
def fixesOf (P : Packaging V) (r : AffectedRange) : Set V :=
  {v | ∃ value ∈ r.fixes, P.parse value = some v}

/-- The version is in one of the affected ranges of the advisory for the package. -/
def Affects (P : Packaging V) (dep : DepRecord) (a : Advisory) (v : V) : Prop :=
  ∃ r ∈ a.rangesFor dep, ∃ start ∈ opens P r, Covers start (fixesOf P r) v

/-! ## The advisories that decide the target -/

/-- The last advisory with an identifier, whose fix the scan stores. -/
def lastAdvisory (advisories : List Advisory) (cveId : String) : Option Advisory :=
  advisories.reverse.find? fun a => a.cveId = cveId

/-- The advisory is the last one with its identifier, and its finding is not suppressed. -/
def Counts (g : Gathered) (s : State) (dep : DepRecord) (p : PlatformDependency) (a : Advisory) :
    Prop :=
  lastAdvisory (g.advisories dep) a.cveId = some a ∧
    ∃ f, s.db.findings.find (p.id, a.cveId) = some f ∧ f.suppressed = false

/-- The smallest fixes above the installed version of the advisories that count. -/
def targets (P : Packaging V) (g : Gathered) (s : State) (dep : DepRecord)
    (p : PlatformDependency) : Set V :=
  {v | ∃ a, Counts g s dep p a ∧ IsLeast (fixesAbove P dep a) v}

/-- The advisory is listed: one with its identifier counts and has a fix above the installed
version. -/
def Listed (P : Packaging V) (g : Gathered) (s : State) (dep : DepRecord)
    (p : PlatformDependency) (a : Advisory) : Prop :=
  ∃ b, Counts g s dep p b ∧ b.cveId = a.cveId ∧ (fixesAbove P dep b).Nonempty

/-- The row is the one of the installed package, and the proposal is for it. -/
def For (P : Packaging V) (g : Gathered) (s : State) (n : UpdateProposal) (dep : DepRecord)
    (p : PlatformDependency) : Prop :=
  dep ∈ (g.scan P).inventory.deps ∧ p ∈ s.db.dependencies.rows ∧ matchesDep dep p ∧
    p.id = n.dependencyId

/-- The target is a version outside the affected ranges of every advisory that the proposal
lists. -/
def Clears (P : Packaging V) (g : Gathered) (s : State) (n : UpdateProposal) : Prop :=
  ∀ dep p, For P g s n dep p → ∀ a ∈ g.advisories dep, a.cveId ∈ n.cvesFixed →
    ∃ v, P.parse n.targetVersion = some v ∧ ¬ Affects P dep a v

/-- No interval of a listed advisory opens at or below one of the smallest fixes and is followed
only by fixes above all of them. -/
def NoneSpans (P : Packaging V) (g : Gathered) (s : State) (n : UpdateProposal) : Prop :=
  ∀ dep p, For P g s n dep p → ∀ a ∈ g.advisories dep, Listed P g s dep p a →
    ∀ r ∈ a.rangesFor dep, ∀ start ∈ opens P r,
      ¬ Spans start (fixesOf P r) (targets P g s dep p)

/-! ## What a scan and the operations after it leave -/

/-- If the last scan succeeded, the findings of every installed package have the fixed versions
that were reported last. -/
def AfterScan (P : Packaging V) (g : Gathered) (s : State) : Prop :=
  s.settings.lastScanStatus = .success → ∃ excluded, ∀ dep ∈ (g.scan P).inventory.deps,
    FixesStored { g.scan P with excluded := excluded } s.db.dependencies s.db.findings dep

theorem afterScan_scan (P : Packaging V) (g : Gathered) (now : Time) (s : State) :
    AfterScan P g (step P s (.scan now (some g))) := by
  unfold step scanPlatformDeps
  dsimp only [Option.map_some]
  split
  · exact fun h => nomatch h
  · split
    · exact fun h => nomatch h
    · rename_i db hdb
      exact fun _ => ⟨_, (persistScan_fixes hdb).installed⟩

theorem proposeUpdates_settings {versions : VersionOrder V} {now : Time} {s s' : State}
    (h : proposeUpdates versions now s = .ok s') : s'.settings = s.settings := by
  unfold proposeUpdates at h
  split at h
  · obtain ⟨proposals, -, h⟩ := Results.bind_eq_ok.mp h
    cases h
    rfl
  · cases h
    rfl

theorem afterScan_perform {P : Packaging V} {g : Gathered} (s : State) (r : Request)
    (hs : AfterScan P g s) : AfterScan P g (perform P s r) := by
  cases r with
  | propose now =>
    rw [perform_propose]
    cases h : proposeUpdates P.order now s with
    | error e => exact hs
    | ok s' =>
      obtain ⟨hdeps, hfindings⟩ := proposeUpdates_tables h
      show AfterScan P g s'
      unfold AfterScan
      rw [hdeps, hfindings, proposeUpdates_settings h]
      exact hs
  | suppress finding reason username =>
    have hsettings : (suppressFinding finding reason username s).settings = s.settings := by
      unfold suppressFinding
      split <;> rfl
    intro hsuccess
    obtain ⟨excluded, hstored⟩ := hs (hsettings ▸ hsuccess)
    refine ⟨excluded, fun dep hdep p hp hm => ?_⟩
    have hp : p ∈ s.db.dependencies.rows := suppress_dependencies finding reason username s ▸ hp
    obtain ⟨hversion, hfixes⟩ := hstored dep hdep p hp hm
    refine ⟨hversion, fun x f hf => ?_⟩
    obtain ⟨old, hold, hfixed⟩ := suppress_find hf
    obtain ⟨finding, hlast, hsame⟩ := hfixes x old hold
    exact ⟨finding, hlast, hfixed.trans hsame⟩
  | exclude packages => exact hs

/-! ## The target of a proposal -/

theorem lastReported_findVulns (versions : VersionScheme V) (dep : DepRecord)
    (advisories : List Advisory) (cveId : String) :
    lastReported (findVulns versions dep (advisories.map Advisory.read)) cveId =
      (lastAdvisory advisories cveId).map fun a => readVuln versions dep a.read := by
  unfold lastReported lastAdvisory findVulns
  rw [List.map_map, ← List.map_reverse, List.find?_map]
  rfl

section Target
variable {P : Packaging V} {g : Gathered} {s : State} {dep : DepRecord} {p : PlatformDependency}
  {excluded : List String}

/-- The fixes of the open findings are those of the advisories that count. -/
theorem mem_fixes_iff (hstored : FixesStored { g.scan P with excluded := excluded }
      s.db.dependencies s.db.findings dep) (hp : p ∈ s.db.dependencies.rows)
    (hm : matchesDep dep p) {cve text : String} :
    (cve, text) ∈ fixes (openFindings s.db.findings p) ↔ ∃ a, Counts g s dep p a ∧ a.cveId = cve ∧
      fixedVersion P.toVersionScheme dep a.read.affected = some text := by
  have hlast : ∀ x f, s.db.findings.find (p.id, x) = some f → ∃ a,
      lastAdvisory (g.advisories dep) x = some a ∧
        f.fixedVersion = fixedVersion P.toVersionScheme dep a.read.affected := by
    intro x f hf
    obtain ⟨finding, hlast, hfixed⟩ := (hstored p hp hm).2 x f hf
    unfold Scan.reported at hlast
    split at hlast
    · cases hlast
    · rw [show ({ g.scan P with excluded := excluded } : Scan V).vulns dep =
        (g.advisories dep).map Advisory.read from rfl, lastReported_findVulns] at hlast
      obtain ⟨a, ha, rfl⟩ := Option.map_eq_some_iff.mp hlast
      exact ⟨a, ha, hfixed⟩
  rw [mem_fixes]
  constructor
  · rintro ⟨f, hf, rfl, hfixed, -⟩
    obtain ⟨hfind, hopen⟩ := mem_openFindings.mp hf
    obtain ⟨a, ha, hsame⟩ := hlast f.cveId f hfind
    have hid : a.cveId = f.cveId := by simpa using List.find?_some ha
    exact ⟨a, ⟨hid ▸ ha, f, hid ▸ hfind, hopen⟩, hid, hsame.symm.trans hfixed⟩
  · rintro ⟨a, ⟨ha, f, hfind, hopen⟩, rfl, hfixed⟩
    obtain ⟨b, hb, hsame⟩ := hlast a.cveId f hfind
    obtain rfl : a = b := Option.some.inj (ha.symm.trans hb)
    have hid : f.cveId = a.cveId := congrArg Prod.snd (Table.find_some_key hfind)
    refine ⟨f, mem_openFindings.mpr ⟨hid ▸ hfind, hopen⟩, hid, hsame.trans hfixed, ?_⟩
    rintro rfl
    obtain ⟨v, hv, -⟩ := fixedVersion_some hfixed
    cases P.parse_empty.symm.trans hv

theorem exists_fixedVersion {a : Advisory} {v : V} (hv : v ∈ fixesAbove P dep a) :
    ∃ text, fixedVersion P.toVersionScheme dep a.read.affected = some text :=
  Option.ne_none_iff_exists'.mp (fixedVersion_ne_none hv)

/-- The target is the greatest of the smallest fixes. -/
theorem target_greatest (hstored : FixesStored { g.scan P with excluded := excluded }
      s.db.dependencies s.db.findings dep) (hp : p ∈ s.db.dependencies.rows)
    (hm : matchesDep dep p) {target : String} (h : newestTarget P.order
      ((fixes (openFindings s.db.findings p)).map Prod.snd) = some target) :
    ∃ v, P.parse target = some v ∧ IsGreatest (targets P g s dep p) v := by
  obtain ⟨v, hv, ⟨text, htext, hparse⟩, hgreatest⟩ := newestTarget_some h
  refine ⟨v, hv, ?_, ?_⟩
  · obtain ⟨⟨cve, text⟩, hmem, rfl⟩ := List.mem_map.mp htext
    obtain ⟨a, ha, -, hfixed⟩ := (mem_fixes_iff hstored hp hm).mp hmem
    obtain ⟨w, hw, hleast⟩ := fixedVersion_some hfixed
    obtain rfl : w = v := Option.some.inj (hw.symm.trans hparse)
    exact ⟨a, ha, hleast⟩
  · rintro w ⟨a, ha, hleast⟩
    obtain ⟨text, hfixed⟩ := exists_fixedVersion hleast.1
    obtain ⟨w', hw', hleast'⟩ := fixedVersion_some hfixed
    obtain rfl : w' = w := hleast'.unique hleast
    have hmem : text ∈ (fixes (openFindings s.db.findings p)).map Prod.snd :=
      List.mem_map.mpr ⟨_, (mem_fixes_iff hstored hp hm).mpr ⟨a, ha, rfl, hfixed⟩, rfl⟩
    obtain ⟨x, hle, hx⟩ := hgreatest text hmem
    rwa [Option.some.inj (hw'.symm.trans hx)]

theorem listed_iff (hstored : FixesStored { g.scan P with excluded := excluded }
      s.db.dependencies s.db.findings dep) (hp : p ∈ s.db.dependencies.rows)
    (hm : matchesDep dep p) (a : Advisory) :
    a.cveId ∈ (fixes (openFindings s.db.findings p)).map Prod.fst ↔ Listed P g s dep p a := by
  constructor
  · intro h
    obtain ⟨⟨cve, text⟩, hmem, hcve⟩ := List.mem_map.mp h
    obtain ⟨b, hb, hid, hfixed⟩ := (mem_fixes_iff hstored hp hm).mp hmem
    obtain ⟨v, -, hleast⟩ := fixedVersion_some hfixed
    exact ⟨b, hb, hid.trans hcve, v, hleast.1⟩
  · rintro ⟨b, hb, hid, v, hv⟩
    obtain ⟨text, hfixed⟩ := exists_fixedVersion hv
    exact List.mem_map.mpr ⟨_, (mem_fixes_iff hstored hp hm).mpr ⟨b, hb, hid, hfixed⟩, rfl⟩

end Target

/-- Only after a successful scan is a proposal created. -/
theorem success_of_created {P : Packaging V} {now : Time} {s : State} {n : UpdateProposal}
    (hn : n ∈ (perform P s (.propose now)).db.proposals.rows) (hnew : n ∉ s.db.proposals.rows) :
    s.settings.lastScanStatus = .success := by
  rw [perform_propose, proposeUpdates] at hn
  split at hn
  · rename_i hrecent
    simp only [recentlyScanned, Bool.and_eq_true, decide_eq_true_eq] at hrecent
    exact hrecent.1
  · exact absurd hn hnew

/-- The proposal is one that `_propose_updates` creates. -/
def IsCreated (P : Packaging V) (s : State) (now : Time) (n : UpdateProposal) : Prop :=
  n ∈ (perform P s (.propose now)).db.proposals.rows ∧ n ∉ s.db.proposals.rows

/-- A proposal that is created after a scan leaves the ranges if and only if no interval of a
listed advisory spans the smallest fixes. -/
theorem clears_iff {P : Packaging V} {g : Gathered} {s : State} (hs : AfterScan P g s) {now : Time}
    {n : UpdateProposal} (hn : IsCreated P s now n) : Clears P g s n ↔ NoneSpans P g s n := by
  obtain ⟨excluded, hstored⟩ := hs (success_of_created hn.1 hn.2)
  obtain ⟨pdep, hpdep, id, target, htarget, rfl⟩ := perform_created hn.1 hn.2
  refine forall₂_congr fun dep p => forall_congr' fun ⟨hdep, hp, hm, hid⟩ => ?_
  obtain rfl : p = pdep := Table.eq_of_key hp hpdep hid
  obtain ⟨v, hv, hgreatest⟩ := target_greatest (hstored dep hdep) hp hm htarget
  refine forall₂_congr fun a _ => imp_congr (listed_iff (hstored dep hdep) hp hm a) ?_
  have hout : (∃ w, P.parse target = some w ∧ ¬ Affects P dep a w) ↔ ¬ Affects P dep a v := by
    simp only [hv, Option.some.injEq, exists_eq_left']
  rw [show (newProposal id p (openFindings s.db.findings p) target).targetVersion = target from rfl,
    hout]
  simp only [Affects, covers_greatest_iff hgreatest, not_exists, not_and]

/-- The state that a scan and the operations after it leave. -/
def scannedThen (P : Packaging V) (s : State) (now : Time) (g : Gathered)
    (requests : List Request) : State :=
  run (perform P) (step P s (.scan now (some g))) requests

/-- The targets that `_propose_updates` computes after a scan lie outside the affected ranges of
the advisories that it lists if and only if no interval of one of these advisories spans the
smallest fixes above the installed version. -/
theorem target_leaves_iff (P : Packaging V) (s : State) (now later : Time) (g : Gathered)
    (requests : List Request) :
    (∀ n, IsCreated P (scannedThen P s now g requests) later n →
      Clears P g (scannedThen P s now g requests) n) ↔
    ∀ n, IsCreated P (scannedThen P s now g requests) later n →
      NoneSpans P g (scannedThen P s now g requests) n := by
  have hs : AfterScan P g (scannedThen P s now g requests) :=
    run_invariant (AfterScan P g) afterScan_perform (afterScan_scan P g now s) requests
  exact forall₂_congr fun n hn => clears_iff hs hn

/-! ## A package that is maintained on two branches -/

/-- The order of the versions of the example. -/
def releases : Packaging ℕ where
  parse text :=
    [("4.1.0", 410), ("4.1.7", 417), ("4.2", 420), ("4.2.1", 421), ("4.2.3", 423)].lookup text
  str text := text
  parse_str _ _ h := h
  parse_empty := by decide

/-- The range of the later branch. -/
def laterRange : AffectedRange :=
  ⟨"ECOSYSTEM", [{ introduced := some "4.2" }, { fixed := some "4.2.3" }]⟩

/-- An advisory that is fixed on both branches. -/
def bothBranches : Advisory where
  id := "CVE-2023-24580"
  affected := [⟨"django", [
    ⟨"ECOSYSTEM", [{ introduced := some "0" }, { fixed := some "4.1.7" }]⟩, laterRange]⟩]

/-- An advisory that is fixed on the later branch only. -/
def oneBranch : Advisory where
  id := "CVE-2023-31047"
  affected := [⟨"django", [
    ⟨"ECOSYSTEM", [{ introduced := some "0" }, { fixed := some "4.2.1" }]⟩]⟩]

def django : DepRecord := ⟨"api", "pip", "django", "4.1.0", some "pkg:pypi/django@4.1.0"⟩

/-- What a scan of the installed package gathers. -/
def gathered : Gathered where
  distributions := [("Django", "4.1.0")]
  advisories _ := [bothBranches, oneBranch]
  latest _ := none

theorem readDistribution_django : readDistribution "api" ("Django", "4.1.0") = some django := by
  decide +kernel

theorem gathered_deps : (gathered.scan releases).inventory.deps = [django] := by
  have hrows : (resolved "api" [("Django", "4.1.0")]).rows = [django] := by
    rw [resolved, List.filterMap_cons_some readDistribution_django]
    rfl
  show (resolved "api" [("Django", "4.1.0")]).rows.mergeSort _ = [django]
  rw [hrows, List.mergeSort_singleton]

/-- The same scan, with the inventory written out. -/
def djangoScan : Scan ℕ :=
  { gathered.scan releases with
    inventory := ⟨"api", [django], by simp [django], by simp⟩ }

theorem gathered_scan : gathered.scan releases = djangoScan := by
  have hinventory : ∀ i : Inventory, i.component = "api" → i.deps = [django] →
      i = ⟨"api", [django], by simp [django], by simp⟩ := by
    rintro ⟨component, deps, -, -⟩ rfl rfl
    rfl
  rw [djangoScan, ← hinventory _ rfl gathered_deps]

/-- The proposal of the example; its target is in the second range of the first advisory. -/
def djangoProposal : UpdateProposal where
  id := 1
  dependencyId := 1
  packageName := "django"
  currentVersion := "4.1.0"
  targetVersion := "4.2.1"
  reason := "cve_fix"
  cvesFixed := ["CVE-2023-24580", "CVE-2023-31047"]

/-- A scan and then the proposals create it, and it moves forward. -/
theorem django_moves_forward :
    djangoProposal ∈ (run (step releases) {}
      [.scan 0 (some gathered), .request (.propose 60)]).db.proposals.rows ∧
    Forward releases (step releases {} (.scan 0 (some gathered))) djangoProposal := by
  have hscan : step releases {} (.scan 0 (some gathered)) =
      scanPlatformDeps 0 (some djangoScan) {} := by
    rw [← gathered_scan]
    rfl
  have hcreated : djangoProposal ∈ (step releases (scanPlatformDeps 0 (some djangoScan) {})
        (.request (.propose 60))).db.proposals.rows ∧
      djangoProposal ∉ (scanPlatformDeps 0 (some djangoScan) {}).db.proposals.rows := by
    decide +kernel
  rw [← hscan] at hcreated
  obtain ⟨-, hforward, -⟩ :=
    proposals_forward releases [.scan 0 (some gathered), .request (.propose 60)]
  exact ⟨hcreated.1, hforward 60 rfl djangoProposal hcreated.1 hcreated.2⟩

theorem affects_bothBranches : Affects releases django bothBranches 421 := by
  refine ⟨laterRange, by decide +kernel, (420 : ℕ), ⟨by decide, _, List.mem_cons_self, "4.2", rfl,
    by decide +kernel⟩, ⟨by decide, ?_⟩⟩
  rintro fixed ⟨value, hvalue, hfixed⟩ -
  rw [show laterRange.fixes = ["4.2.3"] from rfl, List.mem_singleton] at hvalue
  subst hvalue
  obtain rfl : 423 = fixed := Option.some.inj ((by decide +kernel :
    releases.parse "4.2.3" = some 423).symm.trans hfixed)
  decide

/-- The target that is chosen for one advisory is affected by the other one. -/
theorem target_in_later_range :
    ¬ ∀ n, IsCreated releases (scannedThen releases {} 0 gathered []) 60 n →
      Clears releases gathered (scannedThen releases {} 0 gathered []) n := by
  have hscanned : scannedThen releases {} 0 gathered [] =
      scanPlatformDeps 0 (some djangoScan) {} := by
    rw [← gathered_scan]
    rfl
  rw [hscanned]
  have hcreated : IsCreated releases (scanPlatformDeps 0 (some djangoScan) {}) 60
      djangoProposal := by
    constructor <;> decide +kernel
  have hrow : ∃ p ∈ (scanPlatformDeps 0 (some djangoScan) {}).db.dependencies.rows,
      matchesDep django p ∧ p.id = djangoProposal.dependencyId := by
    decide +kernel
  have hdep : django ∈ (gathered.scan releases).inventory.deps := by
    rw [gathered_deps]
    exact List.mem_singleton.mpr rfl
  intro h
  obtain ⟨p, hp, hm, hid⟩ := hrow
  obtain ⟨v, hv, hout⟩ := h djangoProposal hcreated django p ⟨hdep, hp, hm, hid⟩ bothBranches
    List.mem_cons_self (by decide +kernel)
  obtain rfl : 421 = v := Option.some.inj ((by decide +kernel :
    releases.parse djangoProposal.targetVersion = some 421).symm.trans hv)
  exact hout affects_bothBranches

end Kepryx.AffectedRanges
