import Kepryx.OsvAdvisories
import Kepryx.Runs
import Kepryx.ScannedFixes

/-!
# The targets of the proposed updates

A scan compares the fixed versions with the installed one, and `_propose_updates` chooses among
the stored texts later. The findings of a row always have fixed versions above the version of the
row, so a target is above it too.
-/
namespace Kepryx.UpdateTargets
open Kepryx.Models Kepryx.Tables Kepryx.Results Kepryx.Runs Kepryx.SelfSecurity
  Kepryx.DependencyScan Kepryx.OsvAdvisories Kepryx.ScannedFixes
open Kepryx.UpdateWorkflow hiding step Event

variable {V : Type} [LinearOrder V]

/-! ## The newest target -/

theorem mem_of_mapM_option {α β : Type*} {f : α → Option β} {xs : List α} {ys : List β}
    (h : xs.mapM f = some ys) :
    (∀ x ∈ xs, ∃ y ∈ ys, f x = some y) ∧ ∀ y ∈ ys, ∃ x ∈ xs, f x = some y := by
  induction xs generalizing ys with
  | nil =>
    cases h
    simp
  | cons x xs ih =>
    simp only [List.mapM_cons, Option.pure_def, Option.bind_eq_bind, Option.bind_eq_some_iff,
      Option.some.injEq] at h
    obtain ⟨y, hy, ys, hys, rfl⟩ := h
    obtain ⟨hxs, hback⟩ := ih hys
    constructor
    · intro x' hx'
      rcases List.mem_cons.mp hx' with rfl | hx'
      · exact ⟨y, List.mem_cons_self, hy⟩
      · obtain ⟨y', hy', hf⟩ := hxs x' hx'
        exact ⟨y', List.mem_cons_of_mem _ hy', hf⟩
    · intro y' hy'
      rcases List.mem_cons.mp hy' with rfl | hy'
      · exact ⟨x, List.mem_cons_self, hy⟩
      · obtain ⟨x', hx', hf⟩ := hback y' hy'
        exact ⟨x', List.mem_cons_of_mem _ hx', hf⟩

/-- The target is a text of the greatest of the given versions, all of which are valid. -/
theorem newestTarget_some {P : Packaging V} {values : List String} {target : String}
    (h : newestTarget P.order values = some target) :
    ∃ v, P.parse target = some v ∧ (∃ value ∈ values, P.parse value = some v) ∧
      ∀ value ∈ values, ∃ w ≤ v, P.parse value = some w := by
  obtain ⟨valued, hvalued, h⟩ := Option.bind_eq_some_iff.mp h
  obtain ⟨⟨v, value⟩, hargmax, rfl⟩ := Option.map_eq_some_iff.mp h
  obtain ⟨hall, hback⟩ := mem_of_mapM_option hvalued
  obtain ⟨value', hvalue', hv⟩ := hback _ (List.argmax_mem hargmax)
  obtain ⟨v', hparse, heq⟩ := Option.map_eq_some_iff.mp hv
  cases heq
  refine ⟨v, P.parse_str value v hparse, ⟨value, hvalue', hparse⟩, fun text htext => ?_⟩
  obtain ⟨⟨w, text'⟩, hmem, hw⟩ := hall text htext
  obtain ⟨w', hparse', heq⟩ := Option.map_eq_some_iff.mp hw
  cases heq
  exact ⟨w, List.le_of_mem_argmax hmem hargmax, hparse'⟩

/-! ## The proposals that are created -/

/-- The findings that `_propose_updates` reads for a dependency. -/
def openFindings (findings : Table DependencyFinding.key) (pdep : PlatformDependency) :
    List DependencyFinding :=
  findings.rows.filter fun f => f.dependencyId = pdep.id && !f.suppressed

theorem mem_openFindings {findings : Table DependencyFinding.key} {pdep : PlatformDependency}
    {f : DependencyFinding} : f ∈ openFindings findings pdep ↔
      findings.find (pdep.id, f.cveId) = some f ∧ f.suppressed = false := by
  simp only [openFindings, List.mem_filter, Bool.and_eq_true, decide_eq_true_eq, Bool.not_eq_true',
    Table.find_eq_some, DependencyFinding.key, Prod.mk.injEq, and_true, and_assoc]

/-- Each proposal of a dependency is made from its open findings. -/
structure Created (versions : VersionOrder V) (s : State) (pdep : PlatformDependency)
    (n : UpdateProposal) : Prop where
  stored : pdep ∈ s.db.dependencies.rows
  made : ∃ id target, newestTarget versions
      ((fixes (openFindings s.db.findings pdep)).map Prod.snd) = some target ∧
    n = newProposal id pdep (openFindings s.db.findings pdep) target

theorem proposeUpdate_created {versions : VersionOrder V} {excluded : List String}
    {findings : Table DependencyFinding.key} {t t' : Table UpdateProposal.id}
    {pdep : PlatformDependency} (h : proposeUpdate versions excluded findings t pdep = .ok t')
    {n : UpdateProposal} (hn : n ∈ t'.rows) : n ∈ t.rows ∨ ∃ id target,
      newestTarget versions ((fixes (openFindings findings pdep)).map Prod.snd) = some target ∧
        n = newProposal id pdep (openFindings findings pdep) target := by
  unfold proposeUpdate at h
  split at h
  · cases h
    exact .inl hn
  · dsimp only at h
    split at h
    · cases h
      exact .inl hn
    · split at h
      · cases h
        exact .inl hn
      · rename_i target htarget
        split at h
        · cases h
        · cases h
          exact .inl hn
        · split at h
          · cases h
          · rename_i added hadded
            cases h
            rw [(Table.insert?_eq_some hadded).1] at hn
            rcases List.mem_append.mp hn with hn | hn
            · exact .inl hn
            · exact .inr ⟨_, target, htarget, List.mem_singleton.mp hn⟩

theorem proposeUpdates_created {versions : VersionOrder V} {now : Time} {s s' : State}
    (h : proposeUpdates versions now s = .ok s') {n : UpdateProposal}
    (hn : n ∈ s'.db.proposals.rows) :
    n ∈ s.db.proposals.rows ∨ ∃ pdep, Created versions s pdep n := by
  unfold proposeUpdates at h
  split at h
  · obtain ⟨proposals, hloop, h⟩ := bind_eq_ok.mp h
    cases h
    refine foldlM_invariant (fun _ (t : Table UpdateProposal.id) => ∀ n ∈ t.rows,
      n ∈ s.db.proposals.rows ∨ ∃ pdep, Created versions s pdep n) ?_ ?_ hloop n hn
    · intro before pdep after t t' hdeps ht hturn n hn
      rcases proposeUpdate_created hturn hn with hn | hmade
      · exact ht n hn
      · have hmem : pdep ∈ s.db.dependencies.rows.filter fun d => 0 < d.cveCount := by
          simp [hdeps]
        exact .inr ⟨pdep, (List.mem_filter.mp hmem).1, hmade⟩
    · exact fun n hn => .inl hn
  · cases h
    exact .inl hn

/-- The task that raises creates nothing. -/
theorem perform_created {P : Packaging V} {now : Time} {s : State} {n : UpdateProposal}
    (hn : n ∈ (perform P s (.propose now)).db.proposals.rows) (hnew : n ∉ s.db.proposals.rows) :
    ∃ pdep, Created P.order s pdep n := by
  rw [perform_propose] at hn
  cases h : proposeUpdates P.order now s with
  | error e =>
    rw [h] at hn
    exact absurd hn hnew
  | ok s' =>
    rw [h] at hn
    exact (proposeUpdates_created h hn).resolve_left hnew

theorem mem_fixes {findings : List DependencyFinding} {cve text : String} :
    (cve, text) ∈ fixes findings ↔
      ∃ f ∈ findings, f.cveId = cve ∧ f.fixedVersion = some text ∧ text ≠ "" := by
  simp only [fixes, List.mem_filterMap, Option.map_eq_some_iff, Option.filter_eq_some_iff,
    Prod.mk.injEq, decide_eq_true_eq]
  constructor
  · rintro ⟨f, hf, _, ⟨hfixed, hne⟩, hcve, rfl⟩
    exact ⟨f, hf, hcve, hfixed, hne⟩
  · rintro ⟨f, hf, hcve, hfixed, hne⟩
    exact ⟨f, hf, text, ⟨hfixed, hne⟩, hcve, rfl⟩

/-! ## The findings of a row are fixed above its version -/

/-- The fixed version of a finding is above a version text. -/
def FixedAbove (P : Packaging V) (version : String) (f : DependencyFinding) : Prop :=
  ∀ text, f.fixedVersion = some text → ∃ current fixed,
    P.parse version = some current ∧ P.parse text = some fixed ∧ current < fixed

/-- Every stored finding is fixed above the version of its row. -/
def Ahead (P : Packaging V) (s : State) : Prop :=
  ∀ p ∈ s.db.dependencies.rows, ∀ x f, s.db.findings.find (p.id, x) = some f →
    FixedAbove P p.version f

/-- A reported finding is fixed above the installed version. -/
theorem reported_above {P : Packaging V} {g : Gathered} {excluded : List String} {dep : DepRecord}
    {finding : Finding} (h : finding ∈ Scan.reported { g.scan P with excluded := excluded } dep)
    {text : String} (htext : finding.fixedVersion = some text) : ∃ current fixed,
      P.parse dep.version = some current ∧ P.parse text = some fixed ∧ current < fixed := by
  unfold Scan.reported at h
  split at h
  · cases h
  · obtain ⟨vuln, hvuln, rfl⟩ := List.mem_map.mp h
    obtain ⟨a, -, rfl⟩ := List.mem_map.mp hvuln
    obtain ⟨fixed, hfixed, ⟨current, hcurrent, hlt, -⟩, -⟩ := fixedVersion_some htext
    exact ⟨current, fixed, hcurrent, hfixed, hlt⟩

/-- A completed scan leaves the installed packages and the other rows fixed above. -/
theorem ahead_persistScan {P : Packaging V} {g : Gathered} {excluded : List String} {now : Time}
    {s : State} {db : ScanDatabase} (hs : Ahead P s)
    (h : persistScan now { g.scan P with excluded := excluded } s.db = .ok db) :
    ∀ p ∈ db.dependencies.rows, ∀ x f, db.findings.find (p.id, x) = some f →
      FixedAbove P p.version f := by
  have hscanned := persistScan_fixes h
  intro p hp x f hf
  by_cases hdep : ∃ dep ∈ (g.scan P).inventory.deps, matchesDep dep p
  · obtain ⟨dep, hdep, hm⟩ := hdep
    obtain ⟨hversion, hfixes⟩ := hscanned.installed dep hdep p hp hm
    obtain ⟨finding, hlast, hfixed⟩ := hfixes x f hf
    intro text htext
    rw [hversion]
    exact reported_above (lastReported_mem hlast).1 (hfixed.symm.trans htext)
  · obtain ⟨hp', hfind⟩ := hscanned.other p hp fun dep hmem hm => hdep ⟨dep, hmem, hm⟩
    exact hs p hp' x f (hfind x f hf)

/-- A suppression keeps the fixed versions. -/
theorem suppress_find {s : State} {finding k : ℕ × String} {reason username : String}
    {f : DependencyFinding}
    (h : (suppressFinding finding reason username s).db.findings.find k = some f) :
    ∃ old, s.db.findings.find k = some old ∧ f.fixedVersion = old.fixedVersion := by
  unfold suppressFinding at h
  split at h
  · exact ⟨f, h, rfl⟩
  · rename_i old hold
    obtain rfl : old.key = finding := Table.find_some_key hold
    set written : DependencyFinding := { old with
      suppressed := true
      suppressedReason := some (String.ofList (reason.toList.take 255))
      suppressedBy := some username }
    have hkey : written.key = old.key := rfl
    by_cases hk : k = old.key
    · have hput := Table.find_put_self (t := s.db.findings) (r := written) (by simp [hkey, hold])
      rw [hkey, ← hk, h] at hput
      refine ⟨old, hk ▸ hold, ?_⟩
      rw [Option.some.inj hput]
    · rw [Table.find_put_of_ne (t := s.db.findings) (r := written) hk] at h
      exact ⟨f, h, rfl⟩

theorem suppress_dependencies (finding : ℕ × String) (reason username : String) (s : State) :
    (suppressFinding finding reason username s).db.dependencies = s.db.dependencies := by
  unfold suppressFinding
  split <;> rfl

theorem ahead_suppress {P : Packaging V} {s : State} (hs : Ahead P s) (finding : ℕ × String)
    (reason username : String) : Ahead P (suppressFinding finding reason username s) := by
  intro p hp x f hf
  rw [suppress_dependencies] at hp
  obtain ⟨old, hold, hfixed⟩ := suppress_find hf
  intro text htext
  exact hs p hp x old hold text (hfixed.symm.trans htext)

theorem proposeUpdates_tables {versions : VersionOrder V} {now : Time} {s s' : State}
    (h : proposeUpdates versions now s = .ok s') :
    s'.db.dependencies = s.db.dependencies ∧ s'.db.findings = s.db.findings := by
  unfold proposeUpdates at h
  split at h
  · obtain ⟨proposals, -, h⟩ := bind_eq_ok.mp h
    cases h
    exact ⟨rfl, rfl⟩
  · cases h
    exact ⟨rfl, rfl⟩

theorem ahead_step (P : Packaging V) (s : State) (e : Event) (hs : Ahead P s) :
    Ahead P (step P s e) := by
  cases e with
  | scan now gathered =>
    unfold step scanPlatformDeps
    cases gathered with
    | none => exact hs
    | some g =>
      dsimp only [Option.map_some]
      split
      · exact hs
      · split
        · exact hs
        · rename_i db hdb
          exact ahead_persistScan hs hdb
  | request r =>
    cases r with
    | propose now =>
      show Ahead P ((proposeUpdates P.order now s).toOption.getD s)
      cases h : proposeUpdates P.order now s with
      | error e => exact hs
      | ok s' =>
        obtain ⟨hdeps, hfindings⟩ := proposeUpdates_tables h
        show Ahead P s'
        unfold Ahead
        rw [hdeps, hfindings]
        exact hs
    | suppress finding reason username => exact ahead_suppress hs finding reason username
    | exclude packages => exact hs

/-! ## Proposals move forward -/

/-- The target is above the current version, and at least as new as the fixed version of each
finding that the proposal lists; these findings are unsuppressed ones of its dependency. -/
structure Forward (P : Packaging V) (s : State) (n : UpdateProposal) : Prop where
  newer : ∃ current target, P.parse n.currentVersion = some current ∧
    P.parse n.targetVersion = some target ∧ current < target
  covers : ∀ cve ∈ n.cvesFixed, ∃ f, s.db.findings.find (n.dependencyId, cve) = some f ∧
    f.suppressed = false ∧ ∃ text fixed target, f.fixedVersion = some text ∧
      P.parse text = some fixed ∧ P.parse n.targetVersion = some target ∧ fixed ≤ target

/-- Every proposal that the event creates moves forward. -/
def CreatesForward (P : Packaging V) (s : State) (e : Event) : Prop :=
  ∀ now, e = .request (.propose now) → ∀ n ∈ (step P s e).db.proposals.rows,
    n ∉ s.db.proposals.rows → Forward P s n

theorem forward_of_created {P : Packaging V} {s : State} (hs : Ahead P s)
    {pdep : PlatformDependency} {n : UpdateProposal} (h : Created P.order s pdep n) :
    Forward P s n := by
  obtain ⟨hpdep, id, target, htarget, rfl⟩ := h
  obtain ⟨v, hv, ⟨value, hvalue, hparse⟩, hgreatest⟩ := newestTarget_some htarget
  constructor
  · obtain ⟨⟨cve, text⟩, hmem, rfl⟩ := List.mem_map.mp hvalue
    obtain ⟨f, hf, -, hfixed, -⟩ := mem_fixes.mp hmem
    obtain ⟨current, fixed, hcurrent, hfixed, hlt⟩ :=
      hs pdep hpdep f.cveId f (mem_openFindings.mp hf).1 text hfixed
    obtain rfl : fixed = v := Option.some.inj (hfixed.symm.trans hparse)
    exact ⟨current, fixed, hcurrent, hv, hlt⟩
  · intro cve hcve
    obtain ⟨⟨cve, text⟩, hmem, rfl⟩ := List.mem_map.mp hcve
    obtain ⟨f, hf, rfl, hfixed, -⟩ := mem_fixes.mp hmem
    obtain ⟨hfind, hopen⟩ := mem_openFindings.mp hf
    obtain ⟨w, hle, hw⟩ := hgreatest text (List.mem_map.mpr ⟨_, hmem, rfl⟩)
    exact ⟨f, hfind, hopen, text, w, v, hfixed, hw, hv, hle⟩

/-- In every run from the empty tables each proposal that is created moves forward. -/
theorem proposals_forward (P : Packaging V) (events : List Event) :
    Along (step P) (CreatesForward P) {} events := by
  have hforward : ∀ s e, Ahead P s → CreatesForward P s e := by
    rintro s e hs now rfl n hn hnew
    obtain ⟨pdep, hcreated⟩ := perform_created hn hnew
    exact forward_of_created hs hcreated
  have hstart : Ahead P {} := fun _ hp => absurd hp List.not_mem_nil
  refine (along_iff_of_invariant (Ahead P) (fun s e hs => iff_true_intro (hforward s e hs))
    (fun s e hs _ => ahead_step P s e hs) hstart events).mpr ?_
  exact along_of_forall fun _ _ _ => trivial

end Kepryx.UpdateTargets
