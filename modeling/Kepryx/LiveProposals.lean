import Kepryx.Runs
import Kepryx.UpdateWorkflow

/-!
# What holds of the live proposals

A live proposal is for the installed version of a vulnerable package, and is the only one for
its target, as long as no rollback brings back a proposal that a scan or a newer proposal has
overtaken. Scans and the duplicate check pass over the prepared proposals, and the rollback
looks only at the status.
-/
namespace Kepryx.LiveProposals
open Kepryx.Models Kepryx.Tables Kepryx.Results Kepryx.Runs Kepryx.SelfSecurity
  Kepryx.UpdateProposals Kepryx.UpdateWorkflow

variable {V : Type} [LinearOrder V]

/-! ## Live proposals and the installed versions -/

/-- The proposal is for the version of the row, which has CVEs. -/
def Current (p : UpdateProposal) (d : PlatformDependency) : Prop :=
  p.currentVersion = d.version ∧ 0 < d.cveCount

/-- Every live proposal is for the installed version of its dependency, which has CVEs. -/
def LiveCurrent (s : State) : Prop :=
  ∀ p ∈ s.db.proposals.rows, Live p → ∀ d ∈ s.db.dependencies.rows, d.id = p.dependencyId →
    Current p d

/-- If the proposal is prepared, then its dependency is installed in the version that it is for,
and has CVEs. -/
def PreparedCurrent (s : State) (i : ℕ) : Prop :=
  ∀ p ∈ s.db.proposals.rows, p.id = i → p.status = .readyForPr →
    ∀ d ∈ s.db.dependencies.rows, d.id = p.dependencyId → Current p d

/-- A prepared proposal is rolled back only while it is current. -/
def RollsBackCurrent (s : State) : Event V → Prop
  | .rollback i => PreparedCurrent s i
  | _ => True

/-- The proposals of a scan that went through. -/
theorem liveCurrent_persistScan {now : Time} {scan : Scan V} {s s' : State}
    (hcurrent : LiveCurrent s) (h : persistScan now scan s.db = .ok s'.db) : LiveCurrent s' := by
  intro p hp hlive d hd hid
  obtain ⟨hbefore, hrow⟩ := persistScan_live h hp hlive
  rcases hrow d hd hid with hnow | hold
  · exact hnow
  · exact hcurrent p hbefore hlive d hold hid

/-- New proposals are for the stored versions of vulnerable packages. -/
theorem liveCurrent_proposeUpdates {versions : VersionOrder V} {now : Time} {s s' : State}
    (hcurrent : LiveCurrent s) (h : proposeUpdates versions now s = .ok s') : LiveCurrent s' := by
  unfold proposeUpdates at h
  split at h
  · obtain ⟨proposals, hloop, h⟩ := bind_eq_ok.mp h
    cases h
    refine foldlM_invariant (fun _ (t : Table UpdateProposal.id) => ∀ p ∈ t.rows, Live p →
      ∀ d ∈ s.db.dependencies.rows, d.id = p.dependencyId → Current p d) ?_ hcurrent hloop
    intro before pdep after t t' hdeps ht hturn p hp hlive d hd hid
    have hpdep : pdep ∈ s.db.dependencies.rows.filter fun d => 0 < d.cveCount := by simp [hdeps]
    obtain ⟨hpdep, hcves⟩ := List.mem_filter.mp hpdep
    rcases proposeUpdate_cases versions s.settings.excludedPackages s.db.findings t pdep with
      hsame | ⟨n, t'', hnew, hrows, hdep, hversion, -⟩ | ⟨target, herror, -⟩
    · cases hturn.symm.trans hsame
      exact ht p hp hlive d hd hid
    · cases hturn.symm.trans hnew
      rw [hrows] at hp
      rcases List.mem_append.mp hp with hp | hp
      · exact ht p hp hlive d hd hid
      · rw [List.mem_singleton.mp hp] at hid ⊢
        have hsame : d = pdep := Table.eq_of_key hd hpdep (hid.trans hdep)
        rw [hsame]
        exact ⟨hversion, by simpa using hcves⟩
    · cases hturn.symm.trans herror
  · cases h
    exact hcurrent

/-- The other tasks and requests, given what a rollback brings back. -/
theorem liveCurrent_operate {s : State} {op : Operation} (hcurrent : LiveCurrent s)
    (hrollback : ∀ i, op = .rollback i → PreparedCurrent s i) :
    LiveCurrent (s.operate op) := by
  intro p' hp' hlive d hd hid
  obtain ⟨p, hp, hoffer, hback⟩ := operate_back hp'
  have hdep : p'.dependencyId = p.dependencyId := congrArg Offer.dependencyId hoffer
  have hversion : p'.currentVersion = p.currentVersion := congrArg Offer.currentVersion hoffer
  rw [hdep] at hid
  have hbefore : Current p d := by
    rcases hback hlive with hlive | ⟨hop, hready⟩
    · exact hcurrent p hp hlive d hd hid
    · exact hrollback p.id hop p hp rfl hready d hd hid
  exact ⟨hversion.trans hbefore.1, hbefore.2⟩

/-- A step keeps the live proposals current if and only if it rolls back only current ones. -/
theorem liveCurrent_step_iff {s : State} (hcurrent : LiveCurrent s) (e : Event V) :
    LiveCurrent (step s e) ↔ RollsBackCurrent s e := by
  constructor
  · intro hnext
    cases e with
    | rollback i =>
      rintro p hp rfl hready d hd hid
      exact hnext _ (operate_rollback hp hready) (by simp [Live, pending]) d hd hid
    | _ => trivial
  · intro hrollback
    cases step_effect s e with
    | scanned now scan h => exact liveCurrent_persistScan hcurrent h
    | proposed versions now h => exact liveCurrent_proposeUpdates hcurrent h
    | kept hdeps hproposals =>
      unfold LiveCurrent
      rw [hdeps, hproposals]
      exact hcurrent
    | operated op h hop =>
      rw [h]
      apply liveCurrent_operate hcurrent
      intro i hop'
      rwa [hop i hop'] at hrollback

/-- In every state that a run reaches the live proposals are for the installed, vulnerable
versions if and only if the run rolls back only prepared proposals of which this is true. -/
theorem liveCurrent_iff (events : List (Event V)) :
    Always step LiveCurrent {} events ↔ Along step RollsBackCurrent {} events :=
  always_iff_along (fun _ e h => liveCurrent_step_iff h e)
    (fun _ hp => absurd hp List.not_mem_nil) events

/-! ## One live proposal for a dependency and target -/

/-- The proposals are for one dependency and target. -/
def SameTarget (p q : UpdateProposal) : Prop :=
  p.dependencyId = q.dependencyId ∧ p.targetVersion = q.targetVersion

/-- No two live proposals are for one dependency and target. -/
def OneLive (t : Table UpdateProposal.id) : Prop :=
  ∀ p ∈ t.rows, ∀ q ∈ t.rows, Live p → Live q → SameTarget p q → p = q

/-- There is at most one live proposal for each dependency and target, and `_propose_updates`
goes through. -/
structure Unambiguous (V : Type) [LinearOrder V] (s : State) : Prop where
  one : OneLive s.db.proposals
  proposes : ∀ (versions : VersionOrder V) (now : Time),
    ∃ s', proposeUpdates versions now s = .ok s'

/-- If the proposal is prepared, then no other one is live for its dependency and target. -/
def PreparedAlone (s : State) (i : ℕ) : Prop :=
  ∀ p ∈ s.db.proposals.rows, p.id = i → p.status = .readyForPr →
    ∀ q ∈ s.db.proposals.rows, q ≠ p → Live q → ¬ SameTarget p q

/-- A prepared proposal is rolled back only while it is alone. -/
def RollsBackAlone (s : State) : Event V → Prop
  | .rollback i => PreparedAlone s i
  | _ => True

/-- A turn of `_propose_updates` goes through, and repeats no live proposal. -/
theorem oneLive_proposeUpdate {t : Table UpdateProposal.id} (hone : OneLive t)
    (versions : VersionOrder V) (excluded : List String) (findings : Table DependencyFinding.key)
    (pdep : PlatformDependency) :
    ∃ t', proposeUpdate versions excluded findings t pdep = .ok t' ∧ OneLive t' := by
  rcases proposeUpdate_cases versions excluded findings t pdep with
    hsame | ⟨n, t', hnew, hrows, -, -, hfree⟩ | ⟨target, -, hmany⟩
  · exact ⟨t, hsame, hone⟩
  · refine ⟨t', hnew, ?_⟩
    intro p hp q hq hlive hlive' hsame
    rw [hrows] at hp hq
    simp only [List.mem_append, List.mem_singleton] at hp hq
    rcases hp with hp | rfl
    · rcases hq with hq | rfl
      · exact hone p hp q hq hlive hlive' hsame
      · exact absurd hsame.2 (hfree p hp hlive hsame.1)
    · rcases hq with hq | rfl
      · exact absurd hsame.2.symm (hfree q hq hlive' hsame.1.symm)
      · rfl
  · have hfew : (t.rows.filter (duplicates pdep.id target)).length ≤ 1 := by
      apply Table.filter_length_le_one
      intro p hp q hq hdup hdup'
      simp only [duplicates, Bool.and_eq_true, decide_eq_true_eq] at hdup hdup'
      exact hone p hp q hq hdup.2 hdup'.2
        ⟨hdup.1.1.trans hdup'.1.1.symm, hdup.1.2.trans hdup'.1.2.symm⟩
    omega

theorem oneLive_proposeUpdates {s : State} (hone : OneLive s.db.proposals)
    (versions : VersionOrder V) (now : Time) :
    ∃ s', proposeUpdates versions now s = .ok s' ∧ OneLive s'.db.proposals := by
  unfold proposeUpdates
  split
  · let turn := proposeUpdate versions s.settings.excludedPackages s.db.findings
    let vulnerable := s.db.dependencies.rows.filter fun d => 0 < d.cveCount
    obtain ⟨proposals, hloop, hnext⟩ :
        ∃ proposals, vulnerable.foldlM turn s.db.proposals = .ok proposals ∧ OneLive proposals :=
      foldlM_total (fun _ t => OneLive t)
        (fun _ pdep _ t _ h => oneLive_proposeUpdate h _ _ _ pdep) hone
    exact ⟨_, bind_eq_ok.mpr ⟨proposals, hloop, rfl⟩, hnext⟩
  · exact ⟨s, rfl, hone⟩

theorem unambiguous_iff_oneLive {s : State} : Unambiguous V s ↔ OneLive s.db.proposals := by
  constructor
  · exact Unambiguous.one
  · intro hone
    refine ⟨hone, fun versions now => ?_⟩
    obtain ⟨s', h, -⟩ := oneLive_proposeUpdates hone versions now
    exact ⟨s', h⟩

/-- The other tasks and requests, given what a rollback brings back. -/
theorem oneLive_operate {s : State} {op : Operation} (hone : OneLive s.db.proposals)
    (hrollback : ∀ i, op = .rollback i → PreparedAlone s i) :
    OneLive (s.operate op).db.proposals := by
  intro p' hp' q' hq' hlive hlive' hsame
  obtain ⟨p, hp, hoffer, hback⟩ := operate_back hp'
  obtain ⟨q, hq, hoffer', hback'⟩ := operate_back hq'
  have hsame : SameTarget p q := by
    have hdep : p'.dependencyId = p.dependencyId := congrArg Offer.dependencyId hoffer
    have hdep' : q'.dependencyId = q.dependencyId := congrArg Offer.dependencyId hoffer'
    have htarget : p'.targetVersion = p.targetVersion := congrArg Offer.targetVersion hoffer
    have htarget' : q'.targetVersion = q.targetVersion := congrArg Offer.targetVersion hoffer'
    unfold SameTarget at hsame ⊢
    rwa [hdep, hdep', htarget, htarget'] at hsame
  have hpq : p = q := by
    by_contra hne
    rcases hback hlive with hlive | ⟨hop, hready⟩
    · rcases hback' hlive' with hlive' | ⟨hop', hready'⟩
      · exact hne (hone p hp q hq hlive hlive' hsame)
      · exact hrollback q.id hop' q hq rfl hready' p hp hne hlive ⟨hsame.1.symm, hsame.2.symm⟩
    · rcases hback' hlive' with hlive' | ⟨hop', -⟩
      · exact hrollback p.id hop p hp rfl hready q hq (Ne.symm hne) hlive' hsame
      · have hid : p.id = q.id := by injection hop.symm.trans hop'
        exact hne (Table.eq_of_key hp hq hid)
  have hid : p'.id = p.id := congrArg Offer.id hoffer
  have hid' : q'.id = q.id := congrArg Offer.id hoffer'
  exact Table.eq_of_key hp' hq' (by rw [hid, hid', hpq])

/-- A step keeps one live proposal for each target if and only if it rolls back only where there
is none. -/
theorem oneLive_step_iff {s : State} (hone : OneLive s.db.proposals) (e : Event V) :
    OneLive (step s e).db.proposals ↔ RollsBackAlone s e := by
  constructor
  · intro hnext
    cases e with
    | rollback i =>
      rintro p hp rfl hready q hq hne hlive hsame
      have hid : q.id ≠ p.id := fun h => hne (Table.eq_of_key hq hp h)
      have heq := hnext _ (operate_rollback hp hready) q (operate_rollback_of_ne hq hid)
        (by simp [Live, pending]) hlive hsame
      exact hid (congrArg UpdateProposal.id heq).symm
    | _ => trivial
  · intro hrollback
    cases step_effect s e with
    | scanned now scan h =>
      intro p hp q hq hlive hlive'
      exact hone p (persistScan_live h hp hlive).1 q (persistScan_live h hq hlive').1 hlive hlive'
    | proposed versions now h =>
      obtain ⟨s', h', hnext⟩ := oneLive_proposeUpdates hone versions now
      cases h.symm.trans h'
      exact hnext
    | kept hdeps hproposals =>
      rw [hproposals]
      exact hone
    | operated op h hop =>
      rw [h]
      apply oneLive_operate hone
      intro i hop'
      rwa [hop i hop'] at hrollback

/-- In every state that a run reaches there is at most one live proposal for each dependency and
target, and `_propose_updates` goes through, if and only if the run rolls back a prepared
proposal only where no other one is live. -/
theorem unambiguous_iff (events : List (Event V)) :
    Always step (Unambiguous V) {} events ↔ Along step RollsBackAlone {} events := by
  refine always_iff_along (fun s e h => ?_) ?_ events
  · rw [unambiguous_iff_oneLive] at h ⊢
    exact oneLive_step_iff h e
  · rw [unambiguous_iff_oneLive]
    exact fun _ hp => absurd hp List.not_mem_nil

/-! ## Two runs that cancel a prepared patch -/

instance : DecidablePred LiveCurrent := fun s =>
  inferInstanceAs (Decidable (∀ p ∈ s.db.proposals.rows, Live p →
    ∀ d ∈ s.db.dependencies.rows, d.id = p.dependencyId →
      p.currentVersion = d.version ∧ 0 < d.cveCount))

instance : DecidablePred OneLive := fun t =>
  inferInstanceAs (Decidable (∀ p ∈ t.rows, ∀ q ∈ t.rows, Live p → Live q →
    p.dependencyId = q.dependencyId ∧ p.targetVersion = q.targetVersion → p = q))

/-- The place of the two versions of the package. -/
def place (version : String) : Option ℕ :=
  if version = "2.0.6" then some 206 else if version = "2.0.7" then some 207 else none

/-- The package, and what OSV has for it. -/
def installed (version : String) (vulns : List OsvVuln) : Scan ℕ where
  inventory :=
    { component := "api"
      deps := [⟨"api", "pip", "urllib3", version, none⟩]
      component_eq := by simp
      nodup := by simp }
  excluded := []
  versions := ⟨place, fun version => version⟩
  vulns := fun _ => vulns
  latest := fun _ => some "2.0.7"

/-- The package is found vulnerable, and its update is proposed and approved. -/
def approved : List (Event ℕ) :=
  [.scan 0 (some (installed "2.0.6" [
      { id := "GHSA-g4mx-q9vg-27p4"
        aliases := ["CVE-2023-45803"]
        affected := [("urllib3", ["2.0.7"])] }])),
    .propose ⟨place, fun version => version⟩ 60, .approve 1 "admin" 120]

/-- A patch for the approved proposals. -/
def preparation : Event ℕ :=
  .applyApproved none (.text ["urllib3==2.0.6"]) fun _ _ => "patch"

/-- The proposal after the approval. -/
def approvedRow : UpdateProposal where
  id := 1
  dependencyId := 1
  packageName := "urllib3"
  currentVersion := "2.0.6"
  targetVersion := "2.0.7"
  reason := "cve_fix"
  cvesFixed := ["CVE-2023-45803"]
  status := .approved
  approvedBy := some "admin"
  approvedAt := some 120

/-- The proposal with its patch. -/
def preparedRow : UpdateProposal :=
  { approvedRow with
    status := .readyForPr
    rollbackSnapshot := [("proposal_patch", "patch"), ("previous_version", "2.0.6"),
      ("requires_lock_regeneration", "True"), ("requires_ci", "True")] }

/-- The state when the patch is ready. -/
def prepared : State :=
  let s := run step {} approved
  { s with db := { s.db with proposals := ⟨[preparedRow], List.nodup_singleton _⟩ } }

theorem run_preparation (events : List (Event ℕ)) :
    run step {} (approved ++ preparation :: events) = run step prepared events := by
  have hrows : (run step {} approved).db.proposals.rows = [approvedRow] := by decide +kernel
  have hchange : change (.applyApproved none (.text ["urllib3==2.0.6"]) fun _ _ => "patch")
      approvedRow = some preparedRow := by
    have hpins : pins approvedRow.packageName "urllib3==2.0.6" = true := pins_exact
    simp only [change, applyApprovedUpdates, prepareOneUpdate, List.any_cons, hpins]
    rfl
  have hstep : step (run step {} approved) preparation = prepared :=
    operate_singleton hrows hchange
  rw [run, List.foldl_append, List.foldl_cons]
  exact congrArg (fun s => run step s events) hstep

/-- The patch is merged and a scan finds the new version; then the patch is cancelled. -/
def cancelledLate : List (Event ℕ) :=
  approved ++ preparation :: [.scan 3600000000 (some (installed "2.0.7" [])), .rollback 1]

theorem late_rollback_not_current : ¬ LiveCurrent (run step {} cancelledLate) := by
  rw [cancelledLate, run_preparation]
  decide +kernel

/-- The update is proposed again while its patch is ready; then the patch is cancelled. -/
def cancelledTwice : List (Event ℕ) :=
  approved ++ preparation :: [.propose ⟨place, fun version => version⟩ 180, .rollback 1]

theorem rollback_beside_new_proposal :
    ¬ OneLive (run step {} cancelledTwice).db.proposals ∧
      proposeUpdates ⟨place, fun version => version⟩ 240 (run step {} cancelledTwice) =
        .error .multipleResultsFound := by
  rw [cancelledTwice, run_preparation]
  constructor
  · decide +kernel
  · decide +kernel

end Kepryx.LiveProposals
