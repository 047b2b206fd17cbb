import Kepryx.AssetIntake
import Kepryx.SelfSecurity
import Kepryx.StaleWrites

/-!
# Update proposals and their writers

Six operations write the status of a proposal: the endpoints that approve and reject it,
the AI validation, the preparation of patches, the supersession by a scan and the rollback.
Each reads first and commits later. The status guards are checked when the operation reads,
so a rejection holds only against operations that read it.
-/
namespace Kepryx.UpdateProposals
open Kepryx.Models Kepryx.Tables Kepryx.UnitOfWork Kepryx.Runs Kepryx.SelfSecurity
  Kepryx.StaleWrites
open Kepryx.AssetIntake (strip)
open Kepryx.Redaction (lower)

/-! ## The operations -/

/-- What the AI provider gives for a proposal: the fields that are read of an assessment, or
an exception. -/
inductive Assessment where
  | assessed (document : List (String × String)) (recommendation : Entry String)
      (riskScore : Option ℚ) (breakingChanges : Bool) (summary : Entry String)
  | raised (error : String)

/-- `requirements.in`, as the worker finds it. -/
inductive Requirements where
  | missing
  | unreadable (error : String)
  | text (lines : List String)

/-- The operations that write proposals, with what they get from outside. -/
inductive Operation where
  | approve (proposalId : ℕ) (username : String) (now : Time)
  | reject (proposalId : ℕ) (reason : String)
  | aiValidate (selected : List ℕ) (assess : UpdateProposal → Assessment)
  | applyApproved (proposalId : Option ℕ) (requirements : Requirements)
      (unifiedDiff : List String → List String → String)
  | supersede (dependencyState : List (ℕ × String × ℕ))
  | rollback (proposalId : ℕ)

/-- `approve_proposal` -/
def approveProposal (proposalId : ℕ) (username : String) (now : Time) (p : UpdateProposal) :
    Option UpdateProposal :=
  if p.id = proposalId ∧ p.status ∈ [.proposed, .aiValidated] then
    some { p with status := .approved, approvedBy := some username, approvedAt := some now }
  else none

/-- `text[:1000]` -/
def cut (text : String) : String := String.ofList (text.toList.take 1000)

/-- `reject_proposal`: there is no guard on the status. -/
def rejectProposal (proposalId : ℕ) (reason : String) (p : UpdateProposal) :
    Option UpdateProposal :=
  if p.id = proposalId then some { p with status := .rejected, errorMessage := some (cut reason) }
  else none

/-- The body of the loop in `_ai_validate_proposals`. -/
def validated (p : UpdateProposal) : Assessment → UpdateProposal
  | .assessed document recommendation riskScore breakingChanges summary =>
    { p with
      aiAssessment := document
      aiRecommendation := recommendation.getD "manual_review"
      aiRiskScore := riskScore
      breakingChangesDetected := breakingChanges
      compatibilityNotes := summary.getD ""
      status := .aiValidated }
  | .raised error =>
    { p with
      aiRecommendation := some "manual_review"
      aiAssessment := [("_error", error)]
      status := .aiValidated }

/-- `_ai_validate_proposals`: at most fifty of the proposed ones, in no particular order. -/
def aiValidateProposals (selected : List ℕ) (assess : UpdateProposal → Assessment)
    (p : UpdateProposal) : Option UpdateProposal :=
  if p.status = .proposed ∧ p.id ∈ selected.take 50 then some (validated p (assess p)) else none

/-- The stripped and lower-cased line starts with the package and one of the operators. -/
def pins (packageName : String) (line : String) : Bool :=
  ["==", ">=", "~=", "<=", ">", "<"].any fun operator =>
    (lower packageName ++ operator).toList.isPrefixOf (lower (strip line)).toList

theorem pins_exact : pins "urllib3" "urllib3==2.0.6" = true := by decide +kernel

/-- `_prepare_one_update`, with the exception of a file that cannot be read. -/
def prepareOneUpdate (requirements : Requirements)
    (unifiedDiff : List String → List String → String) (p : UpdateProposal) : UpdateProposal :=
  match requirements with
  | .missing =>
    { p with
      status := .failed
      errorMessage := some "requirements.in is not available for patch generation" }
  | .unreadable error => { p with status := .failed, errorMessage := some (cut error) }
  | .text lines =>
    if lines.any (pins p.packageName) then
      let newContent := lines.map fun line =>
        if pins p.packageName line then p.packageName ++ "==" ++ p.targetVersion else line
      { p with
        rollbackSnapshot := [
          ("proposal_patch", unifiedDiff lines newContent),
          ("previous_version", p.currentVersion),
          ("requires_lock_regeneration", "True"),
          ("requires_ci", "True")]
        status := .readyForPr
        errorMessage := none }
    else
      { p with
        status := .failed
        errorMessage := some (p.packageName ++
          " is transitive or absent from requirements.in; " ++
          "regenerate the dependency lock in a review branch") }

/-- `_apply_approved_updates` -/
def applyApprovedUpdates (proposalId : Option ℕ) (requirements : Requirements)
    (unifiedDiff : List String → List String → String) (p : UpdateProposal) :
    Option UpdateProposal :=
  if p.status = .approved ∧ (proposalId = none ∨ proposalId = some p.id) then
    some (prepareOneUpdate requirements unifiedDiff p)
  else none

/-- The supersession step of `_scan_platform_deps`, on the proposals that it changes. -/
def supersedeProposal (dependencyState : List (ℕ × String × ℕ)) (p : UpdateProposal) :
    Option UpdateProposal :=
  if supersede dependencyState p = p then none else some (supersede dependencyState p)

/-- `_rollback_proposal` -/
def rollbackProposal (proposalId : ℕ) (p : UpdateProposal) : Option UpdateProposal :=
  if p.id = proposalId ∧ p.status = .readyForPr then
    some { p with rollbackSnapshot := [], status := .approved }
  else none

/-- What an operation makes of a proposal that it read. -/
def change : Operation → UpdateProposal → Option UpdateProposal
  | .approve proposalId username now => approveProposal proposalId username now
  | .reject proposalId reason => rejectProposal proposalId reason
  | .aiValidate selected assess => aiValidateProposals selected assess
  | .applyApproved proposalId requirements unifiedDiff =>
    applyApprovedUpdates proposalId requirements unifiedDiff
  | .supersede dependencyState => supersedeProposal dependencyState
  | .rollback proposalId => rollbackProposal proposalId

/-- What the preparation makes of a proposal. -/
theorem prepareOneUpdate_cases (requirements : Requirements)
    (unifiedDiff : List String → List String → String) (p : UpdateProposal) :
    (∃ message, prepareOneUpdate requirements unifiedDiff p =
      { p with status := .failed, errorMessage := some message }) ∨
    ∃ snapshot, prepareOneUpdate requirements unifiedDiff p =
      { p with rollbackSnapshot := snapshot, status := .readyForPr, errorMessage := none } := by
  unfold prepareOneUpdate
  split
  · exact .inl ⟨_, rfl⟩
  · exact .inl ⟨_, rfl⟩
  · split
    · exact .inr ⟨_, rfl⟩
    · exact .inl ⟨_, rfl⟩

/-- What a scan makes of a proposal that it supersedes. -/
def superseded (p : UpdateProposal) : UpdateProposal :=
  { p with
    status := .rejected
    errorMessage := some "Superseded by a fresh resolved-runtime scan" }

theorem supersede_cases (dependencyState : List (ℕ × String × ℕ)) (p : UpdateProposal) :
    supersede dependencyState p = superseded p ∨ supersede dependencyState p = p := by
  unfold supersede
  split
  · split
    · exact .inl rfl
    · exact .inr rfl
  · exact .inr rfl

/-- What an operation makes of a proposal that it changes, and when it changes it. -/
inductive Changed : Operation → UpdateProposal → UpdateProposal → Prop where
  | approved {username : String} {now : Time} {p : UpdateProposal}
      (waiting : p.status = .proposed ∨ p.status = .aiValidated) :
      Changed (.approve p.id username now) p
        { p with status := .approved, approvedBy := some username, approvedAt := some now }
  | rejected {reason : String} {p : UpdateProposal} :
      Changed (.reject p.id reason) p
        { p with status := .rejected, errorMessage := some (cut reason) }
  | validated {selected : List ℕ} {assess : UpdateProposal → Assessment} {p : UpdateProposal}
      (proposed : p.status = .proposed) (chosen : p.id ∈ selected.take 50) :
      Changed (.aiValidate selected assess) p (validated p (assess p))
  | failed {proposalId : Option ℕ} {requirements : Requirements}
      {unifiedDiff : List String → List String → String} {message : String} {p : UpdateProposal}
      (approved : p.status = .approved) (chosen : proposalId = none ∨ proposalId = some p.id) :
      Changed (.applyApproved proposalId requirements unifiedDiff) p
        { p with status := .failed, errorMessage := some message }
  | prepared {proposalId : Option ℕ} {requirements : Requirements}
      {unifiedDiff : List String → List String → String} {snapshot : List (String × String)}
      {p : UpdateProposal} (approved : p.status = .approved)
      (chosen : proposalId = none ∨ proposalId = some p.id) :
      Changed (.applyApproved proposalId requirements unifiedDiff) p
        { p with rollbackSnapshot := snapshot, status := .readyForPr, errorMessage := none }
  | superseded {dependencyState : List (ℕ × String × ℕ)} {p : UpdateProposal} :
      Changed (.supersede dependencyState) p (superseded p)
  | rolledBack {p : UpdateProposal} (prepared : p.status = .readyForPr) :
      Changed (.rollback p.id) p { p with rollbackSnapshot := [], status := .approved }

theorem changed_of_change {op : Operation} {p p' : UpdateProposal} (h : change op p = some p') :
    Changed op p p' := by
  cases op with
  | approve i username now =>
    simp only [change, approveProposal, Option.ite_none_right_eq_some, Option.some.injEq] at h
    obtain ⟨⟨rfl, hstatus⟩, rfl⟩ := h
    exact .approved (by simpa using hstatus)
  | reject i reason =>
    simp only [change, rejectProposal, Option.ite_none_right_eq_some, Option.some.injEq] at h
    obtain ⟨rfl, rfl⟩ := h
    exact .rejected
  | aiValidate selected assess =>
    simp only [change, aiValidateProposals, Option.ite_none_right_eq_some, Option.some.injEq] at h
    obtain ⟨⟨hproposed, hchosen⟩, rfl⟩ := h
    exact .validated hproposed hchosen
  | applyApproved proposalId requirements unifiedDiff =>
    simp only [change, applyApprovedUpdates, Option.ite_none_right_eq_some,
      Option.some.injEq] at h
    obtain ⟨⟨happroved, hchosen⟩, rfl⟩ := h
    rcases prepareOneUpdate_cases requirements unifiedDiff p with ⟨message, hp⟩ | ⟨snapshot, hp⟩
    · rw [hp]
      exact .failed happroved hchosen
    · rw [hp]
      exact .prepared happroved hchosen
  | supersede dependencyState =>
    simp only [change, supersedeProposal, Option.ite_none_left_eq_some, Option.some.injEq] at h
    obtain ⟨hchanged, rfl⟩ := h
    rw [(supersede_cases dependencyState p).resolve_right hchanged]
    exact .superseded
  | rollback i =>
    simp only [change, rollbackProposal, Option.ite_none_right_eq_some, Option.some.injEq] at h
    obtain ⟨⟨rfl, hprepared⟩, rfl⟩ := h
    exact .rolledBack hprepared

/-- The UPDATE of a changed proposal: the changed columns, over the stored row. -/
def update (loaded current stored : UpdateProposal) : UpdateProposal where
  id := stored.id
  dependencyId := stored.dependencyId
  packageName := stored.packageName
  currentVersion := stored.currentVersion
  targetVersion := stored.targetVersion
  reason := stored.reason
  cvesFixed := stored.cvesFixed
  aiAssessment := writeBack loaded.aiAssessment current.aiAssessment stored.aiAssessment
  aiRecommendation :=
    writeBack loaded.aiRecommendation current.aiRecommendation stored.aiRecommendation
  aiRiskScore := writeBack loaded.aiRiskScore current.aiRiskScore stored.aiRiskScore
  breakingChangesDetected := writeBack loaded.breakingChangesDetected
    current.breakingChangesDetected stored.breakingChangesDetected
  compatibilityNotes :=
    writeBack loaded.compatibilityNotes current.compatibilityNotes stored.compatibilityNotes
  status := writeBack loaded.status current.status stored.status
  approvedBy := writeBack loaded.approvedBy current.approvedBy stored.approvedBy
  approvedAt := writeBack loaded.approvedAt current.approvedAt stored.approvedAt
  rollbackSnapshot :=
    writeBack loaded.rollbackSnapshot current.rollbackSnapshot stored.rollbackSnapshot
  errorMessage := writeBack loaded.errorMessage current.errorMessage stored.errorMessage

def proposals : Protocol UpdateProposal.id Operation where
  change := change
  merge := update
  merge_key := fun _ _ _ => rfl

theorem status_columnWise : ColumnWise proposals UpdateProposal.status := fun _ _ _ => rfl

/-! ## What the operations do to the status -/

/-- Every operation that writes a proposal gives it another status, unless it rejects a
rejected one. -/
structure StatusChange (op : Operation) (p p' : UpdateProposal) : Prop where
  id : p'.id = p.id
  of_rejected : p.status = .rejected → p'.status = .rejected
  of_other : p.status ≠ .rejected → p'.status ≠ p.status
  reject : ∀ i reason, op = .reject i reason → p.id = i ∧ p'.status = .rejected

theorem change_status {op : Operation} {p p' : UpdateProposal} (h : change op p = some p') :
    StatusChange op p p' := by
  cases changed_of_change h with
  | approved hwaiting =>
    exact ⟨rfl, fun hr => by simp [hr] at hwaiting,
      fun _ => by rcases hwaiting with hs | hs <;> simp [hs], fun _ _ he => by cases he⟩
  | rejected =>
    refine ⟨rfl, fun _ => rfl, fun hr => Ne.symm hr, fun j reason he => ?_⟩
    cases he
    exact ⟨rfl, rfl⟩
  | @validated _ assess _ hproposed _ =>
    have hv : (validated p (assess p)).id = p.id ∧
        (validated p (assess p)).status = .aiValidated := by
      cases assess p <;> exact ⟨rfl, rfl⟩
    exact ⟨hv.1, fun hr => by simp [hr] at hproposed, fun _ => by simp [hv.2, hproposed],
      fun _ _ he => by cases he⟩
  | failed happroved =>
    exact ⟨rfl, fun hr => by simp [hr] at happroved, fun _ => by simp [happroved],
      fun _ _ he => by cases he⟩
  | prepared happroved =>
    exact ⟨rfl, fun hr => by simp [hr] at happroved, fun _ => by simp [happroved],
      fun _ _ he => by cases he⟩
  | superseded => exact ⟨rfl, fun _ => rfl, fun hr => Ne.symm hr, fun _ _ he => by cases he⟩
  | rolledBack hprepared =>
    exact ⟨rfl, fun hr => by simp [hr] at hprepared, fun _ => by simp [hprepared],
      fun _ _ he => by cases he⟩

/-- Whoever reads a rejected proposal leaves it rejected. -/
theorem rejected_respects : Respects proposals UpdateProposal.status .rejected :=
  fun _ _ _ hr h => (change_status h).of_rejected hr

end Kepryx.UpdateProposals
