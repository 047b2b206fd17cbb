import Kepryx.UpdateProposals

/-!
# No patch without an approval

Only the preparation of patches makes a proposal ready for a pull request, and it reads
approved proposals only. Both the approval and the rollback write `approved`, but a rollback
read a proposal that was ready. So every operation that holds one of these two states for a
proposal goes back to an approval that has committed.
-/
namespace Kepryx.PatchApproval
open Kepryx.Models Kepryx.Tables Kepryx.UnitOfWork Kepryx.Runs Kepryx.SelfSecurity
  Kepryx.StaleWrites Kepryx.UpdateProposals

/-- The proposals and their writers, and the proposals for which an approval has committed. -/
structure Tracked where
  state : State UpdateProposal.id Operation
  approved : List ℕ

def Tracked.start (t : Table UpdateProposal.id) : Tracked := ⟨⟨t, []⟩, []⟩

/-- The proposal whose approval an event commits. -/
def approves (s : State UpdateProposal.id Operation) : Event Operation → Option ℕ
  | .read _ => none
  | .commit n =>
    match s.inflight[n]? with
    | some (.approve i _ _, writes) => (writes.find i).map fun _ => i
    | _ => none

def track (s : Tracked) (e : Event Operation) : Tracked where
  state := step proposals s.state e
  approved := (approves s.state e).toList ++ s.approved

/-- The states that only an approved proposal may have. -/
def Released (p : UpdateProposal) : Prop := p.status = .approved ∨ p.status = .readyForPr

/-- An operation either approves the proposal in the name of a user, or keeps its approver and
releases it only if it was released. -/
def ApprovalChange (op : Operation) (p p' : UpdateProposal) : Prop :=
  (∃ username now, op = .approve p.id username now ∧ p'.approvedBy = some username) ∨
    p'.approvedBy = p.approvedBy ∧ (Released p' → Released p)

theorem change_approval {op : Operation} {p p' : UpdateProposal} (h : change op p = some p') :
    ApprovalChange op p p' := by
  cases changed_of_change h with
  | @approved username now _ _ => exact .inl ⟨username, now, rfl, rfl⟩
  | rejected => exact .inr ⟨rfl, fun hr => by simp [Released] at hr⟩
  | @validated _ assess _ _ _ =>
    refine .inr ⟨?_, fun hr => ?_⟩
    · cases assess p <;> rfl
    · cases ha : assess p <;> simp [Released, validated, ha] at hr
  | failed => exact .inr ⟨rfl, fun hr => by simp [Released] at hr⟩
  | prepared happroved => exact .inr ⟨rfl, fun _ => .inl happroved⟩
  | superseded => exact .inr ⟨rfl, fun hr => by simp [Released, superseded] at hr⟩
  | rolledBack hprepared => exact .inr ⟨rfl, fun _ => .inr hprepared⟩

/-! ## What the operations in flight have read -/

/-- Released proposals, stored or read by an operation in flight, have been approved, and an
approver, once there, stays. -/
structure Inv (s : Tracked) : Prop where
  stored : ∀ i r, s.state.table.find i = some r → Released r → i ∈ s.approved
  named : ∀ i r, s.state.table.find i = some r → i ∈ s.approved → r.approvedBy.isSome
  changes : ∀ p ∈ s.state.inflight, ∀ i w, p.2.find i = some w → change p.1 w.1 = some w.2
  read : ∀ p ∈ s.state.inflight, ∀ i w, p.2.find i = some w → Released w.1 → i ∈ s.approved
  kept : ∀ p ∈ s.state.inflight, ∀ i w, p.2.find i = some w → w.1.approvedBy.isSome →
    ∀ r, s.state.table.find i = some r → r.approvedBy.isSome

theorem approves_eq_some {s : State UpdateProposal.id Operation} {n i : ℕ} {op : Operation}
    {writes : Writes UpdateProposal.id} (hn : s.inflight[n]? = some (op, writes)) :
    approves s (.commit n) = some i ↔
      ∃ username now w, op = .approve i username now ∧ writes.find i = some w := by
  cases op with
  | approve j username now =>
    simp only [approves, hn, Option.map_eq_some_iff]
    constructor
    · rintro ⟨w, hw, rfl⟩
      exact ⟨username, now, w, rfl, hw⟩
    · rintro ⟨_, _, w, he, hw⟩
      cases he
      exact ⟨w, hw, rfl⟩
  | _ => simp [approves, hn]

theorem inv_read {s : Tracked} (h : Inv s) (op : Operation) : Inv (track s (.read op)) := by
  have happroved : (track s (.read op)).approved = s.approved := rfl
  have hrow : ∀ {i w}, (readRows proposals op s.state.table).find i = some w →
      s.state.table.find i = some w.1 ∧ change op w.1 = some w.2 := by
    intro i w hw
    obtain ⟨hmem, hkey⟩ := Table.find_eq_some.mp hw
    obtain ⟨hr, hchange⟩ := mem_readRows.mp hmem
    exact ⟨Table.find_eq_some.mpr ⟨hr, hkey⟩, hchange⟩
  refine ⟨h.stored, h.named, ?_, ?_, ?_⟩
  · intro p hp i w hw
    rcases List.mem_append.mp hp with hp | hp
    · exact h.changes p hp i w hw
    · rw [List.mem_singleton.mp hp] at hw ⊢
      exact (hrow hw).2
  · intro p hp i w hw
    rcases List.mem_append.mp hp with hp | hp
    · exact h.read p hp i w hw
    · rw [List.mem_singleton.mp hp] at hw
      exact h.stored i w.1 (hrow hw).1
  · intro p hp i w hw hsome r hr
    rcases List.mem_append.mp hp with hp | hp
    · exact h.kept p hp i w hw hsome r hr
    · rw [List.mem_singleton.mp hp] at hw
      have hsame := (hrow hw).1.symm.trans hr
      cases hsame
      exact hsome

/-! ## What a commit leaves -/

/-- A stored row after a commit: the row as it was, or with the columns that were changed. -/
theorem find_track_commit {s : Tracked} {n i : ℕ} {op : Operation}
    {writes : Writes UpdateProposal.id} (hn : s.state.inflight[n]? = some (op, writes))
    {r' : UpdateProposal} (h : (track s (.commit n)).state.table.find i = some r') :
    ∃ r, s.state.table.find i = some r ∧ ((writes.find i = none ∧ r' = r) ∨
      ∃ w, writes.find i = some w ∧ r' = update w.1 w.2 r) := by
  simp only [track, step, hn, find_commit, Option.map_eq_some_iff] at h
  obtain ⟨r, hr, rfl⟩ := h
  refine ⟨r, hr, ?_⟩
  cases hw : writes.find i with
  | none => exact .inl ⟨rfl, rfl⟩
  | some w => exact .inr ⟨w, rfl, rfl⟩

theorem released_update {loaded current stored : UpdateProposal}
    (h : Released (update loaded current stored)) : Released stored ∨ Released current := by
  by_cases hs : current.status = loaded.status
  · exact .inl (by simpa [Released, update, hs] using h)
  · exact .inr (by simpa [Released, update, writeBack_changed hs] using h)

/-- A commit keeps an approver. -/
theorem approvedBy_update {op : Operation} {loaded current stored : UpdateProposal}
    (hchange : ApprovalChange op loaded current) (h : stored.approvedBy.isSome) :
    (update loaded current stored).approvedBy.isSome := by
  by_cases ha : current.approvedBy = loaded.approvedBy
  · simpa [update, ha] using h
  · rcases hchange with ⟨username, now, -, hu⟩ | ⟨hkept, -⟩
    · show (writeBack loaded.approvedBy current.approvedBy stored.approvedBy).isSome
      rw [writeBack_changed ha, hu]
      rfl
    · exact absurd hkept ha

/-- The commit of an approval leaves an approver: its own, or the one that it read already. -/
theorem approvedBy_approve {loaded current stored : UpdateProposal} {username : String}
    (hu : current.approvedBy = some username)
    (hkept : loaded.approvedBy.isSome → stored.approvedBy.isSome) :
    (update loaded current stored).approvedBy.isSome := by
  by_cases ha : current.approvedBy = loaded.approvedBy
  · have hstored := hkept (by rw [← ha, hu]; rfl)
    simpa [update, ha] using hstored
  · show (writeBack loaded.approvedBy current.approvedBy stored.approvedBy).isSome
    rw [writeBack_changed ha, hu]
    rfl

theorem inv_commit {s : Tracked} (h : Inv s) (n : ℕ) : Inv (track s (.commit n)) := by
  cases hn : s.state.inflight[n]? with
  | none =>
    have hsame : track s (.commit n) = s := by simp [track, step, approves, hn]
    rw [hsame]
    exact h
  | some p =>
    obtain ⟨op, writes⟩ := p
    have hinflight := List.mem_of_getElem? hn
    have hgrows : s.approved ⊆ (track s (.commit n)).approved :=
      List.subset_append_right _ _
    have hleft : ∀ p ∈ (track s (.commit n)).state.inflight, p ∈ s.state.inflight := by
      intro p hp
      simp only [track, step, hn] at hp
      exact List.mem_of_mem_eraseIdx hp
    have happrovals : ∀ {i w}, writes.find i = some w → ApprovalChange op w.1 w.2 :=
      fun hw => change_approval (h.changes _ hinflight _ _ hw)
    have hkeys : ∀ {i w}, writes.find i = some w → w.1.id = i :=
      fun hw => (Table.find_eq_some.mp hw).2
    have hkeep : ∀ {i r r'}, s.state.table.find i = some r →
        (track s (.commit n)).state.table.find i = some r' → r.approvedBy.isSome →
        r'.approvedBy.isSome := by
      intro i r r' hr hr' hsome
      obtain ⟨r₁, hr₁, hcase⟩ := find_track_commit hn hr'
      obtain rfl : r₁ = r := Option.some.inj (hr₁.symm.trans hr)
      rcases hcase with ⟨-, rfl⟩ | ⟨w, hw, rfl⟩
      · exact hsome
      · exact approvedBy_update (happrovals hw) hsome
    constructor
    · intro i r' hr' hreleased
      obtain ⟨r, hr, ⟨-, rfl⟩ | ⟨w, hw, rfl⟩⟩ := find_track_commit hn hr'
      · exact hgrows (h.stored i r' hr hreleased)
      rcases released_update hreleased with hold | hnew
      · exact hgrows (h.stored i r hr hold)
      rcases happrovals hw with ⟨username, now, hop, -⟩ | ⟨-, hback⟩
      · rw [hkeys hw] at hop
        have happ := (approves_eq_some hn).mpr ⟨username, now, w, hop, hw⟩
        exact List.mem_append_left _ (by rw [happ]; exact List.mem_singleton_self i)
      · exact hgrows (h.read _ hinflight i w hw (hback hnew))
    · intro i r' hr' happroved
      obtain ⟨r, hr, hcase⟩ := find_track_commit hn hr'
      rcases List.mem_append.mp happroved with hnew | hold
      · obtain ⟨username, now, w, rfl, hw⟩ :=
          (approves_eq_some hn).mp (Option.mem_toList.mp hnew)
        have hu : w.2.approvedBy = some username := by
          have hchange := h.changes _ hinflight i w hw
          simp only [change, approveProposal] at hchange
          split at hchange
          · rw [← Option.some.inj hchange]
          · cases hchange
        rcases hcase with ⟨hnone, -⟩ | ⟨w', hw', rfl⟩
        · rw [hnone] at hw
          cases hw
        · obtain rfl : w' = w := Option.some.inj (hw'.symm.trans hw)
          exact approvedBy_approve hu fun hsome => h.kept _ hinflight i w' hw hsome r hr
      · exact hkeep hr hr' (h.named i r hr hold)
    · exact fun p hp => h.changes p (hleft p hp)
    · exact fun p hp i w hw hreleased => hgrows (h.read p (hleft p hp) i w hw hreleased)
    · intro p hp i w hw hsome r' hr'
      obtain ⟨r, hr, -⟩ := find_track_commit hn hr'
      exact hkeep hr hr' (h.kept p (hleft p hp) i w hw hsome r hr)

/-- For any proposals that are all `proposed` and any interleaving of their writers, a proposal
that is ready for a pull request has been approved in the run, and names its approver. -/
theorem ready_has_approval (t : Table UpdateProposal.id)
    (hproposed : ∀ p ∈ t.rows, p.status = .proposed) (es : List (Event Operation)) (i : ℕ)
    (p : UpdateProposal) (hp : (run track (.start t) es).state.table.find i = some p)
    (hready : p.status = .readyForPr) :
    i ∈ (run track (.start t) es).approved ∧ p.approvedBy.isSome := by
  have hstart : Inv (.start t) := by
    refine ⟨fun i r hr hreleased => ?_, fun _ _ _ hi => (List.not_mem_nil hi).elim,
      fun _ hp => (List.not_mem_nil hp).elim, fun _ hp => (List.not_mem_nil hp).elim,
      fun _ hp => (List.not_mem_nil hp).elim⟩
    have hstatus := hproposed r (Table.find_eq_some.mp hr).1
    simp [Released, hstatus] at hreleased
  have hinv := run_invariant Inv (fun s e h => match e with
    | .read op => inv_read h op
    | .commit n => inv_commit h n) hstart es
  have happroved := hinv.stored i p hp (.inr hready)
  exact ⟨happroved, hinv.named i p hp happroved⟩

/-! ## A run that prepares a patch -/

/-- A fresh proposal. -/
def fresh : UpdateProposal :=
  ⟨7, 3, "urllib3", "2.0.6", "2.0.7", "cve_fix", ["CVE-2023-45803"], [], none, none, false, none,
    .proposed, none, none, [], none⟩

def freshTable : Table UpdateProposal.id := ⟨[fresh], by decide⟩

/-- An administrator approves it while the AI validation runs; the approval commits last. -/
def approval : List (Event Operation) :=
  [.read (.aiValidate [7] fun _ => .raised "no answer"), .read (.approve 7 "admin" 5), .commit 0,
    .commit 0]

def preparation : Operation :=
  .applyApproved none (.text ["urllib3==2.0.6"]) fun _ _ => "patch"

/-- The proposal after the approval. -/
def approvedRow : UpdateProposal :=
  { fresh with
    aiRecommendation := some "manual_review"
    aiAssessment := [("_error", "no answer")]
    status := .approved
    approvedBy := some "admin"
    approvedAt := some 5 }

/-- The proposal with its patch. -/
def preparedRow : UpdateProposal :=
  { approvedRow with
    status := .readyForPr
    rollbackSnapshot := [("proposal_patch", "patch"), ("previous_version", "2.0.6"),
      ("requires_lock_regeneration", "True"), ("requires_ci", "True")] }

theorem change_preparation : change preparation approvedRow = some preparedRow := by
  have hpins : pins approvedRow.packageName "urllib3==2.0.6" = true := pins_exact
  simp only [change, preparation, applyApprovedUpdates, prepareOneUpdate, List.any_cons, hpins]
  rfl

theorem find_preparation : (run track (.start freshTable)
    (approval ++ [.read preparation, .commit 0])).state.table.find 7 = some preparedRow := by
  let s := run track (.start freshTable) approval
  have hrow : s.state.table.rows = [approvedRow] := by decide +kernel
  have hinflight : s.state.inflight = [] := rfl
  have hreads : (readRows proposals preparation s.state.table).rows =
      [(approvedRow, preparedRow)] := by
    simp only [readRows, hrow, List.filterMap_cons, List.filterMap_nil, proposals,
      change_preparation, Option.map_some]
  have hfind : (readRows proposals preparation s.state.table).find 7 =
      some (approvedRow, preparedRow) := by
    rw [Table.find, hreads]
    rfl
  have hstored : s.state.table.find 7 = some approvedRow := by
    rw [Table.find, hrow]
    rfl
  have hlast : (step proposals (step proposals s.state (.read preparation)) (.commit 0)).table.find
      7 = some preparedRow := by
    simp only [step, hinflight, List.nil_append, List.getElem?_cons_zero, find_commit, hfind,
      hstored, Option.map_some]
    rfl
  rw [run, List.foldl_append]
  exact hlast

/-- The approval is found behind the patch. -/
theorem prepared_has_approval :
    7 ∈ (run track (.start freshTable) (approval ++ [.read preparation, .commit 0])).approved ∧
      preparedRow.approvedBy.isSome :=
  ready_has_approval freshTable (by decide +kernel) _ 7 preparedRow find_preparation rfl

end Kepryx.PatchApproval
