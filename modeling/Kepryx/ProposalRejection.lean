import Kepryx.UpdateProposals

/-!
# When a rejected proposal stays rejected

A commit writes what its operation decided on reading. So a rejection is undone exactly by an
operation that read the proposal before it was rejected and commits after it.
-/
namespace Kepryx.ProposalRejection
open Kepryx.Models Kepryx.Tables Kepryx.UnitOfWork Kepryx.Runs Kepryx.SelfSecurity
  Kepryx.StaleWrites Kepryx.UpdateProposals

/-- The proposals and their writers, and the proposals for which a reject has committed. -/
structure Tracked where
  state : State UpdateProposal.id Operation
  rejected : List ℕ

/-- Any proposals, and nothing in flight. -/
def Tracked.start (t : Table UpdateProposal.id) : Tracked := ⟨⟨t, []⟩, []⟩

/-- The proposal whose rejection an event commits. -/
def rejectedBy (s : State UpdateProposal.id Operation) : Event Operation → Option ℕ
  | .read _ => none
  | .commit n =>
    match s.inflight[n]? with
    | some (.reject i _, writes) => (writes.find i).map fun _ => i
    | _ => none

def track (s : Tracked) (e : Event Operation) : Tracked where
  state := step proposals s.state e
  rejected := (rejectedBy s.state e).toList ++ s.rejected

/-- Every proposal for which a reject has committed is rejected. -/
def StaysRejected (s : Tracked) : Prop :=
  ∀ i ∈ s.rejected, Holds UpdateProposal.status .rejected i s.state.table

/-- The committing operation read the rejection of every rejected proposal that it changes, or
rejects the proposal itself. A reject that read its proposal as rejected finds it so. -/
def Fresh (s : Tracked) : Event Operation → Prop
  | .read _ => True
  | .commit n =>
    ∀ op writes, s.state.inflight[n]? = some (op, writes) →
      (∀ i ∈ s.rejected, ∀ w, writes.find i = some w →
        w.1.status = .rejected ∨ w.2.status = .rejected) ∧
      ∀ i reason, op = .reject i reason → ∀ w, writes.find i = some w → w.1.status = .rejected →
        Holds UpdateProposal.status .rejected i s.state.table

/-- What holds of the operations in flight: they keep to their guards, and the proposals they
read are still stored. -/
structure Inv (s : State UpdateProposal.id Operation) : Prop where
  changes : ∀ p ∈ s.inflight, ∀ w ∈ p.2.rows, StatusChange p.1 w.1 w.2
  stored : ∀ p ∈ s.inflight, ∀ w ∈ p.2.rows, (s.table.find w.1.id).isSome

theorem inv_step {s : State UpdateProposal.id Operation} (h : Inv s) (e : Event Operation) :
    Inv (step proposals s e) := by
  have htable : ∀ k, ((step proposals s e).table.find k).isSome = (s.table.find k).isSome := by
    intro k
    cases e with
    | read op => rfl
    | commit n =>
      simp only [step]
      split
      · rfl
      · rw [Table.find_mapRows, Option.isSome_map]
  constructor
  · intro p hp w hw
    rcases mem_inflight_step hp with hp | ⟨op, -, rfl⟩
    · exact h.changes p hp w hw
    · exact change_status (mem_readRows.mp hw).2
  · intro p hp w hw
    rw [htable]
    rcases mem_inflight_step hp with hp | ⟨op, -, rfl⟩
    · exact h.stored p hp w hw
    · rw [Table.find_key (mem_readRows.mp hw).1]
      rfl

theorem spares_iff {op : Operation} {w : UpdateProposal × UpdateProposal}
    (h : StatusChange op w.1 w.2) :
    Spares UpdateProposal.status .rejected w ↔
      w.1.status = .rejected ∨ w.2.status = .rejected := by
  unfold Spares
  constructor
  · rintro (hs | hs)
    · by_cases hr : w.1.status = .rejected
      · exact .inl hr
      · exact absurd hs (h.of_other hr)
    · exact .inr hs
  · rintro (hs | hs)
    · exact .inr (h.of_rejected hs)
    · exact .inr hs

/-- The commit of a reject leaves its proposal rejected, unless it read it so and does not
write the status. -/
theorem holds_reject_iff {s : State UpdateProposal.id Operation} (h : Inv s) {n i : ℕ}
    {reason : String} {writes : Writes UpdateProposal.id} {w : UpdateProposal × UpdateProposal}
    (hn : s.inflight[n]? = some (.reject i reason, writes)) (hw : writes.find i = some w) :
    Holds UpdateProposal.status .rejected i
        (s.table.mapRows (commitRow proposals writes) (commitRow_key proposals writes)) ↔
      (w.1.status = .rejected → Holds UpdateProposal.status .rejected i s.table) := by
  obtain ⟨hmem, hid⟩ := Table.find_eq_some.mp hw
  have hinflight := List.mem_of_getElem? hn
  obtain ⟨stored, hstored⟩ := Option.isSome_iff_exists.mp (h.stored _ hinflight w hmem)
  have hrej := ((h.changes _ hinflight w hmem).reject i reason rfl).2
  rw [hid] at hstored
  rw [Holds, Holds, find_commit, hstored, hw]
  simp only [Option.map_some, Option.some.injEq]
  rw [status_columnWise w.1 w.2 stored, hrej]
  by_cases hr : w.1.status = .rejected
  · simp [hr]
  · rw [writeBack_changed (Ne.symm hr)]
    simp [hr]

theorem rejectedBy_eq_some {s : State UpdateProposal.id Operation} {n i : ℕ} {op : Operation}
    {writes : Writes UpdateProposal.id} (hn : s.inflight[n]? = some (op, writes)) :
    rejectedBy s (.commit n) = some i ↔
      ∃ reason w, op = .reject i reason ∧ writes.find i = some w := by
  cases op with
  | reject j reason =>
    simp only [rejectedBy, hn, Option.map_eq_some_iff]
    constructor
    · rintro ⟨w, hw, rfl⟩
      exact ⟨reason, w, rfl, hw⟩
    · rintro ⟨_, w, he, hw⟩
      cases he
      exact ⟨w, hw, rfl⟩
  | _ => simp [rejectedBy, hn]

/-- A step keeps the rejected proposals rejected exactly when its commit is fresh. -/
theorem fresh_iff {s : Tracked} (hinv : Inv s.state) (hs : StaysRejected s)
    (e : Event Operation) : Fresh s e ↔ StaysRejected (track s e) := by
  cases e with
  | read op => exact iff_of_true trivial hs
  | commit n =>
    cases hn : s.state.inflight[n]? with
    | none =>
      have hsame : track s (.commit n) = s := by simp [track, step, rejectedBy, hn]
      rw [hsame]
      exact iff_of_true (fun op writes h => by rw [hn] at h; cases h) hs
    | some p =>
      obtain ⟨op, writes⟩ := p
      have hspares : ∀ {i w}, writes.find i = some w →
          (Spares UpdateProposal.status .rejected w ↔
            w.1.status = .rejected ∨ w.2.status = .rejected) := fun hw =>
        spares_iff (hinv.changes _ (List.mem_of_getElem? hn) _ (Table.find_eq_some.mp hw).1)
      have htable : (track s (.commit n)).state.table =
          s.state.table.mapRows (commitRow proposals writes) (commitRow_key proposals writes) := by
        simp [track, step, hn]
      constructor
      · intro hf i hi
        obtain ⟨hold, hrej⟩ := hf op writes hn
        rw [htable]
        rcases List.mem_append.mp hi with hi | hi
        · obtain ⟨reason, w, rfl, hw⟩ := (rejectedBy_eq_some hn).mp (Option.mem_toList.mp hi)
          exact (holds_reject_iff hinv hn hw).mpr (hrej i reason rfl w hw)
        · exact (holds_commit_iff status_columnWise (hs i hi) writes).mpr
            fun w hw => (hspares hw).mpr (hold i hi w hw)
      · intro hafter op' writes' hn'
        rw [hn] at hn'
        cases hn'
        rw [StaysRejected, htable] at hafter
        refine ⟨fun i hi w hw => ?_, fun i reason hop w hw => ?_⟩
        · exact (hspares hw).mp ((holds_commit_iff status_columnWise (hs i hi) writes).mp
            (hafter i (List.mem_append_right _ hi)) w hw)
        · subst hop
          have hi := (rejectedBy_eq_some hn).mpr ⟨reason, w, rfl, hw⟩
          exact (holds_reject_iff hinv hn hw).mp
            (hafter i (List.mem_append_left _ (Option.mem_toList.mpr hi)))

/-- A rejection that commits while no other operation holds a status for its proposal is
final. -/
theorem rejection_final {s : State UpdateProposal.id Operation} {i : ℕ}
    (hrejected : Holds UpdateProposal.status .rejected i s.table)
    (hfree : ∀ p ∈ s.inflight, ∀ w, p.2.find i = some w → w.2.status = .rejected)
    (es : List (Event Operation)) :
    Holds UpdateProposal.status .rejected i (run (step proposals) s es).table :=
  (settled_run status_columnWise rejected_respects
    ⟨hrejected, fun p hp w hw => .inr (hfree p hp w hw)⟩ es).holds

/-- For any proposals and any interleaving of their writers, every proposal for which a
reject has committed is rejected in every later state exactly when no operation commits
another status for a proposal that was rejected since the operation read it. -/
theorem rejected_stays_iff (t : Table UpdateProposal.id) (es : List (Event Operation)) :
    Along track (fun s e => StaysRejected (track s e)) (.start t) es ↔
      Along track Fresh (.start t) es := by
  have hstart : Inv (Tracked.start t).state ∧ StaysRejected (.start t) :=
    ⟨⟨fun _ hp => (List.not_mem_nil hp).elim, fun _ hp => (List.not_mem_nil hp).elim⟩,
      fun _ hi => (List.not_mem_nil hi).elim⟩
  exact (along_iff_of_invariant (fun s : Tracked => Inv s.state ∧ StaysRejected s)
    (fun _ e hs => fresh_iff hs.1 hs.2 e)
    (fun _ e hs hf => ⟨inv_step hs.1 e, (fresh_iff hs.1 hs.2 e).mp hf⟩) hstart es).symm

/-- A proposal that waits for a decision. -/
def waiting : Table UpdateProposal.id :=
  ⟨[⟨1, 1, "jinja2", "3.1.2", "3.1.3", "cve_fix", ["CVE-2024-22195"], [], none, none, false, none,
    .proposed, none, none, [], none⟩], by decide⟩

/-- One administrator opens the approval, another one rejects the proposal, and the approval
then commits. -/
theorem rejected_then_approved :
    ¬ ∀ es : List (Event Operation),
      Along track (fun s e => StaysRejected (track s e)) (.start waiting) es := by
  intro h
  have hrun := h [.read (.approve 1 "admin" 0), .read (.reject 1 "not now"), .commit 1, .commit 0]
  have hstays := hrun.2.2.2.1 1 (by decide +kernel)
  exact absurd hstays (by unfold Holds; decide +kernel)

end Kepryx.ProposalRejection
