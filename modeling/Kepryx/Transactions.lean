import Kepryx.Runs

/-!
# A session and its transaction

A session changes its own view of the stored state, and a commit writes that view back. An
exception of the program leaves the view as it is, pending changes included. After an error of
the database every statement and every commit fails.
-/
namespace Kepryx.Transactions

variable {δ σ α : Type*}

/-- How a block of statements can end early: by an exception of the program, or by an error of
the database. -/
inductive Failure where
  | python | database
  deriving DecidableEq, Repr

/-- How the view of a session relates to the stored state. A view that was only loaded has
nothing to write. -/
structure Backend (δ σ : Type*) where
  load : δ → σ
  stored : σ → δ
  writable : σ → Bool
  stored_load : ∀ d, stored (load d) = d
  writable_load : ∀ d, writable (load d)

/-- A session: what is committed, its view, and whether its transaction was aborted. -/
structure Session (δ σ : Type*) where
  committed : δ
  memory : σ
  aborted : Bool := false

namespace Session
variable {B : Backend δ σ} {s : Session δ σ}

/-- A new session. -/
def start (B : Backend δ σ) (d : δ) : Session δ σ := ⟨d, B.load d, false⟩

/-- Run a block of statements. -/
def exec (s : Session δ σ) (block : σ → σ × Option Failure) : Session δ σ × Option Failure :=
  if s.aborted then (s, some .database)
  else match block s.memory with
    | (memory, none) => ({ s with memory := memory }, none)
    | (memory, some .python) => ({ s with memory := memory }, some .python)
    | (_, some .database) => ({ s with aborted := true }, some .database)

/-- Change objects of the session, without a statement. -/
def assign (s : Session δ σ) (f : σ → σ) : Session δ σ := { s with memory := f s.memory }

/-- Flush and commit. -/
def commit (B : Backend δ σ) (s : Session δ σ) : Session δ σ × Option Failure :=
  if s.aborted || !B.writable s.memory then ({ s with aborted := true }, some .database)
  else ({ s with committed := B.stored s.memory }, none)

/-- Nothing is pending: the view can be written and is what is committed. -/
structure Settled (B : Backend δ σ) (s : Session δ σ) : Prop where
  committed : s.committed = B.stored s.memory
  writable : B.writable s.memory
  active : s.aborted = false

theorem settled_start (B : Backend δ σ) (d : δ) : Settled B (start B d) :=
  ⟨(B.stored_load d).symm, B.writable_load d, rfl⟩

/-- Before an error of the database a block runs on the view. -/
theorem exec_active {block : σ → σ × Option Failure} (hactive : s.aborted = false) :
    s.exec block = match block s.memory with
      | (memory, none) => ({ s with memory := memory }, none)
      | (memory, some .python) => ({ s with memory := memory }, some .python)
      | (_, some .database) => ({ s with aborted := true }, some .database) := by
  unfold exec
  rw [hactive]
  rfl

theorem exec_ok {block : σ → σ × Option Failure} {memory : σ} (hactive : s.aborted = false)
    (h : block s.memory = (memory, none)) : s.exec block = ({ s with memory := memory }, none) := by
  rw [exec_active hactive, h]

/-- Before a commit nothing is stored. -/
theorem exec_committed (s : Session δ σ) (block : σ → σ × Option Failure) :
    (s.exec block).1.committed = s.committed := by
  unfold exec
  split
  · rfl
  · split <;> rfl

theorem exec_failed {block : σ → σ × Option Failure} (hactive : s.aborted = false)
    (h : (block s.memory).2 ≠ none) : (s.exec block).2 ≠ none := by
  rw [exec_active hactive]
  cases hb : block s.memory with
  | mk memory outcome =>
    cases outcome with
    | none => simp [hb] at h
    | some failure => cases failure <;> simp

theorem commit_writable (hactive : s.aborted = false) (hwritable : B.writable s.memory) :
    s.commit B = ({ s with committed := B.stored s.memory }, none) := by
  simp [commit, hactive, hwritable]

theorem commit_not_writable (hwritable : B.writable s.memory = false) :
    s.commit B = ({ s with aborted := true }, some .database) := by
  simp [commit, hwritable]

/-- No commit of an aborted transaction gets through. -/
theorem commit_aborted (h : s.aborted) :
    s.commit B = ({ s with aborted := true }, some .database) := by
  simp [commit, h]

/-- A commit either settles the session or fails. -/
theorem settled_commit (h : (s.commit B).2 = none) : Settled B (s.commit B).1 := by
  unfold commit at h ⊢
  split at h
  · cases h
  · rename_i hcan
    rw [if_neg hcan]
    simp only [Bool.or_eq_true, Bool.not_eq_true', not_or, Bool.not_eq_true,
      Bool.not_eq_false] at hcan
    exact ⟨rfl, hcan.2, hcan.1⟩

end Session

/-- A loop whose body can fail: it stops at the first failure. -/
def forEach (body : α → σ → σ × Option Failure) : List α → σ → σ × Option Failure
  | [], memory => (memory, none)
  | a :: as, memory =>
    match body a memory with
    | (memory, none) => forEach body as memory
    | (memory, some failure) => (memory, some failure)

/-- A loop over an element whose turn always fails does not go through. -/
theorem forEach_fails {body : α → σ → σ × Option Failure} {as : List α} {a : α} (ha : a ∈ as)
    (hfail : ∀ m, (body a m).2 ≠ none) (m : σ) : (forEach body as m).2 ≠ none := by
  induction as generalizing m with
  | nil => exact absurd ha List.not_mem_nil
  | cons x as ih =>
    cases hx : body x m with
    | mk m' failure =>
      cases failure with
      | some failure => simp [forEach, hx]
      | none =>
        simp only [forEach, hx]
        rcases List.mem_cons.mp ha with rfl | ha
        · exact absurd (congrArg Prod.snd hx) (hfail m)
        · exact ih ha m'

end Kepryx.Transactions
