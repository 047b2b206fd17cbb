import Mathlib.Data.List.Perm.Basic
import Kepryx.ApiTokenGrants

/-!
# How often an API token was used

A request stores the count that it has loaded, plus one. Requests that overlap store the same
count, so a count may be too small. It is never too large, and it is exact if no two requests with
one token overlap.
-/
namespace Kepryx.ApiTokens
open Kepryx.Issuance Kepryx.Runs Kepryx.Tables Kepryx.UnitOfWork

variable {env : Environment}

/-- The identifier of the row of a request that uses a token. -/
def Pending.usedId : Pending → Option String
  | .use loaded _ => some loaded.id
  | .revoke _ _ => none

/-- The token whose use an event commits. -/
def committedUse (s : State) : Event → Option String
  | .finish n true => s.inflight[n]?.bind Pending.usedId
  | _ => none

/-- The tokens of the requests that were committed in a run, one for each request. -/
def uses (env : Environment) (now : ℤ) (es : List Event) : List String :=
  observed (step env) committedUse (start now) es

/-- The request overlaps no other with its token. -/
def Serial (env : Environment) (s : State) : Event → Prop
  | .request q => ∀ loaded, admitted env s q = some loaded →
      ∀ p ∈ s.inflight, p.usedId ≠ some loaded.id
  | _ => True

theorem usedId_eq_some {p : Pending} {id : String} :
    p.usedId = some id ↔ ∃ loaded time, p = .use loaded time ∧ loaded.id = id := by
  cases p with
  | use loaded time => simp [Pending.usedId]
  | revoke loaded entry => simp [Pending.usedId]

/-- Only the commit of a use changes the count of a row. -/
theorem overwrite_usageCount (p : Pending) (t : TokenRow) : (p.overwrite t).usageCount =
    if p.usedId = some t.id then p.loaded.usageCount + 1 else t.usageCount := by
  by_cases hid : t.id = p.loaded.id
  · rw [Pending.overwrite_eq hid]
    cases p with
    | use loaded time =>
      have hused : (Pending.use loaded time).usedId = some t.id := congrArg some hid.symm
      rw [if_pos hused]
      exact writeBack_changed (Nat.succ_ne_self _) _
    | revoke loaded entry => rfl
  · rw [Pending.overwrite_ne hid, if_neg]
    intro hused
    obtain ⟨loaded, time, rfl, hloaded⟩ := usedId_eq_some.mp hused
    exact hid hloaded.symm

/-! ## The count is never too large -/

/-- No count, stored or loaded by a request, is larger than the number of committed uses. -/
structure Bounded (s : State) (used : List String) : Prop where
  stored : ∀ t ∈ s.tokens.rows, t.usageCount ≤ used.count t.id
  loaded : ∀ p ∈ s.inflight, p.loaded.usageCount ≤ used.count p.loaded.id

/-- The commits that an event makes, by what the event does. -/
theorem committedUse_of_finish {s : State} {e : Event} {n : ℕ} {p : Pending}
    (he : e = .finish n true) (hp : s.inflight[n]? = some p) : committedUse s e = p.usedId := by
  rw [he, committedUse, hp, Option.bind_some]

theorem committedUse_of_issues {s : State} {e : Event} {a : Issue} (h : Issues env s e a) :
    committedUse s e = none := by
  obtain ⟨r, user, body, draw, s', rfl, -⟩ := h
  rfl

theorem committedUse_of_loads {s : State} {e : Event}
    (h : ∀ n p, e = .finish n true → s.inflight[n]? ≠ some p) : committedUse s e = none := by
  cases e with
  | finish n committed =>
    cases committed with
    | false => rfl
    | true =>
      rw [committedUse, Option.eq_none_iff_forall_ne_some.mpr fun p => h n p rfl]
      rfl
  | _ => rfl

theorem count_append_toList (used : List String) (seen : Option String) (id : String) :
    (used ++ seen.toList).count id = used.count id + if seen = some id then 1 else 0 := by
  cases seen with
  | none => simp
  | some id' =>
    by_cases h : id' = id
    · simp [h]
    · simp [h]

theorem bounded_step {s : State} {used : List String} (h : Bounded s used) (e : Event) :
    Bounded (step env s e) (used ++ (committedUse s e).toList) := by
  have hmono : ∀ id, used.count id ≤ (used ++ (committedUse s e).toList).count id := fun id => by
    rw [count_append_toList]
    exact Nat.le_add_right _ _
  cases effect env s e with
  | creates a row hissues _ _ husage hinsert hinflight =>
    constructor
    · intro t ht
      rcases (Table.mem_insert? hinsert).mp ht with ht | rfl
      · exact (h.stored t ht).trans (hmono _)
      · rw [husage]
        exact Nat.zero_le _
    · intro p hp
      rw [hinflight] at hp
      exact (h.loaded p hp).trans (hmono _)
  | commits n p he hp htokens hinflight =>
    constructor
    · intro t ht
      rw [htokens] at ht
      obtain ⟨stored, hstored, rfl⟩ := List.mem_map.mp ht
      rw [p.overwrite_id, overwrite_usageCount, count_append_toList, committedUse_of_finish he hp]
      by_cases hused : p.usedId = some stored.id
      · rw [if_pos hused, if_pos hused]
        obtain ⟨loaded, time, rfl, hid⟩ := usedId_eq_some.mp hused
        have hloaded := h.loaded _ (List.mem_of_getElem? hp)
        rw [Pending.loaded, hid] at hloaded
        exact Nat.succ_le_succ hloaded
      · rw [if_neg hused, if_neg hused]
        exact h.stored stored hstored
    · intro p' hp'
      rw [hinflight] at hp'
      exact (h.loaded p' (List.mem_of_mem_eraseIdx hp')).trans (hmono _)
  | loads htokens _ _ hinflight =>
    constructor
    · intro t ht
      rw [htokens] at ht
      exact (h.stored t ht).trans (hmono _)
    · intro p hp
      rcases hinflight p hp with hp | hp
      · exact (h.loaded p hp).trans (hmono _)
      · exact (h.stored _ hp).trans (hmono _)

theorem bounded_start (now : ℤ) : Bounded (start now) [] :=
  ⟨fun _ ht => absurd ht List.not_mem_nil, fun _ hp => absurd hp List.not_mem_nil⟩

/-- In every run a stored count is at most the number of committed uses. -/
theorem usageCount_le_uses (now : ℤ) (es : List Event) {t : TokenRow}
    (ht : t ∈ (run (step env) (start now) es).tokens.rows) :
    t.usageCount ≤ (uses env now es).count t.id := by
  have hbounded : Bounded (run (step env) (start now) es) (uses env now es) :=
    run_observed (C := fun _ _ => True) Bounded (fun s e xs hs _ => bounded_step hs e)
      (bounded_start now) (along_of_forall fun _ _ _ => trivial)
  exact hbounded.stored t ht

/-! ## The count is exact without overlaps -/

/-- Two requests use different tokens. -/
def Apart (p p' : Pending) : Prop := ∀ id, p.usedId = some id → p'.usedId ≠ some id

theorem Apart.symm {p p' : Pending} (h : Apart p p') : Apart p' p := fun id hp' hp => h id hp hp'

/-- Every count, stored or loaded by a request, is the number of committed uses. -/
structure Exact (s : State) (used : List String) : Prop where
  stored : ∀ t ∈ s.tokens.rows, t.usageCount = used.count t.id
  loaded : ∀ loaded time, .use loaded time ∈ s.inflight →
    loaded.usageCount = used.count loaded.id
  known : ∀ id ∈ used, ∃ t ∈ s.tokens.rows, t.id = id
  rows : ∀ p ∈ s.inflight, ∃ t ∈ s.tokens.rows, t.id = p.loaded.id
  apart : s.inflight.Pairwise Apart

theorem exists_id_step {s : State} (e : Event) {id : String}
    (h : ∃ t ∈ s.tokens.rows, t.id = id) : ∃ t ∈ (step env s e).tokens.rows, t.id = id := by
  obtain ⟨t, ht, hid⟩ := h
  cases effect env s e with
  | creates a row _ _ _ _ hinsert => exact ⟨t, (Table.mem_insert? hinsert).mpr (.inl ht), hid⟩
  | commits n p _ _ htokens =>
    rw [htokens]
    exact ⟨p.overwrite t, List.mem_map.mpr ⟨t, ht, rfl⟩, (p.overwrite_id t).trans hid⟩
  | loads htokens =>
    rw [htokens]
    exact ⟨t, ht, hid⟩

/-- The request at a position uses another token than all others. -/
theorem apart_eraseIdx {ps : List Pending} {n : ℕ} {p p' : Pending} (h : ps.Pairwise Apart)
    (hn : ps[n]? = some p) (hp' : p' ∈ ps.eraseIdx n) : Apart p p' := by
  obtain ⟨hlt, rfl⟩ := List.getElem?_eq_some_iff.mp hn
  have hperm := List.getElem_cons_eraseIdx_perm hlt
  have hpairs := (hperm.pairwise_iff fun h => Apart.symm h).mpr h
  exact List.rel_of_pairwise_cons hpairs hp'

/-- Requests that overlap no other one with their token stay apart. -/
theorem apart_step {s : State} {e : Event} (hserial : Serial env s e)
    (hapart : s.inflight.Pairwise Apart) : (step env s e).inflight.Pairwise Apart := by
  cases e with
  | tick microseconds => exact hapart
  | create r user body draw =>
    rw [step]
    split
    · rename_i s' a h
      obtain ⟨row, -, -, -, -, -, -, hinflight⟩ := createToken_ok h
      rwa [hinflight]
    · exact hapart
  | request q =>
    rw [step]
    split
    · rename_i loaded h
      refine List.pairwise_append.mpr ⟨hapart, List.pairwise_singleton _ _, ?_⟩
      intro p hp p' hp' id hid hid'
      rw [List.mem_singleton.mp hp'] at hid'
      exact hserial loaded h p hp (hid.trans hid'.symm)
    · exact hapart
  | revoke r user id =>
    rw [step]
    split
    · rename_i p' h
      refine List.pairwise_append.mpr ⟨hapart, List.pairwise_singleton _ _, ?_⟩
      obtain ⟨token, entry, rfl, -⟩ := revokeToken_ok h
      intro p hp p' hp' id hid hid'
      rw [List.mem_singleton.mp hp'] at hid'
      cases hid'
    · exact hapart
  | finish n committed =>
    rw [step]
    split
    · exact hapart
    · cases committed <;> exact hapart.sublist (List.eraseIdx_sublist _ _)

theorem exact_step {s : State} {used : List String} (h : Exact s used) {e : Event}
    (hserial : Serial env s e) : Exact (step env s e) (used ++ (committedUse s e).toList) := by
  cases effect env s e with
  | creates a row hissues _ _ husage hinsert hinflight =>
    rw [committedUse_of_issues hissues, Option.toList_none, List.append_nil]
    have hnew : ∀ t ∈ s.tokens.rows, t.id ≠ row.id :=
      Table.find_eq_none.mp (Table.insert?_eq_some hinsert).2
    constructor
    · intro t ht
      rcases (Table.mem_insert? hinsert).mp ht with ht | rfl
      · exact h.stored t ht
      · rw [husage, eq_comm, List.count_eq_zero]
        intro hused
        obtain ⟨t', ht', hid⟩ := h.known _ hused
        exact hnew t' ht' hid
    · rw [hinflight]
      exact h.loaded
    · exact fun id hid => exists_id_step e (h.known id hid)
    · rw [hinflight]
      exact fun p hp => exists_id_step e (h.rows p hp)
    · exact apart_step hserial h.apart
  | commits n p he hp htokens hinflight =>
    rw [committedUse_of_finish he hp]
    have hmem := List.mem_of_getElem? hp
    constructor
    · intro t ht
      rw [htokens] at ht
      obtain ⟨stored, hstored, rfl⟩ := List.mem_map.mp ht
      rw [p.overwrite_id, overwrite_usageCount, count_append_toList]
      by_cases hused : p.usedId = some stored.id
      · rw [if_pos hused, if_pos hused]
        obtain ⟨loaded, time, rfl, hid⟩ := usedId_eq_some.mp hused
        rw [← hid]
        exact congrArg (· + 1) (h.loaded loaded time hmem)
      · rw [if_neg hused, if_neg hused]
        exact h.stored stored hstored
    · intro loaded time hp'
      rw [hinflight] at hp'
      have hother : p.usedId ≠ some loaded.id := fun hused =>
        apart_eraseIdx h.apart hp hp' loaded.id hused rfl
      rw [count_append_toList, if_neg hother]
      exact h.loaded loaded time (List.mem_of_mem_eraseIdx hp')
    · intro id hid
      rcases List.mem_append.mp hid with hid | hid
      · exact exists_id_step e (h.known id hid)
      · obtain ⟨loaded, time, rfl, rfl⟩ := usedId_eq_some.mp (Option.mem_toList.mp hid)
        exact exists_id_step e (h.rows _ hmem)
    · rw [hinflight]
      exact fun p' hp' => exists_id_step e (h.rows p' (List.mem_of_mem_eraseIdx hp'))
    · exact apart_step hserial h.apart
  | loads htokens hissues hfinish hinflight =>
    rw [committedUse_of_loads hfinish, Option.toList_none, List.append_nil]
    constructor
    · rw [htokens]
      exact h.stored
    · intro loaded time hp
      rcases hinflight _ hp with hp | hp
      · exact h.loaded loaded time hp
      · exact h.stored loaded hp
    · exact fun id hid => exists_id_step e (h.known id hid)
    · intro p hp
      rcases hinflight p hp with hp | hp
      · exact exists_id_step e (h.rows p hp)
      · exact exists_id_step e ⟨p.loaded, hp, rfl⟩
    · exact apart_step hserial h.apart

theorem exact_start (now : ℤ) : Exact (start now) [] where
  stored _ ht := absurd ht List.not_mem_nil
  loaded _ _ hp := absurd hp List.not_mem_nil
  known _ hid := absurd hid List.not_mem_nil
  rows _ hp := absurd hp List.not_mem_nil
  apart := List.Pairwise.nil

/-- A stored count is at most the number of the committed requests with the token, and it is that
number if no two of them overlap. -/
theorem usageCount_counts_uses (now : ℤ) (es : List Event) {t : TokenRow}
    (ht : t ∈ (run (step env) (start now) es).tokens.rows) :
    t.usageCount ≤ (uses env now es).count t.id ∧
      (Along (step env) (Serial env) (start now) es →
        t.usageCount = (uses env now es).count t.id) := by
  refine ⟨usageCount_le_uses now es ht, fun hserial => ?_⟩
  have hexact : Exact (run (step env) (start now) es) (uses env now es) :=
    run_observed Exact (fun s e xs hs he => exact_step hs he) (exact_start now) hserial
  exact hexact.stored t ht

/-- The row of the backup after one request. -/
def usedOnce : TokenRow where
  id := "7"
  name := "backup"
  scopes := ["assets:read"]
  tokenHash := "kpx_sGx1"
  tokenPrefix := "kpx_sGx1"
  createdBy := "root"
  expiresAt := some (90 * dayLength)
  lastUsed := some 0
  revoked := false
  usageCount := 1

theorem backup_used_once :
    usedOnce.usageCount = (uses officeEnvironment 0
      [createBackup, .request readAssets, .finish 0 true]).count usedOnce.id := by
  have hrows : (run (step officeEnvironment) (start 0)
      [createBackup, .request readAssets, .finish 0 true]).tokens.rows = [usedOnce] := rfl
  have hserial : Along (step officeEnvironment) (Serial officeEnvironment) (start 0)
      [createBackup, .request readAssets, .finish 0 true] :=
    ⟨trivial, fun _ _ _ hp => absurd hp List.not_mem_nil, trivial, trivial⟩
  refine (usageCount_counts_uses 0 _ ?_).2 hserial
  rw [hrows]
  exact List.mem_cons_self

end Kepryx.ApiTokens
