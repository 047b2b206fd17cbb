import Kepryx.Tables

/-!
# A key-value store with expiry

Every record has an instant at which it vanishes. A read takes the clock and sees only the
records that are still alive, so nothing has to remove the others. Times are milliseconds.
-/
namespace Kepryx.ExpiringStore
open Kepryx.Tables

variable {κ ν : Type*}

/-- A value under a key, until it expires. -/
structure Record (κ ν : Type*) where
  key : κ
  value : ν
  expiresAt : ℕ
  deriving DecidableEq, Repr

/-- At most one record for each key. -/
abbrev Store (κ ν : Type*) := Table (Record.key : Record κ ν → κ)

namespace Store
variable [DecidableEq κ]

/-- `GET` -/
def get (s : Store κ ν) (now : ℕ) (k : κ) : Option ν :=
  ((s.find k).filter fun r => now < r.expiresAt).map Record.value

/-- `SETEX`: the value replaces whatever was there, with its time to live. -/
def setex (s : Store κ ν) (now : ℕ) (k : κ) (ttl : ℕ) (v : ν) : Store κ ν :=
  s.upsert ⟨k, v, now + ttl⟩

/-- `SET … NX EX`: refused while the key holds a value. -/
def setNx (s : Store κ ν) (now : ℕ) (k : κ) (ttl : ℕ) (v : ν) : Option (Store κ ν) :=
  if (s.get now k).isSome then none else some (s.setex now k ttl v)

variable {s s' : Store κ ν} {now now' ttl : ℕ} {k k' : κ} {v v' : ν}

theorem get_eq_some : s.get now k = some v ↔ ∃ e, s.find k = some ⟨k, v, e⟩ ∧ now < e := by
  unfold get
  constructor
  · intro h
    obtain ⟨r, hr, rfl⟩ := Option.map_eq_some_iff.mp h
    obtain ⟨hr, halive⟩ := Option.filter_eq_some_iff.mp hr
    have hk : r.key = k := Table.find_some_key hr
    exact ⟨r.expiresAt, by rw [hr, ← hk], by simpa using halive⟩
  · rintro ⟨e, hr, halive⟩
    simp [hr, halive]

theorem get_setex : (s.setex now k ttl v).get now' k' =
    if k = k' then (if now' < now + ttl then some v else none) else s.get now' k' := by
  unfold get setex
  rw [Table.find_upsert]
  by_cases hk : k = k'
  · by_cases halive : now' < now + ttl
    · simp [hk, halive]
    · simp [hk, Nat.not_lt.mp halive, halive]
  · simp [hk]

theorem setNx_eq_some (h : s.setNx now k ttl v = some s') :
    s.get now k = none ∧ s' = s.setex now k ttl v := by
  unfold setNx at h
  split at h
  · cases h
  · rename_i hfree
    exact ⟨by simpa using hfree, (Option.some.inj h).symm⟩

/-- What can be read before `SET … NX` can be read after it. -/
theorem get_setNx (h : s.setNx now k ttl v = some s') (hget : s.get now k' = some v') :
    s'.get now k' = some v' := by
  obtain ⟨hfree, rfl⟩ := setNx_eq_some h
  rw [get_setex]
  split
  · rename_i hk
    rw [← hk, hfree] at hget
    cases hget
  · exact hget

/-! ## Values that last -/

/-- The key holds a value with `P`, which does not expire before the instant `e`. -/
def Until (s : Store κ ν) (k : κ) (P : ν → Prop) (e : ℕ) : Prop :=
  ∃ v e', s.find k = some ⟨k, v, e'⟩ ∧ P v ∧ e ≤ e'

variable {P : ν → Prop} {e : ℕ}

theorem Until.get (h : s.Until k P e) (hnow : now < e) : ∃ v, s.get now k = some v ∧ P v := by
  obtain ⟨v, e', hfind, hv, he⟩ := h
  exact ⟨v, get_eq_some.mpr ⟨e', hfind, by omega⟩, hv⟩

/-- What a write has to leave for the value of a key to last. -/
theorem until_setex (h : k' ≠ k → s.Until k P e) (hself : k' = k → P v ∧ e ≤ now + ttl) :
    (s.setex now k' ttl v).Until k P e := by
  unfold Until setex
  rw [Table.find_upsert]
  by_cases hk : k' = k
  · obtain ⟨hv, he⟩ := hself hk
    exact ⟨v, now + ttl, by simp [hk], hv, he⟩
  · obtain ⟨v', e', hfind, hv, he⟩ := h hk
    exact ⟨v', e', by simpa [hk] using hfind, hv, he⟩

/-- `SET … NX` replaces a value only after it has expired. -/
theorem Until.setNx (h : s.Until k P e) (hP : P v) (hset : s.setNx now k' ttl v = some s') :
    s'.Until k P e := by
  obtain ⟨hfree, rfl⟩ := setNx_eq_some hset
  refine until_setex (fun _ => h) fun hk => ⟨hP, ?_⟩
  obtain ⟨v', e', hfind, -, he⟩ := h
  by_contra hlt
  have halive : s.get now k = some v' := get_eq_some.mpr ⟨e', hfind, by omega⟩
  rw [← hk, hfree] at halive
  cases halive

end Store

end Kepryx.ExpiringStore
