import Mathlib.Data.Int.Notation
import Mathlib.Data.List.Basic
import Mathlib.Logic.Function.Basic

/-!
# Counters that may expire

A store of counters with the commands `INCR`, `EXPIRE` and `TTL`. A counter that has just been
created has no expiry; one with an expiry vanishes at that instant. Times are milliseconds.
-/
namespace Kepryx.ExpiringCounters

structure Counter where
  value : ℕ
  expiresAt : Option ℕ
  deriving DecidableEq, Repr

def Counter.alive (now : ℕ) (c : Counter) : Bool := c.expiresAt.all (now < ·)

variable {κ : Type*}

abbrev Counters (κ : Type*) := κ → Option Counter

namespace Counters

/-- `GET` -/
def get (s : Counters κ) (now : ℕ) (k : κ) : Option Counter := (s k).filter (Counter.alive now)

variable {s : Counters κ} {now : ℕ} {k k' : κ} {seconds : ℕ}

theorem get_eq_some {c : Counter} :
    s.get now k = some c ↔ s k = some c ∧ ∀ e, c.expiresAt = some e → now < e := by
  unfold get
  rw [Option.filter_eq_some_iff]
  refine and_congr_right fun _ => ?_
  cases hc : c.expiresAt with
  | none => simp [Counter.alive, hc]
  | some e => simp [Counter.alive, hc]

/-- The counter after `INCR`, whose value is the answer. -/
def incremented (s : Counters κ) (now : ℕ) (k : κ) : Counter :=
  match s.get now k with
  | none => ⟨1, none⟩
  | some c => { c with value := c.value + 1 }

theorem incremented_of_none (h : s.get now k = none) : s.incremented now k = ⟨1, none⟩ := by
  simp only [incremented, h]

theorem incremented_of_some {c : Counter} (h : s.get now k = some c) :
    s.incremented now k = ⟨c.value + 1, c.expiresAt⟩ := by
  simp only [incremented, h]

variable [DecidableEq κ]

/-- `INCR` -/
def incr (s : Counters κ) (now : ℕ) (k : κ) : Counters κ :=
  Function.update s k (some (s.incremented now k))

/-- `EXPIRE` in seconds; without the key it does nothing. -/
def expire (s : Counters κ) (now : ℕ) (k : κ) (seconds : ℕ) : Counters κ :=
  match s.get now k with
  | none => s
  | some c => Function.update s k (some { c with expiresAt := some (now + 1000 * seconds) })

/-- `TTL` in rounded seconds: `-2` without the key, `-1` without an expiry. -/
def ttl (s : Counters κ) (now : ℕ) (k : κ) : ℤ :=
  match s.get now k with
  | none => -2
  | some ⟨_, none⟩ => -1
  | some ⟨_, some e⟩ => (((e - now + 500) / 1000 : ℕ) : ℤ)

theorem incr_self : s.incr now k k = some (s.incremented now k) := Function.update_self ..

theorem incr_of_ne (h : k' ≠ k) : s.incr now k k' = s k' := Function.update_of_ne h ..

theorem expire_of_ne (h : k' ≠ k) : s.expire now k seconds k' = s k' := by
  cases hget : s.get now k with
  | none => simp only [expire, hget]
  | some c => simp only [expire, hget, Function.update_of_ne h]

theorem expire_of_some {c : Counter} (h : s.get now k = some c) :
    s.expire now k seconds k = some ⟨c.value, some (now + 1000 * seconds)⟩ := by
  simp only [expire, h, Function.update_self]

end Counters

end Kepryx.ExpiringCounters
