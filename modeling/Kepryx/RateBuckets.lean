import Mathlib.Data.List.Count
import Kepryx.ExpiringCounters

/-!
# One bucket of a fixed-window rate limit

The first request of a window creates a counter and then gives it an expiry; it is pending
between the two. Each request that finds the counter within the limit is admitted. What a bucket
is for: no lifetime of its counter admits more than the limit, and a counter without an expiry
has a pending request that will give it one.
-/
namespace Kepryx.RateBuckets

open Kepryx.ExpiringCounters

/-- The counter as stored, the requests that are about to set its expiry, how often it has been
created, and the lifetime of each request that was admitted. -/
structure Bucket where
  now : ℕ
  stored : Option Counter
  pending : ℕ
  lifetime : ℕ
  admitted : List ℕ

namespace Bucket

/-- The counter, unless it has vanished. -/
def live (b : Bucket) : Option Counter := b.stored.filter (Counter.alive b.now)

/-- What can happen to a bucket. Where `kept` holds, the request that creates the counter also
sets its expiry. -/
inductive Step (limit window : ℕ) (kept : Prop) (b : Bucket) : Bucket → Prop
  | wait (ms : ℕ) : Step limit window kept b { b with now := b.now + ms }
  | create (hdead : b.live = none) :
    Step limit window kept b
      { b with stored := some ⟨1, none⟩, pending := b.pending + 1, lifetime := b.lifetime + 1 }
  | createLost (hlost : ¬ kept) (hdead : b.live = none) :
    Step limit window kept b { b with stored := some ⟨1, none⟩, lifetime := b.lifetime + 1 }
  | giveUp (hlost : ¬ kept) (hpending : 0 < b.pending) :
    Step limit window kept b { b with pending := b.pending - 1 }
  | accept (c : Counter) (hlive : b.live = some c) (hlimit : c.value + 1 ≤ limit) :
    Step limit window kept b
      { b with
        stored := some ⟨c.value + 1, c.expiresAt⟩
        admitted := b.admitted ++ [b.lifetime] }
  | count (c : Counter) (hlive : b.live = some c) :
    Step limit window kept b { b with stored := some ⟨c.value + 1, c.expiresAt⟩ }
  | expire (c : Counter) (hpending : 0 < b.pending) (hlive : b.live = some c) :
    Step limit window kept b
      { b with
        stored := some ⟨c.value, some (b.now + 1000 * window)⟩
        pending := b.pending - 1 }
  | expireAdmit (c : Counter) (hpending : 0 < b.pending) (hlive : b.live = some c) :
    Step limit window kept b
      { b with
        stored := some ⟨c.value, some (b.now + 1000 * window)⟩
        pending := b.pending - 1
        admitted := b.admitted ++ [b.lifetime] }

/-- The admissions of the current lifetime, and those still to come from a pending request. -/
def granted (b : Bucket) : ℕ := b.admitted.count b.lifetime + b.pending

/-- What every run keeps. -/
structure Sound (limit window : ℕ) (b : Bucket) : Prop where
  positive : ∀ c, b.stored = some c → 0 < c.value
  single : b.pending ≤ 1
  pending : 0 < b.pending → ∃ c, b.live = some c ∧ c.expiresAt = none
  current : b.granted ≤ limit
  value : ∀ c, b.live = some c → b.granted ≤ c.value
  past : ∀ k, b.admitted.count k ≤ limit
  future : ∀ k, b.lifetime < k → b.admitted.count k = 0
  window : ∀ c e, b.stored = some c → c.expiresAt = some e → e ≤ b.now + 1000 * window

/-- A counter without an expiry has a pending request. -/
def Bounded (b : Bucket) : Prop := ∀ c, b.live = some c → c.expiresAt = none → 0 < b.pending

theorem live_eq_some {b : Bucket} {c : Counter} :
    b.live = some c ↔ b.stored = some c ∧ ∀ e, c.expiresAt = some e → b.now < e :=
  Counters.get_eq_some (s := fun _ : Unit => b.stored) (k := ())

theorem live_of_no_expiry {b : Bucket} {n : ℕ} (h : b.stored = some ⟨n, none⟩) :
    b.live = some ⟨n, none⟩ :=
  live_eq_some.mpr ⟨h, fun e he => by cases he⟩

theorem count_append (ks : List ℕ) (k j : ℕ) :
    (ks ++ [k]).count j = ks.count j + if k = j then 1 else 0 := by
  rw [List.count_append, List.count_singleton]
  simp

variable {limit window : ℕ} {kept : Prop} {b b' : Bucket}

theorem Sound.wait (h : Sound limit window b) (ms : ℕ) :
    Sound limit window { b with now := b.now + ms } := by
  refine ⟨h.positive, h.single, fun hp => ?_, h.current, fun c hc => ?_, h.past, h.future, ?_⟩
  · obtain ⟨c, hc, hnone⟩ := h.pending hp
    refine ⟨c, live_eq_some.mpr ⟨(live_eq_some.mp hc).1, fun e he => ?_⟩, hnone⟩
    rw [hnone] at he
    cases he
  · obtain ⟨hs, he⟩ := live_eq_some.mp hc
    refine h.value c (live_eq_some.mpr ⟨hs, fun e hexp => ?_⟩)
    have hlt : b.now + ms < e := he e hexp
    omega
  · intro c e hs he
    have hle := h.window c e hs he
    dsimp only
    omega

theorem Sound.pending_of_dead (h : Sound limit window b) (hdead : b.live = none) :
    b.pending = 0 := by
  by_contra hne
  obtain ⟨c, hc, -⟩ := h.pending (Nat.pos_of_ne_zero hne)
  rw [hdead] at hc
  cases hc

/-- A new counter, whose creator is pending or not. -/
theorem Sound.created (h : Sound limit window b) (hlimit : 0 < limit) {pending : ℕ}
    (hsingle : pending ≤ 1) :
    Sound limit window
      { b with stored := some ⟨1, none⟩, pending := pending, lifetime := b.lifetime + 1 } := by
  have hnew : b.admitted.count (b.lifetime + 1) = 0 := h.future _ (Nat.lt_succ_self _)
  refine ⟨fun c hs => ?_, hsingle, fun _ => ⟨⟨1, none⟩, live_of_no_expiry rfl, rfl⟩, ?_,
    fun c hc => ?_, h.past, fun k hk => h.future k (Nat.lt_of_succ_lt hk), fun c e hs he => ?_⟩
  · rw [← Option.some.inj hs]
    exact Nat.one_pos
  · unfold granted
    dsimp only
    omega
  · obtain rfl := Option.some.inj (live_eq_some.mp hc).1
    unfold granted
    dsimp only
    omega
  · rw [← Option.some.inj hs] at he
    cases he

theorem Sound.giveUp (h : Sound limit window b) (hp : 0 < b.pending) :
    Sound limit window { b with pending := b.pending - 1 } := by
  have hsingle := h.single
  have hcurrent := h.current
  have hvalue := h.value
  unfold granted at hcurrent hvalue
  refine ⟨h.positive, ?_, fun _ => h.pending hp, ?_, fun c hc => ?_, h.past, h.future, h.window⟩
  · dsimp only
    omega
  · unfold granted
    dsimp only
    omega
  · have hle := hvalue c hc
    unfold granted
    dsimp only
    omega

/-- The counter of a bucket goes up by one. -/
theorem Sound.counted (h : Sound limit window b) {c : Counter} (hlive : b.live = some c) :
    Sound limit window { b with stored := some ⟨c.value + 1, c.expiresAt⟩ } := by
  obtain ⟨hs, halive⟩ := live_eq_some.mp hlive
  refine ⟨fun c' hs' => ?_, h.single, fun hp => ?_, h.current, fun c' hc' => ?_, h.past, h.future,
    ?_⟩
  · rw [← Option.some.inj hs']
    exact Nat.succ_pos _
  · obtain ⟨c', hc', hnone⟩ := h.pending hp
    rw [hlive] at hc'
    obtain rfl := Option.some.inj hc'
    exact ⟨⟨c.value + 1, c.expiresAt⟩, live_eq_some.mpr ⟨rfl, halive⟩, hnone⟩
  · obtain rfl := Option.some.inj (live_eq_some.mp hc').1
    exact Nat.le_trans (h.value c hlive) (Nat.le_succ _)
  · intro c' e hs' he
    obtain rfl := Option.some.inj hs'
    exact h.window c e hs he

/-- The expiry that the pending request sets. -/
theorem Sound.expired (h : Sound limit window b) {c : Counter} (hp : 0 < b.pending)
    (hlive : b.live = some c) :
    Sound limit window
      { b with
        stored := some ⟨c.value, some (b.now + 1000 * window)⟩
        pending := b.pending - 1 } := by
  have hsingle := h.single
  have hcurrent := h.current
  have hvalue := h.value c hlive
  unfold granted at hcurrent hvalue
  refine ⟨fun c' hs => ?_, ?_, fun hp' => ?_, ?_, fun c' hc' => ?_, h.past, h.future,
    fun c' e hs he => ?_⟩
  · rw [← Option.some.inj hs]
    exact h.positive c (live_eq_some.mp hlive).1
  · dsimp only
    omega
  · dsimp only at hp'
    omega
  · unfold granted
    dsimp only
    omega
  · obtain rfl := Option.some.inj (live_eq_some.mp hc').1
    unfold granted
    dsimp only
    omega
  · obtain rfl := Option.some.inj hs
    exact Nat.le_of_eq (Option.some.inj he).symm

/-- An admission for which the bucket has room. -/
theorem Sound.accept (h : Sound limit window b) (hroom : b.granted + 1 ≤ limit)
    (hvalue : ∀ c, b.live = some c → b.granted + 1 ≤ c.value) :
    Sound limit window { b with admitted := b.admitted ++ [b.lifetime] } := by
  unfold granted at hroom hvalue
  refine ⟨h.positive, h.single, h.pending, ?_, fun c hc => ?_, fun k => ?_, fun k hk => ?_,
    h.window⟩
  · unfold granted
    rw [count_append, if_pos rfl]
    dsimp only
    omega
  · have hle := hvalue c hc
    unfold granted
    rw [count_append, if_pos rfl]
    dsimp only
    omega
  · rw [count_append]
    split_ifs with hk
    · subst hk
      omega
    · exact h.past k
  · have hk' : b.lifetime < k := hk
    rw [count_append, h.future k hk', if_neg (Nat.ne_of_lt hk')]

theorem Sound.step (hlimit : 0 < limit) (h : Sound limit window b)
    (hstep : Step limit window kept b b') : Sound limit window b' := by
  cases hstep with
  | wait ms => exact h.wait ms
  | create hdead =>
    have hzero := h.pending_of_dead hdead
    exact h.created hlimit (by omega)
  | createLost _ hdead => exact h.created hlimit h.single
  | giveUp _ hp => exact h.giveUp hp
  | count c hlive => exact h.counted hlive
  | accept c hlive hle =>
    have hgranted := h.value c hlive
    refine (h.counted hlive).accept ?_ fun c' hc' => ?_
    · exact Nat.le_trans (Nat.succ_le_succ hgranted) hle
    · obtain rfl := Option.some.inj (live_eq_some.mp hc').1
      exact Nat.succ_le_succ hgranted
  | expire c hp hlive => exact h.expired hp hlive
  | expireAdmit c hp hlive =>
    -- the admission takes the place of the pending request
    have hcurrent := h.current
    have hvalue := h.value c hlive
    unfold granted at hcurrent hvalue
    refine (h.expired hp hlive).accept ?_ fun c' hc' => ?_
    · unfold granted
      dsimp only
      omega
    · obtain rfl := Option.some.inj (live_eq_some.mp hc').1
      unfold granted
      dsimp only
      omega

/-- Where the creator of the counter sets its expiry, a counter without one has a pending request
after every step. -/
theorem Bounded.step (h : Bounded b) (hkept : kept)
    (hstep : Step limit window kept b b') : Bounded b' := by
  intro c' hc' hnone
  obtain ⟨hs', -⟩ := live_eq_some.mp hc'
  cases hstep with
  | wait ms => exact h c' (live_eq_some.mpr ⟨hs', fun e he => by rw [hnone] at he; cases he⟩) hnone
  | create hdead => exact Nat.succ_pos _
  | createLost hlost _ => exact absurd hkept hlost
  | giveUp hlost _ => exact absurd hkept hlost
  | count c hlive =>
    obtain rfl := Option.some.inj hs'
    exact h c hlive hnone
  | accept c hlive _ =>
    obtain rfl := Option.some.inj hs'
    exact h c hlive hnone
  | expire c _ _ =>
    obtain rfl := Option.some.inj hs'
    cases hnone
  | expireAdmit c _ _ =>
    obtain rfl := Option.some.inj hs'
    cases hnone

/-- Without a pending request the counter vanishes within the window. -/
theorem Sound.expires (h : Sound limit window b) (hbounded : Bounded b) (hidle : b.pending = 0)
    {c : Counter} (hlive : b.live = some c) :
    ∃ e, c.expiresAt = some e ∧ e ≤ b.now + 1000 * window := by
  obtain ⟨hs, -⟩ := live_eq_some.mp hlive
  cases he : c.expiresAt with
  | none =>
    have hpending := hbounded c hlive he
    omega
  | some e => exact ⟨e, rfl, h.window c e hs he⟩

end Bucket

end Kepryx.RateBuckets
