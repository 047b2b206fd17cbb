import Kepryx.ManagementNetwork
import Kepryx.RateBuckets
import Kepryx.Runs

/-!
# Rate limiting

A dependency counts the requests of each client under a key of Redis: `INCR`, then `EXPIRE` by
the request that found no counter, then `TTL` where the limit is exceeded. The commands of
different requests interleave, a command can fail before or after it takes effect, and a process
can stop between two commands.
-/
namespace Kepryx.RateLimit

open Kepryx.IpNetworks Kepryx.ManagementNetwork Kepryx.ExpiringCounters Kepryx.RateBuckets
open Kepryx.Runs

/-! ## The dependency -/

/-- `per_user_rate_limit` or `per_ip_rate_limit` -/
inductive Kind where
  | perUser | perIp
  deriving DecidableEq, Repr

/-- The arguments of a rate limit; every use of one allows some requests. -/
structure Dependency where
  kind : Kind
  key : String
  limit : ℕ
  windowSeconds : ℕ
  limit_pos : 0 < limit

/-- What a request tells about its client: `str(request.state.user.id)` and its origin. -/
structure Client where
  user : Option String
  origin : Origin
  deriving DecidableEq, Repr

variable (T : Texts) (boundary : Boundary) (d : Dependency)

/-- `bucket_key` -/
def bucketKey (c : Client) : String :=
  match d.kind with
  | .perUser =>
    "ratelimit:" ++ d.key ++ ":" ++ c.user.getD (getRequestIp T boundary c.origin)
  | .perIp => "ratelimit:ip:" ++ d.key ++ ":" ++ getRequestIp T boundary c.origin

inductive Detail where
  | text (s : String)
  | number (n : ℤ)
  deriving DecidableEq, Repr

/-- An `HTTPException` with its detail and headers. -/
structure Refusal where
  status : ℕ
  detail : List (String × Detail)
  headers : List (String × String) := []
  deriving DecidableEq, Repr

def tooManyRequests (ttl : ℤ) : Refusal where
  status := 429
  detail := match d.kind with
    | .perUser => [("error", .text "rate_limit_exceeded"), ("key", .text d.key),
        ("limit", .number d.limit), ("window_seconds", .number d.windowSeconds),
        ("retry_after_seconds", .number ttl)]
    | .perIp => [("error", .text "ip_rate_limit"), ("retry_after", .number ttl)]
  headers := [("Retry-After", toString ttl)]

def serviceUnavailable : Refusal where
  status := 503
  detail := [("error", .text "rate_limit_service_unavailable")]

/-! ## Requests in flight -/

/-- The command that a request sends next, or how it ended. -/
inductive Phase where
  | incr
  | expire
  | ttl
  | admitted
  | refused (refusal : Refusal)
  | stopped
  deriving DecidableEq, Repr

def Phase.ended : Phase → Bool
  | .admitted | .refused _ | .stopped => true
  | _ => false

structure Request where
  bucket : String
  phase : Phase
  deriving DecidableEq, Repr

structure State where
  now : ℕ
  store : Counters String
  requests : List Request

/-- `if count > limit` -/
def check (count : ℕ) : Phase := if d.limit < count then .ttl else .admitted

/-- What follows the answer of `INCR`. -/
def counted (count : ℕ) : Phase := if count = 1 then .expire else check d count

/-- The effect of the command that the request sends. -/
def effect (s : State) (r : Request) : Counters String :=
  match r.phase with
  | .incr => s.store.incr s.now r.bucket
  | .expire => s.store.expire s.now r.bucket d.windowSeconds
  | _ => s.store

/-- What the request does with the answer; the one that sets the expiry has counted one. -/
def answered (s : State) (r : Request) : Phase :=
  match r.phase with
  | .incr => counted d (s.store.incremented s.now r.bucket).value
  | .expire => check d 1
  | .ttl => .refused (tooManyRequests d (s.store.ttl s.now r.bucket))
  | phase => phase

/-- A command is answered, or it raises after or before it has taken effect. -/
inductive Fate where
  | answered | lost | failed
  deriving DecidableEq, Repr

/-- A request arrives, the request at a position sends its next command, the process of one
stops, or time passes. -/
inductive Event where
  | arrive (client : Client)
  | command (n : ℕ) (fate : Fate)
  | stop (n : ℕ)
  | tick (ms : ℕ)
  deriving DecidableEq, Repr

/-- The request at a position, unless it has ended. -/
def State.inFlight (s : State) (n : ℕ) : Option Request :=
  s.requests[n]?.filter fun r => !r.phase.ended

def State.move (s : State) (n : ℕ) (r : Request) (phase : Phase) : State :=
  { s with requests := s.requests.set n { r with phase := phase } }

def step (s : State) : Event → State
  | .arrive client => { s with requests := s.requests ++ [⟨bucketKey T boundary d client, .incr⟩] }
  | .command n fate =>
    match s.inFlight n with
    | none => s
    | some r =>
      match fate with
      | .answered => { s with store := effect d s r }.move n r (answered d s r)
      | .lost => { s with store := effect d s r }.move n r (.refused serviceUnavailable)
      | .failed => s.move n r (.refused serviceUnavailable)
  | .stop n =>
    match s.inFlight n with
    | none => s
    | some r => s.move n r .stopped
  | .tick ms => { s with now := s.now + ms }

/-- Whether a request that creates a counter goes on to give it an expiry: the answer of that
`INCR` is not lost, and neither a failure nor a stop keeps the `EXPIRE` from taking effect. -/
def KeepsExpiry (s : State) : Event → Prop
  | .command n fate =>
    ∀ r ∈ s.inFlight n, (r.phase = .incr → s.store.get s.now r.bucket = none → fate ≠ .lost) ∧
      (r.phase = .expire → fate ≠ .failed)
  | .stop n => ∀ r ∈ s.inFlight n, r.phase ≠ .expire
  | _ => True

instance (s : State) : (e : Event) → Decidable (KeepsExpiry s e)
  | .command n fate => inferInstanceAs (Decidable (∀ r ∈ s.inFlight n,
      (r.phase = .incr → s.store.get s.now r.bucket = none → fate ≠ .lost) ∧
        (r.phase = .expire → fate ≠ .failed)))
  | .stop n => inferInstanceAs (Decidable (∀ r ∈ s.inFlight n, _ ≠ _))
  | .arrive _ => isTrue trivial
  | .tick _ => isTrue trivial

/-! ## The lifetimes of the counters -/

/-- The state with the number of counters that each key has had, and under each key the lifetime
of every request that was admitted. -/
structure Tracked where
  state : State
  created : String → ℕ
  admitted : String → List ℕ

/-- The key for which an event creates a counter. -/
def creates (s : State) : Event → Option String
  | .command n fate =>
    match s.inFlight n with
    | some r =>
      if r.phase = .incr ∧ fate ≠ .failed ∧ s.store.get s.now r.bucket = none then some r.bucket
      else none
    | none => none
  | _ => none

/-- The key under which an event admits a request. -/
def admits (s : State) : Event → Option String
  | .command n .answered =>
    match s.inFlight n with
    | some r => if answered d s r = .admitted then some r.bucket else none
    | none => none
  | _ => none

def track (t : Tracked) (e : Event) : Tracked where
  state := step T boundary d t.state e
  created := match creates t.state e with
    | some k => Function.update t.created k (t.created k + 1)
    | none => t.created
  admitted := match admits d t.state e with
    | some k => Function.update t.admitted k (t.admitted k ++ [t.created k])
    | none => t.admitted

def start (now : ℕ) : Tracked := ⟨⟨now, fun _ => none, []⟩, fun _ => 0, fun _ => []⟩

/-! ## Each key is a bucket -/

/-- A request that is about to set the expiry of the key. -/
def awaits (k : String) (r : Request) : Bool := r.bucket = k && r.phase = .expire

def State.pending (s : State) (k : String) : ℕ := s.requests.countP (awaits k)

/-- What happens under one key. -/
def view (t : Tracked) (k : String) : Bucket where
  now := t.state.now
  stored := t.state.store k
  pending := t.state.pending k
  lifetime := t.created k
  admitted := t.admitted k

section Refinement
variable {T boundary d}

theorem inFlight_eq_some {s : State} {n : ℕ} {r : Request} :
    s.inFlight n = some r ↔ s.requests[n]? = some r ∧ r.phase.ended = false := by
  simp [State.inFlight, Option.filter_eq_some_iff]

/-- A request moves from one phase to another. -/
theorem pending_move {s : State} {n : ℕ} {r : Request} (h : s.inFlight n = some r)
    (phase : Phase) (k : String) :
    (s.move n r phase).pending k + (if awaits k r then 1 else 0) =
      s.pending k + if awaits k { r with phase := phase } then 1 else 0 := by
  obtain ⟨hget, -⟩ := inFlight_eq_some.mp h
  obtain ⟨hn, hr⟩ := List.getElem?_eq_some_iff.mp hget
  have hle := List.boole_getElem_le_countP (p := awaits k) (l := s.requests) (i := n) hn
  simp only [State.pending, State.move]
  rw [List.countP_set hn, hr] at *
  omega

theorem pending_move_of_ne {s : State} {n : ℕ} {r : Request} (h : s.inFlight n = some r)
    (phase : Phase) {k : String} (hk : k ≠ r.bucket) :
    (s.move n r phase).pending k = s.pending k := by
  have hmove := pending_move h phase k
  simpa [awaits, Ne.symm hk] using hmove

theorem check_one : check d 1 = .admitted := by
  have hlimit := d.limit_pos
  simp [check, Nat.not_lt.mpr hlimit]

/-- An event that leaves a bucket as it is. -/
theorem step_of_eq {limit window : ℕ} {kept : Prop} {b b' : Bucket} (h : b' = b) :
    b.Step limit window kept b' := h ▸ Bucket.Step.wait 0

theorem effect_of_ne {s : State} {r : Request} {k : String} (hk : k ≠ r.bucket) :
    effect d s r k = s.store k := by
  obtain ⟨bucket, phase⟩ := r
  cases phase with
  | incr => exact Counters.incr_of_ne hk
  | expire => exact Counters.expire_of_ne hk
  | ttl | admitted | refused | stopped => rfl

/-- The store and the phase that a command leaves. -/
def outcome (d : Dependency) (s : State) (r : Request) : Fate → Counters String × Phase
  | .answered => (effect d s r, answered d s r)
  | .lost => (effect d s r, .refused serviceUnavailable)
  | .failed => (s.store, .refused serviceUnavailable)

theorem step_command {s : State} {n : ℕ} {r : Request} (h : s.inFlight n = some r) (fate : Fate) :
    step T boundary d s (.command n fate) =
      { s with store := (outcome d s r fate).1 }.move n r (outcome d s r fate).2 := by
  cases fate with
  | answered => simp only [step, h, outcome]
  | lost => simp only [step, h, outcome]
  | failed => simp only [step, h, outcome]

/-- What a command leaves of a bucket, its own or another. -/
theorem view_command {t : Tracked} {n : ℕ} {r : Request} (h : t.state.inFlight n = some r)
    (fate : Fate) (k : String) :
    view (track T boundary d t (.command n fate)) k =
      { now := t.state.now
        stored := (outcome d t.state r fate).1 k
        pending := (t.state.move n r (outcome d t.state r fate).2).pending k
        lifetime := (track T boundary d t (.command n fate)).created k
        admitted := (track T boundary d t (.command n fate)).admitted k } := by
  unfold view
  simp only [track, step_command h]
  rfl

theorem refines_command_of_ne {t : Tracked} {n : ℕ} {r : Request}
    (h : t.state.inFlight n = some r) (fate : Fate) {k : String} (hk : k ≠ r.bucket) :
    view (track T boundary d t (.command n fate)) k = view t k := by
  have hstored : (outcome d t.state r fate).1 k = t.state.store k := by
    cases fate with
    | answered => exact effect_of_ne hk
    | lost => exact effect_of_ne hk
    | failed => rfl
  have hcreated : (track T boundary d t (.command n fate)).created k = t.created k := by
    simp only [track, creates, h]
    split_ifs
    · exact Function.update_of_ne hk ..
    · rfl
  have hadmitted : (track T boundary d t (.command n fate)).admitted k = t.admitted k := by
    cases fate with
    | answered =>
      simp only [track, admits, h]
      split_ifs
      · exact Function.update_of_ne hk ..
      · rfl
    | lost => rfl
    | failed => rfl
  rw [view_command h, hstored, hcreated, hadmitted, pending_move_of_ne h _ hk]
  rfl

theorem pending_incr {s : State} {n : ℕ} {k : String} (h : s.inFlight n = some ⟨k, .incr⟩)
    (phase : Phase) :
    (s.move n ⟨k, .incr⟩ phase).pending k = s.pending k + if phase = .expire then 1 else 0 := by
  have hmove := pending_move h phase k
  simpa [awaits] using hmove

/-- A move between phases in which no expiry is awaited. -/
theorem pending_move_of_not {s : State} {n : ℕ} {r : Request} (h : s.inFlight n = some r)
    {phase : Phase} {k : String} (hr : awaits k r = false) (hphase : phase ≠ .expire) :
    (s.move n r phase).pending k = s.pending k := by
  have hmove := pending_move h phase k
  simpa [awaits, hphase, show ¬ (r.bucket = k ∧ r.phase = .expire) by simpa [awaits] using hr]
    using hmove

theorem pending_pos {s : State} {n : ℕ} {k : String} (h : s.inFlight n = some ⟨k, .expire⟩) :
    0 < s.pending k := by
  obtain ⟨hget, -⟩ := inFlight_eq_some.mp h
  exact List.countP_pos_iff.mpr ⟨_, List.mem_of_getElem? hget, by simp [awaits]⟩

theorem pending_expire {s : State} {n : ℕ} {k : String} (h : s.inFlight n = some ⟨k, .expire⟩)
    {phase : Phase} (hphase : phase ≠ .expire) :
    (s.move n ⟨k, .expire⟩ phase).pending k = s.pending k - 1 := by
  have hmove := pending_move h phase k
  have hnext : (s.move n ⟨k, .expire⟩ phase).pending k + 1 = s.pending k := by
    simpa [awaits, hphase] using hmove
  omega

/-- `INCR` of a key that is not there. -/
theorem refines_create {t : Tracked} {n : ℕ} {k : String}
    (h : t.state.inFlight n = some ⟨k, .incr⟩) (hdead : t.state.store.get t.state.now k = none)
    (fate : Fate) :
    (view t k).Step d.limit d.windowSeconds (KeepsExpiry t.state (.command n fate))
      (view (track T boundary d t (.command n fate)) k) := by
  have hone := Counters.incremented_of_none hdead
  have hanswer : answered d t.state ⟨k, .incr⟩ = .expire := by simp [answered, counted, hone]
  have hstored : t.state.store.incr t.state.now k k = some ⟨1, none⟩ := by
    rw [Counters.incr_self, hone]
  cases fate with
  | answered =>
    have hview : view (track T boundary d t (.command n .answered)) k =
        { view t k with
          stored := some ⟨1, none⟩
          pending := (view t k).pending + 1
          lifetime := (view t k).lifetime + 1 } := by
      rw [view_command h]
      simp [outcome, hanswer, effect, hstored, pending_incr h, track, creates, admits, h, hdead,
        view]
    rw [hview]
    exact .create hdead
  | lost =>
    have hview : view (track T boundary d t (.command n .lost)) k =
        { view t k with
          stored := some ⟨1, none⟩
          lifetime := (view t k).lifetime + 1 } := by
      rw [view_command h]
      simp [outcome, effect, hstored, pending_incr h, track, creates, admits, h, hdead, view]
    rw [hview]
    refine .createLost (fun hkept => ?_) hdead
    exact (hkept _ h).1 rfl hdead rfl
  | failed =>
    apply step_of_eq
    rw [view_command h]
    simp [outcome, pending_incr h, track, creates, admits, h, view]

/-- `INCR` of a key that is there. -/
theorem refines_count {t : Tracked} {n : ℕ} {k : String}
    (h : t.state.inFlight n = some ⟨k, .incr⟩) {c : Counter}
    (hlive : t.state.store.get t.state.now k = some c) (hpositive : 0 < c.value) (fate : Fate) :
    (view t k).Step d.limit d.windowSeconds (KeepsExpiry t.state (.command n fate))
      (view (track T boundary d t (.command n fate)) k) := by
  have hnext := Counters.incremented_of_some hlive
  have hanswer : answered d t.state ⟨k, .incr⟩ = check d (c.value + 1) := by
    simp only [answered, counted, hnext]
    rw [if_neg (by omega)]
  have hstored : t.state.store.incr t.state.now k k = some ⟨c.value + 1, c.expiresAt⟩ := by
    rw [Counters.incr_self, hnext]
  cases fate with
  | answered =>
    by_cases hover : d.limit < c.value + 1
    · have hview : view (track T boundary d t (.command n .answered)) k =
          { view t k with stored := some ⟨c.value + 1, c.expiresAt⟩ } := by
        rw [view_command h]
        simp [outcome, hanswer, check, hover, effect, hstored, pending_incr h, track, creates,
          admits, h, hlive, view]
      rw [hview]
      exact .count c hlive
    · have hview : view (track T boundary d t (.command n .answered)) k =
          { view t k with
            stored := some ⟨c.value + 1, c.expiresAt⟩
            admitted := (view t k).admitted ++ [(view t k).lifetime] } := by
        rw [view_command h]
        simp [outcome, hanswer, check, hover, effect, hstored, pending_incr h, track, creates,
          admits, h, hlive, view]
      rw [hview]
      exact .accept c hlive (Nat.le_of_not_lt hover)
  | lost =>
    have hview : view (track T boundary d t (.command n .lost)) k =
        { view t k with stored := some ⟨c.value + 1, c.expiresAt⟩ } := by
      rw [view_command h]
      simp [outcome, effect, hstored, pending_incr h, track, creates, admits, h, hlive, view]
    rw [hview]
    exact .count c hlive
  | failed =>
    apply step_of_eq
    rw [view_command h]
    simp [outcome, pending_incr h, track, creates, admits, h, view]

/-- `EXPIRE` by the request that created the counter. -/
theorem refines_expire {t : Tracked} {n : ℕ} {k : String}
    (h : t.state.inFlight n = some ⟨k, .expire⟩)
    (hsound : Bucket.Sound d.limit d.windowSeconds (view t k)) (fate : Fate) :
    (view t k).Step d.limit d.windowSeconds (KeepsExpiry t.state (.command n fate))
      (view (track T boundary d t (.command n fate)) k) := by
  have hpending : 0 < (view t k).pending := pending_pos h
  obtain ⟨c, hlive, -⟩ := hsound.pending hpending
  have hstored : t.state.store.expire t.state.now k d.windowSeconds k =
      some ⟨c.value, some (t.state.now + 1000 * d.windowSeconds)⟩ := Counters.expire_of_some hlive
  cases fate with
  | answered =>
    have hview : view (track T boundary d t (.command n .answered)) k =
        { view t k with
          stored := some ⟨c.value, some ((view t k).now + 1000 * d.windowSeconds)⟩
          pending := (view t k).pending - 1
          admitted := (view t k).admitted ++ [(view t k).lifetime] } := by
      rw [view_command h]
      simp [outcome, answered, check_one, effect, hstored, pending_expire h, track, creates, admits,
        h, view]
    rw [hview]
    exact .expireAdmit c hpending hlive
  | lost =>
    have hview : view (track T boundary d t (.command n .lost)) k =
        { view t k with
          stored := some ⟨c.value, some ((view t k).now + 1000 * d.windowSeconds)⟩
          pending := (view t k).pending - 1 } := by
      rw [view_command h]
      simp [outcome, effect, hstored, pending_expire h, track, creates, admits, h, view]
    rw [hview]
    exact .expire c hpending hlive
  | failed =>
    have hview : view (track T boundary d t (.command n .failed)) k =
        { view t k with pending := (view t k).pending - 1 } := by
      rw [view_command h]
      simp [outcome, pending_expire h, track, creates, admits, h, view]
    rw [hview]
    refine .giveUp (fun hkept => ?_) hpending
    exact (hkept _ h).2 rfl rfl

/-- Every event is, for every key, a step of its bucket. -/
theorem track_refines {t : Tracked}
    (hsound : ∀ k, Bucket.Sound d.limit d.windowSeconds (view t k)) (e : Event) (k : String) :
    (view t k).Step d.limit d.windowSeconds (KeepsExpiry t.state e)
      (view (track T boundary d t e) k) := by
  cases e with
  | arrive client =>
    apply step_of_eq
    simp [view, track, step, creates, admits, State.pending, awaits]
  | tick ms => exact .wait ms
  | stop n =>
    cases h : t.state.inFlight n with
    | none =>
      apply step_of_eq
      simp [view, track, step, creates, admits, h]
    | some r =>
      have hview : view (track T boundary d t (.stop n)) k =
          { view t k with pending := (t.state.move n r .stopped).pending k } := by
        simp only [view, track, step, creates, admits, h]
        rfl
      rw [hview]
      by_cases hwait : awaits k r
      · obtain ⟨bucket, phase⟩ := r
        obtain ⟨rfl, rfl⟩ : bucket = k ∧ phase = .expire := by simpa [awaits] using hwait
        rw [pending_expire h (by simp)]
        exact .giveUp (fun hkept => hkept _ h rfl) (pending_pos h)
      · rw [pending_move_of_not h (by simpa using hwait) (by simp)]
        exact step_of_eq rfl
  | command n fate =>
    cases h : t.state.inFlight n with
    | none =>
      apply step_of_eq
      cases fate with
      | answered | lost | failed => simp [view, track, step, creates, admits, h]
    | some r =>
      by_cases hk : k = r.bucket
      · subst hk
        obtain ⟨bucket, phase⟩ := r
        cases phase with
        | incr =>
          cases hlive : t.state.store.get t.state.now bucket with
          | none => exact refines_create h hlive fate
          | some c =>
            have hstored := (Counters.get_eq_some.mp hlive).1
            exact refines_count h hlive ((hsound bucket).positive c hstored) fate
        | expire => exact refines_expire h (hsound bucket) fate
        | ttl =>
          apply step_of_eq
          rw [view_command h]
          cases fate with
          | answered | lost | failed =>
            simp [outcome, answered, effect, pending_move_of_not h, awaits, track, creates, admits,
              h, view]
        | admitted => exact absurd (inFlight_eq_some.mp h).2 (by simp [Phase.ended])
        | refused refusal => exact absurd (inFlight_eq_some.mp h).2 (by simp [Phase.ended])
        | stopped => exact absurd (inFlight_eq_some.mp h).2 (by simp [Phase.ended])
      · exact step_of_eq (refines_command_of_ne h fate hk)

/-! ## Runs -/

theorem sound_start (now : ℕ) (k : String) :
    Bucket.Sound d.limit d.windowSeconds (view (start now) k) := by
  refine ⟨?_, Nat.zero_le _, ?_, Nat.zero_le _, ?_, fun _ => Nat.zero_le _, fun _ _ => rfl, ?_⟩
  · intro c hc
    cases hc
  · intro hp
    cases hp
  · intro c hc
    cases hc
  · intro c e hc
    cases hc

theorem sound_track {t : Tracked}
    (h : ∀ k, Bucket.Sound d.limit d.windowSeconds (view t k)) (e : Event) (k : String) :
    Bucket.Sound d.limit d.windowSeconds (view (track T boundary d t e) k) :=
  (h k).step d.limit_pos (track_refines h e k)

/-- Whatever commands fail and whatever processes stop, no lifetime of a counter admits more than
the limit. -/
theorem admitted_le_limit (now : ℕ) (events : List Event) (k : String) (lifetime : ℕ) :
    ((run (track T boundary d) (start now) events).admitted k).count lifetime ≤ d.limit := by
  have hsound : ∀ k, Bucket.Sound d.limit d.windowSeconds
      (view (run (track T boundary d) (start now) events) k) :=
    run_invariant (fun t => ∀ k, Bucket.Sound d.limit d.windowSeconds (view t k))
      (fun t e h k => sound_track h e k) (sound_start now) events
  exact (hsound k).past lifetime

end Refinement

/-! ## Recovery -/

/-- All requests under the key have ended. -/
def Idle (k : String) (s : State) : Prop := ∀ r ∈ s.requests, r.bucket = k → r.phase.ended = true

/-- The time that passes in a run. -/
def elapsed : List Event → ℕ
  | [] => 0
  | .tick ms :: events => ms + elapsed events
  | _ :: events => elapsed events

/-- A new request of the client, with an answer to each of its two commands. -/
def attempt (s : State) (client : Client) : State :=
  run (step T boundary d) s [.arrive client, .command s.requests.length .answered,
    .command s.requests.length .answered]

/-- How that request ends. -/
def verdict (s : State) (client : Client) : Option Phase :=
  ((attempt T boundary d s client).requests[s.requests.length]?).map Request.phase

section Recovery
variable {T boundary d}

theorem inFlight_append {s : State} {k : String} {phase : Phase} (h : phase.ended = false) :
    ({ s with requests := s.requests ++ [⟨k, phase⟩] } : State).inFlight s.requests.length =
      some ⟨k, phase⟩ :=
  inFlight_eq_some.mpr ⟨by simp, h⟩

/-- The commands of a request that is the last to have arrived. -/
theorem step_last (s : State) (k : String) {phase : Phase} (h : phase.ended = false) :
    step T boundary d { s with requests := s.requests ++ [⟨k, phase⟩] }
        (.command s.requests.length .answered) =
      { s with
        store := effect d s ⟨k, phase⟩
        requests := s.requests ++ [⟨k, answered d s ⟨k, phase⟩⟩] } := by
  rw [step_command (inFlight_append h)]
  simp [outcome, State.move, effect, answered]

/-- The two commands of a new request, one after the other. -/
theorem verdict_eq (s : State) (client : Client) {k : String} {phase : Phase}
    (hk : bucketKey T boundary d client = k) (hphase : phase.ended = false)
    (hfirst : answered d s ⟨k, .incr⟩ = phase) :
    verdict T boundary d s client =
      some (answered d { s with store := s.store.incr s.now k } ⟨k, phase⟩) := by
  have hsecond := @step_last T boundary d { s with store := s.store.incr s.now k } k phase hphase
  have harrive : step T boundary d s (.arrive client) =
      { s with requests := s.requests ++ [⟨k, .incr⟩] } := by rw [step, hk]
  simp only [verdict, attempt, run_cons, run_nil]
  rw [harrive, step_last s k rfl, hfirst]
  simp only [effect]
  rw [hsecond]
  simp

/-- Without a counter the next request is admitted. -/
theorem verdict_of_dead {s : State} {client : Client}
    (hdead : s.store.get s.now (bucketKey T boundary d client) = none) :
    verdict T boundary d s client = some .admitted := by
  have hone := Counters.incremented_of_none hdead
  have hfirst : answered d s ⟨bucketKey T boundary d client, .incr⟩ = .expire := by
    simp [answered, counted, hone]
  rw [verdict_eq s client rfl rfl hfirst]
  simp only [answered, check_one]

/-- A counter at the limit that has no expiry refuses the next request. -/
theorem verdict_of_blocked {s : State} {client : Client} {v : ℕ}
    (hstored : s.store (bucketKey T boundary d client) = some ⟨v, none⟩) (hv : d.limit ≤ v) :
    verdict T boundary d s client = some (.refused (tooManyRequests d (-1))) := by
  have hlimit := d.limit_pos
  have hlive : s.store.get s.now (bucketKey T boundary d client) = some ⟨v, none⟩ :=
    Counters.get_eq_some.mpr ⟨hstored, fun e he => by cases he⟩
  have hnext := Counters.incremented_of_some hlive
  have hfirst : answered d s ⟨bucketKey T boundary d client, .incr⟩ = .ttl := by
    simp only [answered, counted, hnext, check]
    rw [if_neg (by omega), if_pos (by omega)]
  have hafter : (s.store.incr s.now (bucketKey T boundary d client)).get s.now
      (bucketKey T boundary d client) = some ⟨v + 1, none⟩ := by
    refine Counters.get_eq_some.mpr ⟨?_, fun e he => by cases he⟩
    rw [Counters.incr_self, hnext]
  rw [verdict_eq s client rfl rfl hfirst]
  simp only [answered, Counters.ttl, hafter]

/-! ## A client that stops sending -/

theorem pending_of_idle {s : State} {k : String} (h : Idle k s) : s.pending k = 0 := by
  refine List.countP_eq_zero.mpr fun r hr hwait => ?_
  obtain ⟨hk, hphase⟩ : r.bucket = k ∧ r.phase = .expire := by simpa [awaits] using hwait
  have hended := h r hr hk
  rw [hphase] at hended
  cases hended

/-- While the client sends nothing, its counter is left alone. -/
theorem step_idle {s : State} {k : String} (h : Idle k s) (e : Event)
    (hquiet : ∀ c, e = .arrive c → bucketKey T boundary d c ≠ k) :
    Idle k (step T boundary d s e) ∧ (step T boundary d s e).store k = s.store k := by
  have hmove : ∀ {n : ℕ} {r : Request} (store : Counters String) (phase : Phase),
      s.inFlight n = some r → (r.bucket = k → False) ∧
        Idle k ({ s with store := store }.move n r phase) := by
    intro n r store phase hr
    obtain ⟨hget, hopen⟩ := inFlight_eq_some.mp hr
    have hother : r.bucket = k → False := by
      intro hk
      rw [h r (List.mem_of_getElem? hget) hk] at hopen
      cases hopen
    refine ⟨hother, fun q hq hk => ?_⟩
    rcases List.mem_or_eq_of_mem_set hq with hq | rfl
    · exact h q hq hk
    · exact (hother hk).elim
  cases e with
  | arrive client =>
    refine ⟨fun r hr hk => ?_, rfl⟩
    rcases List.mem_append.mp hr with hr | hr
    · exact h r hr hk
    · rw [List.mem_singleton.mp hr] at hk
      exact absurd hk (hquiet client rfl)
  | tick ms => exact ⟨h, rfl⟩
  | stop n =>
    cases hr : s.inFlight n with
    | none =>
      simp only [step, hr]
      exact ⟨h, trivial⟩
    | some r =>
      simp only [step, hr]
      exact ⟨(hmove s.store .stopped hr).2, rfl⟩
  | command n fate =>
    cases hr : s.inFlight n with
    | none =>
      simp only [step, hr]
      exact ⟨h, trivial⟩
    | some r =>
      rw [step_command hr]
      refine ⟨(hmove _ _ hr).2, ?_⟩
      have hk : k ≠ r.bucket := fun hk => (hmove s.store .stopped hr).1 hk.symm
      cases fate with
      | answered => exact effect_of_ne hk
      | lost => exact effect_of_ne hk
      | failed => rfl

theorem step_now (s : State) (e : Event) :
    (step T boundary d s e).now = s.now + elapsed [e] := by
  cases e with
  | arrive client => rfl
  | tick ms => rfl
  | stop n =>
    cases hr : s.inFlight n with
    | none => simp only [step, hr, elapsed, Nat.add_zero]
    | some r => simp only [step, hr, elapsed, Nat.add_zero, State.move]
  | command n fate =>
    cases hr : s.inFlight n with
    | none => simp only [step, hr, elapsed, Nat.add_zero]
    | some r => simp only [step_command hr, elapsed, Nat.add_zero, State.move]

theorem run_idle {k : String} {events : List Event}
    (hquiet : ∀ c, .arrive c ∈ events → bucketKey T boundary d c ≠ k) {s : State} (h : Idle k s) :
    (run (step T boundary d) s events).store k = s.store k ∧
      (run (step T boundary d) s events).now = s.now + elapsed events := by
  induction events generalizing s with
  | nil => exact ⟨rfl, rfl⟩
  | cons e events ih =>
    obtain ⟨hidle, hstore⟩ := step_idle h e fun c hc => hquiet c (hc ▸ List.mem_cons_self)
    obtain ⟨hstore', hnow⟩ := ih (fun c hc => hquiet c (List.mem_cons_of_mem e hc)) hidle
    refine ⟨hstore'.trans hstore, ?_⟩
    rw [run_cons, hnow, step_now, Nat.add_assoc]
    cases e <;> simp [elapsed]

/-- What a rate limit promises in a state that was reached. -/
structure Limits (T : Texts) (boundary : Boundary) (d : Dependency) (t : Tracked) : Prop where
  admitted : ∀ k lifetime, (t.admitted k).count lifetime ≤ d.limit
  expiry : ∀ k c, t.state.store.get t.state.now k = some c → c.expiresAt = none →
    ∃ r ∈ t.state.requests, r.bucket = k ∧ r.phase = .expire
  recovers : ∀ client later, Idle (bucketKey T boundary d client) t.state →
    (∀ c, .arrive c ∈ later → bucketKey T boundary d c ≠ bucketKey T boundary d client) →
    1000 * d.windowSeconds ≤ elapsed later →
    verdict T boundary d (run (step T boundary d) t.state later) client = some .admitted

theorem limits_of_sound {t : Tracked}
    (hsound : ∀ k, Bucket.Sound d.limit d.windowSeconds (view t k))
    (hbounded : ∀ k, (view t k).Bounded) : Limits T boundary d t := by
  refine ⟨fun k lifetime => (hsound k).past lifetime, fun k c hlive hnone => ?_,
    fun client later hidle hquiet hlong => ?_⟩
  · have hpending : 0 < t.state.pending k := hbounded k c hlive hnone
    obtain ⟨r, hr, hwait⟩ := List.countP_pos_iff.mp hpending
    obtain ⟨hk, hphase⟩ : r.bucket = k ∧ r.phase = .expire := by simpa [awaits] using hwait
    exact ⟨r, hr, hk, hphase⟩
  · obtain ⟨hstore, hnow⟩ := run_idle hquiet hidle
    apply verdict_of_dead
    cases hget : Counters.get _ _ _ with
    | none => rfl
    | some c =>
      -- the counter was there when the client stopped, and its expiry has passed
      obtain ⟨hstored, hlive⟩ := Counters.get_eq_some.mp hget
      rw [hstore] at hstored
      have hbefore : (view t (bucketKey T boundary d client)).live = some c := by
        refine Bucket.live_eq_some.mpr ⟨hstored, fun e he => ?_⟩
        have hlater := hlive e he
        rw [hnow] at hlater
        exact Nat.lt_of_le_of_lt (Nat.le_add_right _ _) hlater
      obtain ⟨e, he, hle⟩ := (hsound _).expires (hbounded _) (pending_of_idle hidle) hbefore
      have hlater := hlive e he
      have hbound : e ≤ t.state.now + 1000 * d.windowSeconds := hle
      omega

/-- Along every run in which a request that creates a counter goes on to give it an expiry, no
lifetime of a counter admits more than the limit, a counter without an expiry has a request that is
about to set it, and a client that stops sending is admitted again after the window. -/
theorem rate_limit_holds (T : Texts) (boundary : Boundary) (d : Dependency) (now : ℕ)
    (events : List Event)
    (hkept : Along (track T boundary d) (fun t e => KeepsExpiry t.state e) (start now) events) :
    Always (track T boundary d) (Limits T boundary d) (start now) events := by
  have hstart : ∀ k, (view (start now) k).Bounded := by
    intro k c hc
    cases (Bucket.live_eq_some.mp hc).1
  have halways := always_of_along
    (I := fun t => ∀ k, Bucket.Sound d.limit d.windowSeconds (view t k) ∧ (view t k).Bounded)
    (fun t e h hc k => ⟨sound_track (fun k => (h k).1) e k,
      (h k).2.step hc (track_refines (fun k => (h k).1) e k)⟩)
    (fun k => ⟨sound_start now k, hstart k⟩) hkept
  exact halways.mono fun t h => limits_of_sound (fun k => (h k).1) fun k => (h k).2

end Recovery

/-! ## The login route -/

/-- `per_ip_rate_limit("login", 10, 60)` -/
def loginLimit : Dependency := ⟨.perIp, "login", 10, 60, by decide⟩

def noProxies : Boundary := ⟨[], []⟩

/-- The texts of one address and one network. -/
def anyTexts : Texts :=
  .single "203.0.113.4" ⟨.v4, 3405803780, none, by decide⟩ "10.0.0.0/8" Network.privateBlock
    (by decide)

def visitor : Client := ⟨none, ⟨some "203.0.113.4", none, none⟩⟩

/-- Two visits, and a minute. -/
theorem rate_limit_holds_two :
    Always (track anyTexts noProxies loginLimit) (Limits anyTexts noProxies loginLimit) (start 0)
      [.arrive visitor, .arrive visitor, .command 1 .answered, .command 0 .answered,
        .command 1 .answered, .tick 60000] :=
  rate_limit_holds anyTexts noProxies loginLimit 0 _ (by decide +kernel)

/-- The process stops after the `INCR` of a first login; nine more logins are admitted. -/
def stoppedLogin : Tracked :=
  run (track anyTexts noProxies loginLimit) (start 0)
    ([.arrive visitor, .command 0 .answered, .stop 0] ++
      (List.range 9).flatMap fun n => [.arrive visitor, .command (n + 1) .answered])

/-- From then on the counter has no expiry, and however long the client waits, its next login is
refused. -/
theorem stopped_login_blocks :
    Idle "ratelimit:ip:login:203.0.113.4" stoppedLogin.state ∧
      (∀ ms, verdict anyTexts noProxies loginLimit
        (run (step anyTexts noProxies loginLimit) stoppedLogin.state [.tick ms]) visitor =
          some (.refused (tooManyRequests loginLimit (-1)))) ∧
      ¬ Limits anyTexts noProxies loginLimit stoppedLogin := by
  have hkey : bucketKey anyTexts noProxies loginLimit visitor =
      "ratelimit:ip:login:203.0.113.4" := by decide +kernel
  have hidle : Idle "ratelimit:ip:login:203.0.113.4" stoppedLogin.state := by
    unfold Idle
    decide +kernel
  have hblocked : ∀ ms, verdict anyTexts noProxies loginLimit
      (run (step anyTexts noProxies loginLimit) stoppedLogin.state [.tick ms]) visitor =
        some (.refused (tooManyRequests loginLimit (-1))) := by
    intro ms
    have hstored : stoppedLogin.state.store (bucketKey anyTexts noProxies loginLimit visitor) =
        some ⟨10, none⟩ := by decide +kernel
    exact verdict_of_blocked (v := 10) hstored (by decide)
  refine ⟨hidle, hblocked, fun h => ?_⟩
  have hrecovered := h.recovers visitor [.tick 60000] (hkey ▸ hidle) (by simp) (by decide)
  rw [hblocked 60000] at hrecovered
  cases hrecovered

end Kepryx.RateLimit
