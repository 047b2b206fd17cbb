import Kepryx.RateLimit

/-!
# Limits for each user

The bulk import and the AI ingest limit the requests of each user. The limiter takes the user
from `request.state`, which neither a dependency nor a middleware writes, so that it counts the
requests of each address.
-/
namespace Kepryx.UserLimits
open Kepryx.Accounts Kepryx.ExpiringCounters Kepryx.IpNetworks Kepryx.ManagementNetwork
open Kepryx.RateLimit Kepryx.Results Kepryx.Runs

/-! ## The dependencies of a route -/

/-- `request.state`, as far as the limiter reads it. -/
structure RequestState where
  user : Option Principal := none

/-- A dependency reads and writes `request.state`, or refuses the request. -/
abbrev Depends := StateT RequestState (Except HttpError)

/-- `str(request.state.user.id)`; the identifier of an `APIPrincipal` is `None`. -/
def idText : Principal → String
  | .user user => user.id
  | .service _ _ => "None"

/-- A request, and what its credentials stand for at the time. -/
structure Arrival where
  origin : Origin
  credentials : Credentials
  auth : Authentication

variable (T : Texts) (boundary : Boundary)

/-- `get_current_user`, on the token that `oauth2_scheme` finds. -/
def getCurrentUser (r : Arrival) : Depends User :=
  match r.credentials.bearer with
  | none => throw ⟨401, "Not authenticated"⟩
  | some token => StateT.lift (r.auth.jwtUser token)

/-- `require_analyst` -/
def requireAnalyst (r : Arrival) : Depends Principal := do
  let user ← getCurrentUser r
  let user ← StateT.lift (requireRole T boundary ["admin", "analyst"] false r.origin user)
  return .user user

inductive Route where
  | bulkImport | aiIngest
  deriving DecidableEq, Repr

/-- The argument of `per_user_rate_limit` on each route. -/
def Route.limit : Route → Dependency
  | .bulkImport => ⟨.perUser, "bulk_import", 3, 60, by decide⟩
  | .aiIngest => ⟨.perUser, "ai_ingest", 5, 60, by decide⟩

/-- `require_analyst`, or `require_scope("assets:write", "analyst")` -/
def Route.authenticate (r : Arrival) : Route → Depends Principal
  | .bulkImport => requireAnalyst T boundary r
  | .aiIngest => StateT.lift
      (requireScope T boundary r.auth "assets:write" ["analyst"] r.origin r.credentials)

/-- The client that the limiter sees: the user in `request.state`, and the origin. -/
def limited (r : Arrival) : Depends Client := do
  let state ← get
  return ⟨state.user.map idText, r.origin⟩

/-- The dependencies of a route, in their order. -/
def Route.dependencies (r : Arrival) (route : Route) : Depends (Principal × Client) := do
  let principal ← route.authenticate T boundary r
  let client ← limited r
  return (principal, client)

/-- The dependencies on the state that the middleware leaves, which has no user. -/
def Route.enter (r : Arrival) (route : Route) : Except HttpError (Principal × Client) :=
  (route.dependencies T boundary r).run' {}

section Enter
variable {T boundary}

theorem getCurrentUser_state {r : Arrival} {state state' : RequestState} {user : User}
    (h : (getCurrentUser r).run state = .ok (user, state')) : state' = state := by
  unfold getCurrentUser at h
  cases hbearer : r.credentials.bearer with
  | none =>
    rw [hbearer] at h
    cases h
  | some token =>
    rw [hbearer] at h
    obtain ⟨user', -, hpure⟩ := bind_eq_ok.mp h
    cases hpure
    rfl

/-- Authentication leaves `request.state` as it is. -/
theorem authenticate_state {r : Arrival} {route : Route} {state state' : RequestState}
    {p : Principal} (h : (route.authenticate T boundary r).run state = .ok (p, state')) :
    state' = state := by
  cases route with
  | bulkImport =>
    obtain ⟨⟨user, s₁⟩, huser, hrest⟩ := bind_eq_ok.mp h
    obtain ⟨⟨user', s₂⟩, hrole, hpure⟩ := bind_eq_ok.mp hrest
    obtain ⟨user'', -, hlift⟩ := bind_eq_ok.mp hrole
    cases hlift
    cases hpure
    exact getCurrentUser_state huser
  | aiIngest =>
    obtain ⟨p', -, hpure⟩ := bind_eq_ok.mp h
    cases hpure
    rfl

/-- The limiter sees no user. -/
theorem enter_client {r : Arrival} {route : Route} {p : Principal} {client : Client}
    (h : route.enter T boundary r = .ok (p, client)) : client = ⟨none, r.origin⟩ := by
  unfold Route.enter StateT.run' at h
  obtain ⟨⟨⟨p', client'⟩, state⟩, hrun, hfst⟩ := bind_eq_ok.mp h
  obtain ⟨⟨p'', state'⟩, hauth, hrest⟩ := bind_eq_ok.mp hrun
  have hstate := authenticate_state hauth
  subst hstate
  cases hrest
  cases hfst
  rfl

end Enter

/-! ## Requests to the routes -/

/-- Who sends a request: a user, or an API token. -/
inductive Caller where
  | user (id : String)
  | token (id : String)
  deriving DecidableEq, Repr

def caller : Principal → Caller
  | .user user => .user user.id
  | .service _ tokenId => .token tokenId

/-- The counters, and the requests of each caller to each route. -/
structure Traffic where
  now : ℕ
  store : Counters String
  requests : Route × Caller → List RateLimit.Request

/-- A request arrives at a route, the request of a caller at a position sends its next command,
its process stops, or time passes. -/
inductive Event where
  | arrive (route : Route) (r : Arrival)
  | command (route : Route) (caller : Caller) (n : ℕ) (fate : Fate)
  | stop (route : Route) (caller : Caller) (n : ℕ)
  | tick (ms : ℕ)

/-- The requests of one caller to one route, beside the counters. -/
def Traffic.part (s : Traffic) (who : Route × Caller) : RateLimit.State :=
  ⟨s.now, s.store, s.requests who⟩

/-- A step of the limiter for a request of the caller. -/
def Traffic.serve (s : Traffic) (who : Route × Caller) (e : RateLimit.Event) : Traffic :=
  let part := RateLimit.step T boundary who.1.limit (s.part who) e
  ⟨part.now, part.store, Function.update s.requests who part.requests⟩

def step (s : Traffic) : Event → Traffic
  | .arrive route r =>
    match route.enter T boundary r with
    | .ok (p, client) => s.serve T boundary (route, caller p) (.arrive client)
    | .error _ => s
  | .command route caller n fate => s.serve T boundary (route, caller) (.command n fate)
  | .stop route caller n => s.serve T boundary (route, caller) (.stop n)
  | .tick ms => { s with now := s.now + ms }

def start (now : ℕ) : Traffic := ⟨now, fun _ => none, fun _ => []⟩

/-- Whose event it is; a request that is refused before the limiter is nobody's. -/
def sender : Event → Option Caller
  | .arrive route r => (route.enter T boundary r).toOption.map fun p => caller p.1
  | .command _ caller _ _ | .stop _ caller _ => some caller
  | .tick _ => none

/-- The events without those of a caller. -/
def without (c : Caller) (events : List Event) : List Event :=
  events.filter fun e => sender T boundary e ≠ some c

/-- A request that gets to the limiter. -/
structure Entry where
  route : Route
  caller : Caller
  address : String
  deriving DecidableEq, Repr

def entry : Event → Option Entry
  | .arrive route r => (route.enter T boundary r).toOption.map fun p =>
      ⟨route, caller p.1, getRequestIp T boundary r.origin⟩
  | _ => none

/-- On each route, two requests are of one caller exactly when they come from one address. -/
def OneAddressEach (events : List Event) : Prop :=
  ∀ e ∈ events, ∀ e' ∈ events, ∀ x ∈ entry T boundary e, ∀ x' ∈ entry T boundary e',
    x.route = x'.route → (x.caller = x'.caller ↔ x.address = x'.address)

/-- What a limit for each user means for the requests that have arrived. -/
structure PerUser (now : ℕ) (events : List Event) : Prop where
  /-- All requests of a caller to a route are counted together. -/
  together : ∀ route c, ∀ q ∈ (run (step T boundary) (start now) events).requests (route, c),
    ∀ q' ∈ (run (step T boundary) (start now) events).requests (route, c), q.bucket = q'.bucket
  /-- They are not counted with those of another caller. -/
  apart : ∀ route c c', c ≠ c' →
    ∀ q ∈ (run (step T boundary) (start now) events).requests (route, c),
    ∀ q' ∈ (run (step T boundary) (start now) events).requests (route, c'), q.bucket ≠ q'.bucket
  /-- How they end does not depend on the requests of another caller. -/
  independent : ∀ route c c', c ≠ c' →
    (run (step T boundary) (start now) events).requests (route, c) =
      (run (step T boundary) (start now) (without T boundary c' events)).requests (route, c)

variable {T boundary}

/-! ## Under which key a request is counted -/

/-- The key for an address. -/
def bucketOf (route : Route) (address : String) : String :=
  "ratelimit:" ++ route.limit.key ++ ":" ++ address

theorem bucketKey_eq (route : Route) (o : Origin) :
    bucketKey T boundary route.limit ⟨none, o⟩ = bucketOf route (getRequestIp T boundary o) := by
  cases route with
  | bulkImport => rfl
  | aiIngest => rfl

theorem bucketOf_inj {route route' : Route} {a a' : String} :
    bucketOf route a = bucketOf route' a' ↔ route = route' ∧ a = a' := by
  have hlist : ∀ r b, (bucketOf r b).toList =
      ("ratelimit:".toList ++ r.limit.key.toList ++ ":".toList) ++ b.toList := by
    intro r b
    simp only [bucketOf, String.toList_append]
  constructor
  · intro h
    have hchars := congrArg String.toList h
    rw [hlist, hlist] at hchars
    by_cases hroute : route = route'
    · subst hroute
      exact ⟨rfl, String.toList_injective (List.append_cancel_left hchars)⟩
    · -- the keys of the two routes differ in their first letter
      have hletter := congrArg (fun l => l[10]?) hchars
      cases route with
      | bulkImport =>
        cases route' with
        | bulkImport => exact absurd rfl hroute
        | aiIngest => simp [Route.limit] at hletter
      | aiIngest =>
        cases route' with
        | bulkImport => simp [Route.limit] at hletter
        | aiIngest => exact absurd rfl hroute
  · rintro ⟨rfl, rfl⟩
    rfl

section Limiter
variable {d : Dependency}

theorem move_buckets {s : RateLimit.State} {n : ℕ} {r : RateLimit.Request}
    (h : s.inFlight n = some r) (phase : Phase) :
    (s.move n r phase).requests.map (·.bucket) = s.requests.map (·.bucket) := by
  obtain ⟨hget, -⟩ := inFlight_eq_some.mp h
  apply List.ext_getElem?
  intro i
  simp only [State.move, List.getElem?_map, List.getElem?_set]
  by_cases hi : n = i
  · subst hi
    have hn : n < s.requests.length := (List.getElem?_eq_some_iff.mp hget).1
    rw [if_pos rfl, if_pos hn, hget]
    rfl
  · rw [if_neg hi]

/-- A request is counted under the key that it arrives with. -/
theorem step_buckets (s : RateLimit.State) (e : RateLimit.Event) :
    (RateLimit.step T boundary d s e).requests.map (·.bucket) =
      s.requests.map (·.bucket) ++ match e with
        | .arrive client => [bucketKey T boundary d client]
        | _ => [] := by
  cases e with
  | arrive client => simp only [RateLimit.step, List.map_append, List.map_cons, List.map_nil]
  | tick ms => simp only [RateLimit.step, List.append_nil]
  | stop n =>
    rw [List.append_nil]
    cases hr : s.inFlight n with
    | none => simp only [RateLimit.step, hr]
    | some r => simp only [RateLimit.step, hr, move_buckets hr]
  | command n fate =>
    rw [List.append_nil]
    cases hr : s.inFlight n with
    | none => simp only [RateLimit.step, hr]
    | some r =>
      rw [step_command hr]
      exact move_buckets hr _

theorem outcome_of_ne {s : RateLimit.State} {r : RateLimit.Request} {k : String}
    (hk : k ≠ r.bucket) (fate : Fate) : (outcome d s r fate).1 k = s.store k := by
  cases fate with
  | answered => exact effect_of_ne hk
  | lost => exact effect_of_ne hk
  | failed => rfl

theorem bucket_mem_of_inFlight {s : RateLimit.State} {n : ℕ} {r : RateLimit.Request}
    (h : s.inFlight n = some r) : r ∈ s.requests :=
  List.mem_of_getElem? (inFlight_eq_some.mp h).1

/-- A step leaves the counters alone under which no request is counted. -/
theorem step_store_of_ne {s : RateLimit.State} {k : String} (hk : ∀ r ∈ s.requests, r.bucket ≠ k)
    (e : RateLimit.Event) : (RateLimit.step T boundary d s e).store k = s.store k := by
  cases e with
  | arrive client => rfl
  | tick ms => rfl
  | stop n =>
    cases hr : s.inFlight n with
    | none => simp only [RateLimit.step, hr]
    | some r => simp only [RateLimit.step, hr, State.move]
  | command n fate =>
    cases hr : s.inFlight n with
    | none => simp only [RateLimit.step, hr]
    | some r =>
      have hne : k ≠ r.bucket := (hk r (bucket_mem_of_inFlight hr)).symm
      simpa only [step_command hr, State.move] using outcome_of_ne hne fate

/-- A command reads the counter of its own key. -/
theorem outcome_congr {s s' : RateLimit.State} {r : RateLimit.Request} (hnow : s.now = s'.now)
    (hstore : s.store r.bucket = s'.store r.bucket) (fate : Fate) :
    (outcome d s r fate).2 = (outcome d s' r fate).2 ∧
      (outcome d s r fate).1 r.bucket = (outcome d s' r fate).1 r.bucket := by
  have hget : s.store.get s.now r.bucket = s'.store.get s'.now r.bucket := by
    rw [Counters.get, Counters.get, hstore, hnow]
  have httl : s.store.ttl s.now r.bucket = s'.store.ttl s'.now r.bucket := by
    rw [Counters.ttl, Counters.ttl, hget, hnow]
  have hincremented : s.store.incremented s.now r.bucket =
      s'.store.incremented s'.now r.bucket := by
    rw [Counters.incremented, Counters.incremented, hget]
  have hexpire : s.store.expire s.now r.bucket d.windowSeconds r.bucket =
      s'.store.expire s'.now r.bucket d.windowSeconds r.bucket := by
    cases h : s'.store.get s'.now r.bucket with
    | none => simp only [Counters.expire, hget, h, hstore]
    | some c => rw [Counters.expire_of_some (hget.trans h), Counters.expire_of_some h, hnow]
  have heffect : effect d s r r.bucket = effect d s' r r.bucket := by
    cases hphase : r.phase with
    | incr => simp only [effect, hphase, Counters.incr_self, hincremented]
    | expire => simp only [effect, hphase, hexpire]
    | ttl | admitted | refused | stopped => simp only [effect, hphase, hstore]
  have hanswered : answered d s r = answered d s' r := by
    cases hphase : r.phase with
    | incr => simp only [answered, hphase, hincremented]
    | ttl => simp only [answered, hphase, httl]
    | expire | admitted | refused | stopped => simp only [answered, hphase]
  cases fate with
  | answered => exact ⟨hanswered, heffect⟩
  | lost => exact ⟨rfl, heffect⟩
  | failed => exact ⟨rfl, hstore⟩

/-- Two states with the same requests and the same counters for them take the same step. -/
theorem step_congr {s s' : RateLimit.State} (hnow : s.now = s'.now)
    (hrequests : s.requests = s'.requests)
    (hstore : ∀ r ∈ s.requests, s.store r.bucket = s'.store r.bucket) (e : RateLimit.Event) :
    (RateLimit.step T boundary d s e).now = (RateLimit.step T boundary d s' e).now ∧
      (RateLimit.step T boundary d s e).requests = (RateLimit.step T boundary d s' e).requests ∧
      ∀ k, s.store k = s'.store k →
        (RateLimit.step T boundary d s e).store k =
          (RateLimit.step T boundary d s' e).store k := by
  have hflight : ∀ n, s.inFlight n = s'.inFlight n := by
    intro n
    rw [State.inFlight, State.inFlight, hrequests]
  cases e with
  | arrive client => exact ⟨hnow, by simp only [RateLimit.step, hrequests], fun k hk => hk⟩
  | tick ms => exact ⟨by simp only [RateLimit.step, hnow], hrequests, fun k hk => hk⟩
  | stop n =>
    cases hr : s'.inFlight n with
    | none => simpa only [RateLimit.step, hflight, hr] using ⟨hnow, hrequests, fun k hk => hk⟩
    | some r =>
      simpa only [RateLimit.step, hflight, hr, State.move, hrequests] using
        ⟨hnow, trivial, fun k hk => hk⟩
  | command n fate =>
    cases hr : s'.inFlight n with
    | none => simpa only [RateLimit.step, hflight, hr] using ⟨hnow, hrequests, fun k hk => hk⟩
    | some r =>
      have hr' : s.inFlight n = some r := (hflight n).trans hr
      have hown := hstore r (bucket_mem_of_inFlight hr')
      obtain ⟨hphase, hbucket⟩ := outcome_congr (d := d) hnow hown fate
      rw [step_command hr, step_command hr']
      refine ⟨hnow, by simp only [State.move, hrequests, hphase], fun k hk => ?_⟩
      by_cases hkey : k = r.bucket
      · rw [hkey]
        exact hbucket
      · exact (outcome_of_ne hkey fate).trans (hk.trans (outcome_of_ne hkey fate).symm)

end Limiter

/-! ## Who is counted where -/

section Counting

variable (T boundary) in
/-- The key under which an event has a request of a caller to a route counted. -/
def counts (who : Route × Caller) (e : Event) : Option String :=
  ((entry T boundary e).filter fun x => (x.route, x.caller) = who).map fun x =>
    bucketOf x.route x.address

theorem serve_buckets (s : Traffic) (who who' : Route × Caller) (e : RateLimit.Event) :
    ((s.serve T boundary who e).requests who').map (·.bucket) =
      (s.requests who').map (·.bucket) ++ if who = who' then (match e with
        | .arrive client => [bucketKey T boundary who.1.limit client]
        | _ => []) else [] := by
  by_cases hwho : who = who'
  · subst hwho
    simp only [Traffic.serve, Function.update_self, step_buckets, Traffic.part, if_pos]
  · simp only [Traffic.serve, Function.update_of_ne (Ne.symm hwho), if_neg hwho, List.append_nil]

theorem step_counts (s : Traffic) (who : Route × Caller) (e : Event) :
    ((step T boundary s e).requests who).map (·.bucket) =
      (s.requests who).map (·.bucket) ++ (counts T boundary who e).toList := by
  cases e with
  | tick ms => simp [step, counts, entry]
  | command route c n fate =>
    simp only [step, serve_buckets, counts, entry]
    simp
  | stop route c n =>
    simp only [step, serve_buckets, counts, entry]
    simp
  | arrive route r =>
    cases henter : route.enter T boundary r with
    | error e => simp [step, counts, entry, henter, Except.toOption]
    | ok p =>
      obtain ⟨p, client⟩ := p
      obtain rfl := enter_client henter
      simp only [step, henter, serve_buckets, counts, entry, Except.toOption, bucketKey_eq]
      by_cases hwho : (route, caller p) = who
      · subst hwho
        simp [Option.filter]
      · simp [hwho]

/-- The keys of the requests of a caller to a route, in the order of their arrival. -/
theorem run_counts (who : Route × Caller) (events : List Event) (s : Traffic) :
    ((run (step T boundary) s events).requests who).map (·.bucket) =
      (s.requests who).map (·.bucket) ++
        events.filterMap (counts T boundary who) := by
  induction events generalizing s with
  | nil => simp
  | cons e events ih =>
    rw [run_cons, ih, step_counts, List.append_assoc, List.filterMap_cons]
    cases counts T boundary who e <;> rfl

theorem exists_request_iff {now : ℕ} {events : List Event} {route : Route} {c : Caller}
    {k : String} :
    (∃ q ∈ (run (step T boundary) (start now) events).requests (route, c), q.bucket = k) ↔
      ∃ e ∈ events, ∃ x ∈ entry T boundary e, x.route = route ∧ x.caller = c ∧
        bucketOf route x.address = k := by
  have hmap : ((run (step T boundary) (start now) events).requests (route, c)).map (·.bucket) =
      events.filterMap (counts T boundary (route, c)) := run_counts (route, c) events (start now)
  have hmem : (∃ q ∈ (run (step T boundary) (start now) events).requests (route, c),
      q.bucket = k) ↔ k ∈ events.filterMap (counts T boundary (route, c)) := by
    rw [← List.mem_map, hmap]
  rw [hmem, List.mem_filterMap]
  refine exists_congr fun e => and_congr_right fun _ => ?_
  simp only [counts, Option.map_eq_some_iff, Option.filter_eq_some_iff, decide_eq_true_eq,
    Prod.mk.injEq, Option.mem_def]
  constructor
  · rintro ⟨x, ⟨hx, rfl, hc⟩, hk⟩
    exact ⟨x, hx, rfl, hc, hk⟩
  · rintro ⟨x, hx, rfl, hc, hk⟩
    exact ⟨x, ⟨hx, rfl, hc⟩, hk⟩

end Counting

/-! ## A run with and without the requests of some callers -/

section Alike

/-- Two states that agree on the requests of the callers that are kept, and on the keys under
which they are counted. -/
structure Alike (keep : Caller → Bool) (own : String → Prop) (s s' : Traffic) : Prop where
  now : s.now = s'.now
  store : ∀ k, own k → s.store k = s'.store k
  requests : ∀ route c, keep c → s.requests (route, c) = s'.requests (route, c)
  keys : ∀ route c, ∀ q ∈ s.requests (route, c), keep c = true ↔ own q.bucket

variable {keep : Caller → Bool} {own : String → Prop} {s s' : Traffic} {who : Route × Caller}
  {e : RateLimit.Event}

/-- The keys of the requests that arrive are those of their callers. -/
def Keyed (T : Texts) (boundary : Boundary) (keep : Caller → Bool) (own : String → Prop)
    (who : Route × Caller) : RateLimit.Event → Prop
  | .arrive client => keep who.2 = true ↔ own (bucketKey T boundary who.1.limit client)
  | _ => True

theorem serve_keys (hkeys : ∀ route c, ∀ q ∈ s.requests (route, c), keep c = true ↔ own q.bucket)
    (he : Keyed T boundary keep own who e) (route : Route) (c : Caller) :
    ∀ q ∈ (s.serve T boundary who e).requests (route, c), keep c = true ↔ own q.bucket := by
  intro q hq
  have hbucket : q.bucket ∈ ((s.serve T boundary who e).requests (route, c)).map (·.bucket) :=
    List.mem_map_of_mem hq
  rw [serve_buckets, List.mem_append] at hbucket
  rcases hbucket with hold | hnew
  · obtain ⟨q', hq', heq⟩ := List.mem_map.mp hold
    rw [← heq]
    exact hkeys route c q' hq'
  · by_cases hwho : who = (route, c)
    · subst hwho
      rw [if_pos rfl] at hnew
      cases e with
      | arrive client =>
        rw [List.mem_singleton.mp hnew]
        exact he
      | command | stop | tick => cases hnew
    · rw [if_neg hwho] at hnew
      cases hnew

/-- A caller that is kept takes the same step in both. -/
theorem Alike.serve (h : Alike keep own s s') (hkeep : keep who.2 = true)
    (he : Keyed T boundary keep own who e) :
    Alike keep own (s.serve T boundary who e) (s'.serve T boundary who e) := by
  obtain ⟨route, c⟩ := who
  have hstore : ∀ r ∈ (s.part (route, c)).requests,
      (s.part (route, c)).store r.bucket = (s'.part (route, c)).store r.bucket :=
    fun r hr => h.store _ ((h.keys route c r hr).mp hkeep)
  obtain ⟨hnow, hrequests, hcounters⟩ :
      (RateLimit.step T boundary route.limit (s.part (route, c)) e).now =
        (RateLimit.step T boundary route.limit (s'.part (route, c)) e).now ∧ _ :=
    step_congr h.now (h.requests route c hkeep) hstore e
  refine ⟨hnow, fun k hk => hcounters k (h.store k hk), fun route' c' hc' => ?_,
    serve_keys h.keys he⟩
  simp only [Traffic.serve]
  by_cases hwho : (route', c') = (route, c)
  · rw [hwho, Function.update_self, Function.update_self]
    exact hrequests
  · rw [Function.update_of_ne hwho, Function.update_of_ne hwho]
    exact h.requests route' c' hc'

/-- A caller that is left out changes nothing that the others see. -/
theorem Alike.skip (h : Alike keep own s s') (hkeep : keep who.2 = false)
    (he : Keyed T boundary keep own who e) (htick : ∀ ms, e ≠ .tick ms) :
    Alike keep own (s.serve T boundary who e) s' := by
  obtain ⟨route, c⟩ := who
  have hnow : (RateLimit.step T boundary route.limit (s.part (route, c)) e).now = s.now := by
    rw [step_now]
    cases e with
    | tick ms => exact absurd rfl (htick ms)
    | arrive | command | stop => rfl
  refine ⟨hnow.trans h.now, fun k hk => ?_, fun route' c' hc' => ?_, serve_keys h.keys he⟩
  · have hother : ∀ r ∈ (s.part (route, c)).requests, r.bucket ≠ k := by
      intro r hr heq
      have hown := (h.keys route c r hr).mpr (heq ▸ hk)
      rw [hkeep] at hown
      cases hown
    exact (step_store_of_ne hother e).trans (h.store k hk)
  · have hne : (route', c') ≠ (route, c) := by
      intro heq
      cases heq
      rw [hkeep] at hc'
      cases hc'
    simp only [Traffic.serve, Function.update_of_ne hne]
    exact h.requests route' c' hc'

/-- The run of all events, and the run of those that are nobody's or of a caller that is kept. -/
theorem run_alike {events : List Event}
    (hkeyed : ∀ e ∈ events, ∀ x ∈ entry T boundary e,
      keep x.caller = true ↔ own (bucketOf x.route x.address))
    (h : Alike keep own s s') :
    Alike keep own (run (step T boundary) s events)
      (run (step T boundary) s' (events.filter fun e => (sender T boundary e).all keep)) := by
  induction events generalizing s s' with
  | nil => exact h
  | cons e events ih =>
    have hrest : ∀ e ∈ events, ∀ x ∈ entry T boundary e,
        keep x.caller = true ↔ own (bucketOf x.route x.address) :=
      fun e' he' => hkeyed e' (List.mem_cons_of_mem e he')
    have hone : ∀ route c e', Keyed T boundary keep own (route, c) e' →
        (∀ ms, e' ≠ .tick ms) → sender T boundary e = some c →
        step T boundary s e = s.serve T boundary (route, c) e' →
        step T boundary s' e = s'.serve T boundary (route, c) e' →
        Alike keep own (run (step T boundary) s (e :: events)) (run (step T boundary) s'
          ((e :: events).filter fun e => (sender T boundary e).all keep)) := by
      intro route c e' hkey htick hsender hstep hstep'
      rw [run_cons, hstep]
      by_cases hkeep : keep c = true
      · rw [List.filter_cons_of_pos (by simp [hsender, hkeep]), run_cons, hstep']
        exact ih hrest (h.serve hkeep hkey)
      · rw [List.filter_cons_of_neg (by simp [hsender, hkeep])]
        exact ih hrest (h.skip (Bool.eq_false_iff.mpr hkeep) hkey htick)
    cases e with
    | tick ms =>
      rw [List.filter_cons_of_pos rfl]
      exact ih hrest ⟨by simp only [step, h.now], h.store, h.requests, h.keys⟩
    | command route c n fate =>
      exact hone route c (.command n fate) trivial (fun ms hms => by cases hms) rfl rfl rfl
    | stop route c n =>
      exact hone route c (.stop n) trivial (fun ms hms => by cases hms) rfl rfl rfl
    | arrive route r =>
      have hown := hkeyed _ List.mem_cons_self
      cases henter : route.enter T boundary r with
      | error error =>
        have hstay : ∀ s, step T boundary s (.arrive route r) = s := fun s => by
          simp only [step, henter]
        rw [List.filter_cons_of_pos (by simp [sender, henter, Except.toOption]), run_cons,
          run_cons, hstay, hstay]
        exact ih hrest h
      | ok p =>
        obtain ⟨p, client⟩ := p
        obtain rfl := enter_client henter
        have hentry : entry T boundary (.arrive route r) =
            some ⟨route, caller p, getRequestIp T boundary r.origin⟩ := by
          simp only [entry, henter, Except.toOption, Option.map_some]
        refine hone route (caller p) (.arrive ⟨none, r.origin⟩) ?_ (fun ms hms => by cases hms)
          ?_ ?_ ?_
        · show keep (caller p) = true ↔ own (bucketKey T boundary route.limit ⟨none, r.origin⟩)
          rw [bucketKey_eq]
          exact hown _ hentry
        · simp only [sender, henter, Except.toOption, Option.map_some]
        · simp only [step, henter]
        · simp only [step, henter]

end Alike

/-! ## When the limits are per user -/

theorem independent_of_oneAddressEach {events : List Event} (h : OneAddressEach T boundary events)
    (now : ℕ) (route : Route) {c c' : Caller} (hne : c ≠ c') :
    (run (step T boundary) (start now) events).requests (route, c) =
      (run (step T boundary) (start now) (without T boundary c' events)).requests (route, c) := by
  let keep : Caller → Bool := fun c => c ≠ c'
  let own : String → Prop := fun k => ∃ e ∈ events, ∃ x ∈ entry T boundary e,
    keep x.caller = true ∧ bucketOf x.route x.address = k
  have hkeyed : ∀ e ∈ events, ∀ x ∈ entry T boundary e,
      keep x.caller = true ↔ own (bucketOf x.route x.address) := by
    intro e he x hx
    constructor
    · intro hkeep
      exact ⟨e, he, x, hx, hkeep, rfl⟩
    · rintro ⟨e', he', x', hx', hkeep, hbucket⟩
      obtain ⟨hroute, haddress⟩ := bucketOf_inj.mp hbucket
      rwa [← (h e' he' e he x' hx' x hx hroute).mpr haddress]
  have hstart : Alike keep own (start now) (start now) :=
    ⟨rfl, fun _ _ => rfl, fun _ _ _ => rfl, fun _ _ q hq => absurd hq List.not_mem_nil⟩
  have halike := (run_alike hkeyed hstart).requests route c (decide_eq_true hne)
  have hfilter : events.filter (fun e => (sender T boundary e).all keep) =
      without T boundary c' events := by
    apply List.filter_congr
    intro e _
    cases sender T boundary e with
    | none => rfl
    | some c => simp [keep]
  rwa [hfilter] at halike

/-- The limits of a run are per user if and only if on each route every caller has one address
and no two callers share one. -/
theorem per_user_iff (T : Texts) (boundary : Boundary) (now : ℕ) (events : List Event) :
    PerUser T boundary now events ↔ OneAddressEach T boundary events := by
  have hrequest : ∀ e ∈ events, ∀ x ∈ entry T boundary e, ∃ q ∈
      (run (step T boundary) (start now) events).requests (x.route, x.caller),
        q.bucket = bucketOf x.route x.address :=
    fun e he x hx => exists_request_iff.mpr ⟨e, he, x, hx, rfl, rfl, rfl⟩
  have hentry : ∀ route c, ∀ q ∈ (run (step T boundary) (start now) events).requests (route, c),
      ∃ e ∈ events, ∃ x ∈ entry T boundary e, x.route = route ∧ x.caller = c ∧
        bucketOf route x.address = q.bucket :=
    fun route c q hq => exists_request_iff.mp ⟨q, hq, rfl⟩
  constructor
  · intro h e he e' he' x hx x' hx' hroute
    obtain ⟨q, hq, hbucket⟩ := hrequest e he x hx
    obtain ⟨q', hq', hbucket'⟩ := hrequest e' he' x' hx'
    rw [← hroute] at hq' hbucket'
    constructor
    · intro hcaller
      rw [← hcaller] at hq'
      have heq := h.together _ _ q hq q' hq'
      rw [hbucket, hbucket'] at heq
      exact (bucketOf_inj.mp heq).2
    · intro haddress
      by_contra hcaller
      refine h.apart _ _ _ hcaller q hq q' hq' ?_
      rw [hbucket, hbucket', haddress]
  · intro h
    refine ⟨fun route c q hq q' hq' => ?_, fun route c c' hne q hq q' hq' heq => ?_,
      fun route c c' hne => independent_of_oneAddressEach h now route hne⟩
    · obtain ⟨e, he, x, hx, hroute, hcaller, hbucket⟩ := hentry route c q hq
      obtain ⟨e', he', x', hx', hroute', hcaller', hbucket'⟩ := hentry route c q' hq'
      have haddress := (h e he e' he' x hx x' hx' (hroute.trans hroute'.symm)).mp
        (hcaller.trans hcaller'.symm)
      rw [← hbucket, ← hbucket', haddress]
    · obtain ⟨e, he, x, hx, hroute, hcaller, hbucket⟩ := hentry route c q hq
      obtain ⟨e', he', x', hx', hroute', hcaller', hbucket'⟩ := hentry route c' q' hq'
      rw [← hbucket, ← hbucket'] at heq
      have hsame := (h e he e' he' x hx x' hx' (hroute.trans hroute'.symm)).mpr
        (bucketOf_inj.mp heq).2
      exact hne (hcaller.symm.trans (hsame.trans hcaller'))

/-! ## Two analysts behind one address -/

def analyst (id : String) : User where
  id := id
  username := id
  passwordHash := ""
  role := "analyst"
  mfaSecret := none
  mfaEnabled := false
  failedAttempts := 0
  lockedUntil := none
  lastLogin := none
  isActive := true

/-- A request of an analyst from an address. -/
def sentBy (id address : String) : Arrival where
  origin := ⟨some address, none, none⟩
  credentials := { bearer := some id }
  auth := ⟨fun token => .ok (analyst token), fun _ => none⟩

/-- A request of an analyst to the bulk import is handled, the `n`th of that analyst. -/
def imports (id address : String) (n : ℕ) : List Event :=
  .arrive .bulkImport (sentBy id address) ::
    (List.replicate 3 (.command .bulkImport (.user id) n .answered))

/-- Alice imports three times. -/
def aliceImports : List Event :=
  (List.range 3).flatMap (imports "alice" "203.0.113.4")

/-- Bob's first import is refused after those of Alice from the same address and goes through
without them; and a fourth import of Alice goes through from another address. -/
theorem imports_not_per_user :
    (((run (step anyTexts noProxies) (start 0)
        (aliceImports ++ imports "bob" "203.0.113.4" 0)).requests
          (.bulkImport, .user "bob")).map (·.phase) =
      [.refused (tooManyRequests Route.bulkImport.limit 60)]) ∧
    (((run (step anyTexts noProxies) (start 0)
        (without anyTexts noProxies (.user "alice")
          (aliceImports ++ imports "bob" "203.0.113.4" 0))).requests
            (.bulkImport, .user "bob")).map (·.phase) = [.admitted]) ∧
    (((run (step anyTexts noProxies) (start 0)
        (aliceImports ++ imports "alice" "198.51.100.7" 3)).requests
          (.bulkImport, .user "alice")).map (·.phase) =
      [.admitted, .admitted, .admitted, .admitted]) ∧
    ¬ PerUser anyTexts noProxies 0 (aliceImports ++ imports "bob" "203.0.113.4" 0) := by
  have hrefused : ((run (step anyTexts noProxies) (start 0)
      (aliceImports ++ imports "bob" "203.0.113.4" 0)).requests
        (.bulkImport, .user "bob")).map (·.phase) =
          [.refused (tooManyRequests Route.bulkImport.limit 60)] := by decide +kernel
  have hadmitted : ((run (step anyTexts noProxies) (start 0)
      (without anyTexts noProxies (.user "alice")
        (aliceImports ++ imports "bob" "203.0.113.4" 0))).requests
          (.bulkImport, .user "bob")).map (·.phase) = [.admitted] := by decide +kernel
  refine ⟨hrefused, hadmitted, by decide +kernel, fun h => ?_⟩
  have hsame := h.independent .bulkImport (.user "bob") (.user "alice") (by decide)
  rw [hsame, hadmitted] at hrefused
  cases hrefused

end Kepryx.UserLimits
