import Kepryx.Sessions

/-!
# A refresh token is redeemed once

The `SET … NX` of a refresh decides which of the requests that present one token goes on. It
leaves a mark that lasts until the token has expired, but a request that passed the earlier
checks may come to its `SET … NX` later than that.
-/
namespace Kepryx.RefreshReplay
open Kepryx.ExpiringStore Kepryx.TokenBlocklist Kepryx.Accounts Kepryx.Sessions Kepryx.Runs

variable {settings : Settings} {services : Services}

/-- The sessions of a user, the tokens that were consumed, each with the instant at which its
mark vanishes, and the tokens for which a refresh was answered with a new pair. -/
structure Tracked (services : Services) where
  state : State services
  consumed : List (Payload × ℕ)
  answered : List Payload

def Tracked.start (start : Start settings services) : Tracked services := ⟨start.state, [], []⟩

/-- The token for which a request is about to do its `SET … NX`. -/
def Request.consuming : Request services → Option Payload
  | .checked token => some token.payload
  | _ => none

/-- The token for which a request is about to answer with a new pair. -/
def Request.answering : Request services → Option Payload
  | .loaded token _ => some token.payload
  | _ => none

/-- The request that does its next step. -/
def stepping (s : State services) : Event → Option (Request services)
  | .next n accessJti refreshJti =>
    if Drawn s accessJti refreshJti then s.requests[n]? else none
  | _ => none

/-- The token that an event consumes, and when its mark vanishes. -/
def consumes (s : State services) (e : Event) : Option (Payload × ℕ) := do
  let p ← (stepping s e).bind Request.consuming
  let _ ← markConsumed s.redis s.now p
  return (p, s.now + ttl s.now p * 1000)

/-- The token for which an event answers with a new pair. -/
def answers (s : State services) (e : Event) : Option Payload :=
  (stepping s e).bind Request.answering

def track (settings : Settings) (s : Tracked services) (e : Event) : Tracked services where
  state := step settings s.state e
  consumed := (consumes s.state e).toList ++ s.consumed
  answered := (answers s.state e).toList ++ s.answered

/-- A request does its `SET … NX` on a token that another request consumed only before the
mark vanishes. -/
def Timely (s : Tracked services) (e : Event) : Prop :=
  ∀ p ∈ (stepping s.state e).bind Request.consuming, ∀ c ∈ s.consumed, c.1 = p →
    s.state.now < c.2

instance (s : Tracked services) (e : Event) : Decidable (Timely s e) :=
  inferInstanceAs (Decidable (∀ p ∈ _, _))

/-- A request does its `SET … NX` while its token is valid. -/
def WhileValid (s : Tracked services) (e : Event) : Prop :=
  ∀ p ∈ (stepping s.state e).bind Request.consuming, s.state.now < p.exp * 1000

/-! ## Requests that hold a consumed token -/

/-- The request has consumed the token and has not answered yet. -/
def Request.redeems (p : Payload) : Request services → Bool
  | .consumed token => token.payload = p
  | .loaded token _ => token.payload = p
  | _ => false

/-- How many requests will answer with a new pair for the token. -/
def redeeming (p : Payload) (rs : List (Request services)) : ℕ := rs.countP (Request.redeems p)

theorem redeeming_eraseIdx (p : Payload) (rs : List (Request services)) (n : ℕ) :
    redeeming p (rs.eraseIdx n) ≤ redeeming p rs :=
  (List.eraseIdx_sublist rs n).countP_le

/-- What replaces a request replaces what it counts for. -/
theorem redeeming_place (p : Payload) {rs : List (Request services)} {n : ℕ}
    {r : Request services} (hn : rs[n]? = some r) (left : Option (Request services)) :
    redeeming p (place n rs left) + redeeming p [r] = redeeming p rs + redeeming p left.toList := by
  induction rs generalizing n with
  | nil => cases hn
  | cons a rs ih =>
    cases n with
    | zero =>
      cases hn
      cases left with
      | none => simp [place, redeeming, List.countP_cons]
      | some r' =>
        simp only [place, redeeming, List.set_cons_zero, List.countP_cons, List.countP_nil,
          Option.toList_some]
        omega
    | succ n =>
      have hrest := ih (List.getElem?_cons_succ ▸ hn)
      cases left with
      | none =>
        simp only [place, redeeming, List.eraseIdx_cons_succ, List.countP_cons] at hrest ⊢
        omega
      | some r' =>
        simp only [place, redeeming, List.set_cons_succ, List.countP_cons] at hrest ⊢
        omega

/-! ## What a step does -/

/-- No more tokens are answered than were consumed, and what is consumed gets its mark. -/
structure Progress (s s' : State services) (e : Event) : Prop where
  counts : ∀ p, redeeming p s'.requests + (answers s e).toList.count p ≤
    redeeming p s.requests + ((consumes s e).map Prod.fst).toList.count p
  redis : (consumes s e = none ∧ s'.redis.revoked = s.redis.revoked) ∨
    ∃ p, consumes s e = some (p, s.now + ttl s.now p * 1000) ∧
      markConsumed s.redis s.now p = some s'.redis

/-- An event that does no request's next step. -/
theorem progress_of_requests {s s' : State services} {e : Event} (hstepping : stepping s e = none)
    (hrequests : ∀ p, redeeming p s'.requests ≤ redeeming p s.requests)
    (hredis : s'.redis.revoked = s.redis.revoked) : Progress s s' e := by
  have hconsumes : consumes s e = none := by simp [consumes, hstepping]
  have hanswers : answers s e = none := by simp [answers, hstepping]
  exact ⟨fun p => by simpa [hconsumes, hanswers] using hrequests p, .inl ⟨hconsumes, hredis⟩⟩

theorem redeeming_append (p : Payload) (rs : List (Request services)) {r : Request services}
    (hr : Request.redeems p r = false) : redeeming p (rs ++ [r]) ≤ redeeming p rs := by
  simp [redeeming, hr]

theorem decodeRefresh_redeems {now : ℕ} {token : Token services} {r : Request services}
    (h : decodeRefresh now token = .ok r) (p : Payload) : Request.redeems p r = false := by
  unfold decodeRefresh at h
  split at h
  · cases h
  · split at h
    · cases h
      rfl
    · cases h

theorem loadAndVerify_redeems (s : State services) (body : LoginRequest) (salt : String)
    (p : Payload) : Request.redeems p (loadAndVerify settings s body salt) = false := by
  unfold loadAndVerify
  split <;> rfl

/-- A next step that consumes nothing. -/
theorem progress_of_place {s s' : State services} {e : Event} {n : ℕ} {r : Request services}
    {left : Option (Request services)} (hstepping : stepping s e = some r)
    (hn : s.requests[n]? = some r) (hconsuming : Request.consuming r = none)
    (hcounts : ∀ p, redeeming p left.toList + (Request.answering r).toList.count p ≤
      redeeming p [r])
    (hredis : s'.redis.revoked = s.redis.revoked) :
    Progress s { s' with requests := place n s.requests left } e := by
  have hconsumes : consumes s e = none := by simp [consumes, hstepping, hconsuming]
  have hanswers : answers s e = Request.answering r := by simp [answers, hstepping]
  refine ⟨fun p => ?_, .inl ⟨hconsumes, hredis⟩⟩
  have hplace := redeeming_place p hn left
  have hle := hcounts p
  rw [hconsumes, hanswers]
  simp only [Option.map_none, Option.toList_none, List.count_nil]
  omega

/-- The next step of a request. -/
theorem progress_next {s s' : State services} {n : ℕ} {accessJti refreshJti : String}
    {r : Request services} {left : Option (Request services)}
    (hdrawn : Drawn s accessJti refreshJti) (hn : s.requests[n]? = some r)
    (h : advance settings s accessJti refreshJti r = .ok (left, s')) :
    Progress s { s' with requests := place n s.requests left } (.next n accessJti refreshJti) := by
  have hstepping : stepping s (.next n accessJti refreshJti) = some r := by
    simp [stepping, hdrawn, hn]
  cases r with
  | decoded token =>
    simp only [advance] at h
    split at h
    · cases h
    · cases h
      exact progress_of_place hstepping hn rfl (fun p => le_rfl) rfl
  | checked token =>
    simp only [advance] at h
    split at h
    · cases h
    · rename_i redis hmark
      cases h
      have hconsumes : consumes s (.next n accessJti refreshJti) =
          some (token.payload, s.now + ttl s.now token.payload * 1000) := by
        simp [consumes, hstepping, Request.consuming, hmark]
      have hanswers : answers s (.next n accessJti refreshJti) = none := by
        simp [answers, hstepping, Request.answering]
      refine ⟨fun p => ?_, .inr ⟨_, hconsumes, hmark⟩⟩
      have hplace := redeeming_place p hn (some (.consumed token))
      rw [hconsumes, hanswers]
      simp [redeeming, Request.redeems, List.count_singleton, List.countP_cons] at hplace ⊢
      omega
  | consumed token =>
    simp only [advance] at h
    split at h
    · cases h
      exact progress_of_place hstepping hn rfl (fun p => le_rfl) rfl
    · cases h
  | loaded token user =>
    cases h
    refine progress_of_place hstepping hn rfl (fun p => ?_) rfl
    simp [redeeming, Request.redeems, Request.answering, List.count_singleton, List.countP_cons]
  | verified session loaded current =>
    cases h
    exact progress_of_place hstepping hn rfl (fun p => le_rfl) rfl
  | ending loaded current =>
    cases h
    exact progress_of_place hstepping hn rfl (fun p => le_rfl) rfl

/-- A next step that is refused consumes and answers nothing. -/
theorem progress_refused {s : State services} {n : ℕ} {accessJti refreshJti : String}
    {r : Request services} {error : HttpError} (hn : s.requests[n]? = some r)
    (h : advance settings s accessJti refreshJti r = .error error) :
    Progress s { s with requests := s.requests.eraseIdx n } (.next n accessJti refreshJti) := by
  by_cases hdrawn : Drawn s accessJti refreshJti
  swap
  · exact progress_of_requests (by simp [stepping, hdrawn])
      (fun p => redeeming_eraseIdx p s.requests n) rfl
  have hstepping : stepping s (.next n accessJti refreshJti) = some r := by
    simp [stepping, hdrawn, hn]
  have hconsumes : consumes s (.next n accessJti refreshJti) = none := by
    cases r with
    | checked token =>
      simp only [advance] at h
      split at h
      · rename_i hmark
        simp [consumes, hstepping, Request.consuming, hmark]
      · cases h
    | _ => simp [consumes, hstepping, Request.consuming]
  have hanswers : answers s (.next n accessJti refreshJti) = none := by
    cases r with
    | loaded token user => cases h
    | _ => simp [answers, hstepping, Request.answering]
  refine ⟨fun p => ?_, .inl ⟨hconsumes, rfl⟩⟩
  rw [hconsumes, hanswers]
  simpa using redeeming_eraseIdx p s.requests n

theorem step_progress (settings : Settings) (s : State services) (e : Event) :
    Progress s (step settings s e) e := by
  have htransition := transition settings s e
  generalize step settings s e = s' at htransition ⊢
  cases htransition with
  | login body salt =>
    exact progress_of_requests rfl
      (fun p => redeeming_append p _ (loadAndVerify_redeems s body salt p)) rfl
  | refresh n token r found decoded =>
    exact progress_of_requests rfl
      (fun p => redeeming_append p _ (decodeRefresh_redeems decoded p)) rfl
  | next n accessJti refreshJti r left s' drawn request advanced =>
    exact progress_next drawn request advanced
  | refuse n accessJti refreshJti r error drawn request refused =>
    exact progress_refused request refused
  | fail n => exact progress_of_requests rfl (fun p => redeeming_eraseIdx p s.requests n) rfl
  | still _ timeless idle =>
    refine progress_of_requests ?_ (fun p => le_rfl) rfl
    unfold stepping
    split
    · rename_i n accessJti refreshJti
      split
      · rename_i hdrawn
        exact idle n accessJti refreshJti rfl hdrawn
      · rfl
    · rfl
  | _ => exact progress_of_requests rfl (fun p => le_rfl) rfl

/-! ## Runs -/

/-- The marks of consumed tokens last, no token is consumed twice, and each answer has been
preceded by a consumption of its own. -/
structure Inv (s : Tracked services) : Prop where
  marked : ∀ c ∈ s.consumed, BlockedUntil s.state.redis c.1.jti c.2
  once : (s.consumed.map Prod.fst).Nodup
  counts : ∀ p, s.answered.count p + redeeming p s.state.requests ≤
    (s.consumed.map Prod.fst).count p

theorem consumes_eq_some {s : State services} {e : Event} {p : Payload} {u : ℕ}
    (h : consumes s e = some (p, u)) : (stepping s e).bind Request.consuming = some p := by
  simp only [consumes, Option.bind_eq_bind, Option.bind_eq_some_iff] at h ⊢
  obtain ⟨q, hq, redis, -, heq⟩ := h
  obtain ⟨rfl, -⟩ := Prod.mk.inj (Option.some.inj heq)
  exact hq

/-- A mark that is alive refuses the `SET … NX`. -/
theorem not_mem_consumed {s : Tracked services} (h : Inv s) {e : Event} (ht : Timely s e)
    {p : Payload} {u : ℕ} {redis : Redis} (hconsumes : consumes s.state e = some (p, u))
    (hmark : markConsumed s.state.redis s.state.now p = some redis) :
    p ∉ s.consumed.map Prod.fst := by
  intro hmem
  obtain ⟨c, hc, rfl⟩ := List.mem_map.mp hmem
  have hlive := ht c.1 (consumes_eq_some hconsumes) c hc rfl
  obtain ⟨v, hget, -⟩ := (h.marked c hc).get hlive
  obtain ⟨revoked, hset, -⟩ := Option.map_eq_some_iff.mp hmark
  have hfree := (Store.setNx_eq_some hset).1
  rw [hget] at hfree
  cases hfree

theorem inv_track {s : Tracked services} (h : Inv s) {e : Event} (ht : Timely s e) :
    Inv (track settings s e) := by
  have hprogress := step_progress settings s.state e
  have hcounts : ∀ p, (track settings s e).answered.count p +
      redeeming p (track settings s e).state.requests ≤
        ((track settings s e).consumed.map Prod.fst).count p := by
    intro p
    have hp := hprogress.counts p
    have hs := h.counts p
    have htoList : ((consumes s.state e).toList.map Prod.fst) =
        ((consumes s.state e).map Prod.fst).toList := by cases consumes s.state e <;> rfl
    simp only [track, List.count_append, List.map_append, htoList]
    omega
  rcases hprogress.redis with ⟨hnone, hsame⟩ | ⟨p, hconsumes, hmark⟩
  · have hconsumed : (track settings s e).consumed = s.consumed := by simp [track, hnone]
    refine ⟨?_, by rw [hconsumed]; exact h.once, hcounts⟩
    intro c hc
    rw [hconsumed] at hc
    rw [BlockedUntil, track, hsame]
    exact h.marked c hc
  · have hconsumed : (track settings s e).consumed =
        (p, s.state.now + ttl s.state.now p * 1000) :: s.consumed := by simp [track, hconsumes]
    refine ⟨?_, ?_, hcounts⟩
    · intro c hc
      rw [hconsumed] at hc
      rcases List.mem_cons.mp hc with rfl | hc
      · exact blockedUntil_markConsumed hmark
      · exact (h.marked c hc).markConsumed hmark
    · rw [hconsumed, List.map_cons]
      exact List.nodup_cons.mpr ⟨not_mem_consumed h ht hconsumes hmark, h.once⟩

theorem inv_start (start : Start settings services) : Inv (Tracked.start start) :=
  ⟨fun _ hc => (List.not_mem_nil hc).elim, List.nodup_nil, fun _ => le_rfl⟩

/-- The mark of a consumed token never vanishes before the token expires. -/
theorem marks_outlive {s : Tracked services} (h : ∀ c ∈ s.consumed, c.1.exp * 1000 ≤ c.2)
    (e : Event) : ∀ c ∈ (track settings s e).consumed, c.1.exp * 1000 ≤ c.2 := by
  intro c hc
  rcases (step_progress settings s.state e).redis with ⟨hnone, -⟩ | ⟨p, hconsumes, -⟩
  · exact h c (by simpa [track, hnone] using hc)
  · simp only [track, hconsumes, Option.toList_some, List.singleton_append] at hc
    rcases List.mem_cons.mp hc with rfl | hc
    · exact exp_le_ttl s.state.now p
    · exact h c hc

/-- Requests that do their `SET … NX` while their tokens are valid are timely. -/
theorem timely_of_whileValid (start : Start settings services) {es : List Event}
    (h : Along (track settings) WhileValid (.start start) es) :
    Along (track settings) Timely (.start start) es := by
  let Outlive := fun s : Tracked services => ∀ c ∈ s.consumed, c.1.exp * 1000 ≤ c.2
  have hiff : ∀ s e, Outlive s → (WhileValid s e ↔ WhileValid s e ∧ Timely s e) := by
    refine fun s e hs => ⟨fun hv => ⟨hv, ?_⟩, And.left⟩
    rintro p hp c hc rfl
    exact Nat.lt_of_lt_of_le (hv c.1 hp) (hs c hc)
  have hboth := (along_iff_of_invariant Outlive hiff (fun s e hs _ => marks_outlive hs e)
    (fun _ hc => (List.not_mem_nil hc).elim) es).mp h
  exact hboth.mono fun _ _ hs => hs.2

/-- In every run of any number of refreshes of the tokens of a user in which each `SET … NX` on
a token that was consumed comes before the mark vanishes, a token is answered at most once with
a new pair. -/
theorem redeemed_at_most_once (start : Start settings services) (es : List Event)
    (htimely : Along (track settings) Timely (.start start) es) (p : Payload) :
    (run (track settings) (.start start) es).answered.count p ≤ 1 := by
  have hinv := run_invariant_along Inv (fun _ _ h ht => inv_track h ht) (inv_start start) htimely
  calc (run (track settings) (.start start) es).answered.count p
      ≤ ((run (track settings) (.start start) es).consumed.map Prod.fst).count p :=
        Nat.le_trans (Nat.le_add_right _ _) (hinv.counts p)
    _ ≤ 1 := List.nodup_iff_count_le_one.mp hinv.once p

/-- Services that a refresh does not use. -/
def noServices : Services where
  hash := fun _ _ => ""
  verifyHash := fun _ _ => true
  verifyTotp := fun _ _ _ => true
  encryptSecret := fun _ _ => ""
  decryptSecret := fun _ _ => none
  validatePassword := fun _ _ => .error ""

/-- The refresh token of a login a week ago. -/
def weekOld : Token noServices :=
  ⟨createRefreshToken {} 1000 "7" "week-old", ⟨"", "", rfl⟩⟩

/-- Half a second before the token expires. -/
def lastMoment : Start {} noServices where
  now := 604800500
  redis := ⟨.empty, .empty⟩
  user := ⟨"7", "bob", "", "viewer", none, false, 0, none, none, true⟩
  named := by decide
  issued := [weekOld]
  genuine := by
    intro t ht
    rw [List.mem_singleton.mp ht]
    exact ⟨1000, by decide, "7", [], "week-old", by decide, .inr rfl⟩

/-- Two requests present the token and pass the checks; the first one does its `SET … NX`. -/
def twoRefreshes : List Event :=
  [.refresh 0, .refresh 0, .next 0 "a" "b", .next 1 "a" "b", .next 0 "a" "b"]

/-- The second request does its `SET … NX` a second later, while the mark is there. -/
theorem redeemed_once_in_time :
    (run (track {}) (.start lastMoment)
      (twoRefreshes ++
        [.tick 999, .next 1 "a" "b", .next 0 "a" "b", .next 0 "a" "b"])).answered.count
          weekOld.payload ≤ 1 :=
  redeemed_at_most_once lastMoment _ (by decide +kernel) weekOld.payload

/-- The second request does its `SET … NX` when the mark has vanished. -/
theorem redeemed_twice :
    ¬ ∀ (start : Start {} noServices) (es : List Event) (p : Payload),
      (run (track {}) (.start start) es).answered.count p ≤ 1 := by
  intro h
  have htwice := h lastMoment (twoRefreshes ++ [.tick 1000, .next 1 "a" "b", .next 0 "a" "b",
    .next 0 "a" "b", .next 0 "c" "d", .next 0 "c" "d"]) weekOld.payload
  exact absurd htwice (by decide +kernel)

end Kepryx.RefreshReplay
