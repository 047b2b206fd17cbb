import Kepryx.Runs
import Kepryx.TokenBlocklist

/-!
# Revocation is permanent

Tokens of any number of users are issued, revoked and consumed, and the tokens of a user are
revoked all at once. The application and Redis share a clock that never goes back. A revocation
leaves a record that expires and that later operations overwrite, but it lasts as long as the
token is valid.
-/
namespace Kepryx.Revocations
open Kepryx.ExpiringStore Kepryx.TokenBlocklist Kepryx.Runs

variable (settings : Settings)

structure State where
  now : ℕ
  redis : Redis
  issued : List Payload

/-- The operations on tokens, and the clock. Token identifiers are drawn. -/
inductive Event where
  | tick (elapsed : ℕ)
  | issueAccess (subject : String) (scopes : List String) (jti : String)
  | issueRefresh (subject : String) (jti : String)
  | revokeToken (p : Payload)
  | consumeRefreshToken (p : Payload)
  | revokeUserTokens (userId : String)

/-- An identifier that no token has. -/
def Unused (issued : List Payload) (jti : String) : Prop :=
  jti ≠ "" ∧ jti ∉ issued.map Payload.jti

instance (issued : List Payload) (jti : String) : Decidable (Unused issued jti) :=
  inferInstanceAs (Decidable (_ ∧ _))

/-- Only identifiers that are not in use are drawn, and only tokens that were issued are
presented. -/
def step (s : State) : Event → State
  | .tick elapsed => { s with now := s.now + elapsed }
  | .issueAccess subject scopes jti =>
    if Unused s.issued jti then
      { s with issued := createAccessToken settings s.now subject scopes jti :: s.issued }
    else s
  | .issueRefresh subject jti =>
    if Unused s.issued jti then
      { s with issued := createRefreshToken settings s.now subject jti :: s.issued }
    else s
  | .revokeToken p =>
    if p ∈ s.issued then { s with redis := revokeToken s.redis s.now p } else s
  | .consumeRefreshToken p =>
    if p ∈ s.issued then
      { s with redis := (consumeRefreshToken s.redis s.now p).getD s.redis }
    else s
  | .revokeUserTokens userId =>
    { s with redis := revokeUserTokens settings s.redis s.now userId }

/-- Any clock and any Redis, and tokens that were issued before. -/
structure Start where
  now : ℕ
  redis : Redis
  issued : List Payload
  genuine : ∀ p ∈ issued, Issued settings now p
  distinct : (issued.map Payload.jti).Nodup

def Start.state (start : Start settings) : State := ⟨start.now, start.redis, start.issued⟩

/-- The event revokes or consumes the identifier of the token, or revokes the tokens of its
user when it has been issued. -/
def Revokes (s : State) (p : Payload) : Event → Prop
  | .revokeToken q => q ∈ s.issued ∧ q.jti = p.jti
  | .consumeRefreshToken q =>
    q ∈ s.issued ∧ q.jti = p.jti ∧ (consumeRefreshToken s.redis s.now q).isSome
  | .revokeUserTokens userId => p.sub = userId ∧ issuedAtMs p ≤ s.now
  | _ => False

/-! ## What every reachable state satisfies -/

structure Inv (s : State) : Prop where
  genuine : ∀ p ∈ s.issued, Issued settings s.now p
  distinct : (s.issued.map Payload.jti).Nodup

variable {settings}

theorem inv_issue {s : State} (h : Inv settings s) {p : Payload} (hp : Issued settings s.now p)
    (hjti : Unused s.issued p.jti) : Inv settings { s with issued := p :: s.issued } := by
  constructor
  · intro q hq
    rcases List.mem_cons.mp hq with rfl | hq
    · exact hp
    · exact h.genuine q hq
  · exact List.nodup_cons.mpr ⟨hjti.2, h.distinct⟩

theorem inv_step {s : State} (h : Inv settings s) (e : Event) :
    Inv settings (step settings s e) := by
  cases e with
  | tick elapsed =>
    exact ⟨fun p hp => (h.genuine p hp).later (Nat.le_add_right s.now elapsed), h.distinct⟩
  | issueAccess subject scopes jti =>
    simp only [step]
    split
    · rename_i hjti
      exact inv_issue h ⟨s.now, le_rfl, subject, scopes, jti, hjti.1, .inl rfl⟩ hjti
    · exact h
  | issueRefresh subject jti =>
    simp only [step]
    split
    · rename_i hjti
      exact inv_issue h ⟨s.now, le_rfl, subject, [], jti, hjti.1, .inr rfl⟩ hjti
    · exact h
  | revokeToken p =>
    simp only [step]
    split
    · exact ⟨h.genuine, h.distinct⟩
    · exact h
  | consumeRefreshToken p =>
    simp only [step]
    split
    · exact ⟨h.genuine, h.distinct⟩
    · exact h
  | revokeUserTokens userId => exact ⟨h.genuine, h.distinct⟩

theorem inv_run (start : Start settings) (es : List Event) :
    Inv settings (run (step settings) start.state es) :=
  run_invariant (Inv settings) (fun _ e h => inv_step h e) ⟨start.genuine, start.distinct⟩ es

/-- What a step does to Redis, and that neither the clock nor the issued tokens go back. -/
inductive Effect (settings : Settings) (s s' : State) : Prop where
  | quiet (redis : s'.redis = s.redis) (now : s.now ≤ s'.now) (issued : s.issued ⊆ s'.issued)
  | revoke (q : Payload) (presented : q ∈ s.issued)
      (state : s' = { s with redis := revokeToken s.redis s.now q })
  | consume (q : Payload) (redis : Redis) (mark : markConsumed s.redis s.now q = some redis)
      (state : s' = { s with redis })
  | revokeUser (userId : String)
      (state : s' = { s with redis := revokeUserTokens settings s.redis s.now userId })

theorem Effect.refl (s : State) : Effect settings s s :=
  .quiet rfl le_rfl (List.Subset.refl _)

theorem step_effect (settings : Settings) (s : State) (e : Event) :
    Effect settings s (step settings s e) := by
  cases e with
  | tick elapsed => exact .quiet rfl (Nat.le_add_right s.now elapsed) (List.Subset.refl _)
  | issueAccess subject scopes jti =>
    simp only [step]
    split
    · exact .quiet rfl le_rfl (List.subset_cons_self _ _)
    · exact .refl s
  | issueRefresh subject jti =>
    simp only [step]
    split
    · exact .quiet rfl le_rfl (List.subset_cons_self _ _)
    · exact .refl s
  | revokeToken q =>
    simp only [step]
    split
    · rename_i hq
      exact .revoke q hq rfl
    · exact .refl s
  | consumeRefreshToken q =>
    simp only [step]
    split
    · cases hc : consumeRefreshToken s.redis s.now q with
      | none => exact .refl s
      | some redis => exact .consume q redis (consumeRefreshToken_eq_some hc) rfl
    · exact .refl s
  | revokeUserTokens userId => exact .revokeUser userId rfl

theorem Effect.issued {s s' : State} (h : Effect settings s s') : s.issued ⊆ s'.issued := by
  cases h with
  | quiet redis now issued => exact issued
  | revoke q presented state => rw [state]; exact List.Subset.refl _
  | consume q redis mark state => rw [state]; exact List.Subset.refl _
  | revokeUser userId state => rw [state]; exact List.Subset.refl _

theorem mem_issued_run {s : State} {p : Payload} (h : p ∈ s.issued) (es : List Event) :
    p ∈ (run (step settings) s es).issued :=
  run_invariant (fun s => p ∈ s.issued) (fun s e hp => (step_effect settings s e).issued hp) h es

theorem Inv.eq_of_jti {s : State} (h : Inv settings s) {p q : Payload} (hp : p ∈ s.issued)
    (hq : q ∈ s.issued) (hjti : q.jti = p.jti) : q = p :=
  List.inj_on_of_nodup_map h.distinct hq hp hjti

/-! ## The record of a revocation -/

/-- The record that a revocation of the token leaves, and that does not expire before it. -/
inductive Recorded (s : State) (p : Payload) : Prop where
  | jti (issued : p ∈ s.issued) (named : p.jti ≠ "")
      (lasts : BlockedUntil s.redis p.jti (p.exp * 1000))
  | user (past : issuedAtMs p ≤ s.now)
      (lasts : s.redis.revokedAfter.Until p.sub (issuedAtMs p ≤ ·) (p.exp * 1000))

/-- The instant of a revocation is kept for longer than the token is valid. -/
def Retained (settings : Settings) (p : Payload) : Prop :=
  ∀ now, issuedAtMs p ≤ now → p.exp * 1000 ≤ now + retention settings

theorem recorded_revokeUserTokens {s : State} {p : Payload} (hkept : Retained settings p)
    (hpast : issuedAtMs p ≤ s.now) (userId : String)
    (h : userId ≠ p.sub →
      s.redis.revokedAfter.Until p.sub (issuedAtMs p ≤ ·) (p.exp * 1000)) :
    Recorded (step settings s (.revokeUserTokens userId)) p :=
  .user hpast (Store.until_setex h fun _ => ⟨hpast, hkept s.now hpast⟩)

/-- Whatever a step overwrites, the record of a revocation lasts. -/
theorem recorded_step {s : State} (hinv : Inv settings s) {p : Payload}
    (hkept : Retained settings p) (h : Recorded s p) (e : Event) :
    Recorded (step settings s e) p := by
  cases step_effect settings s e with
  | quiet redis now issued =>
    cases h with
    | jti presented named lasts => exact .jti (issued presented) named (by rw [redis]; exact lasts)
    | user past lasts => exact .user (Nat.le_trans past now) (by rw [redis]; exact lasts)
  | revoke q presented state =>
    rw [state]
    cases h with
    | jti issued named lasts =>
      refine .jti issued named (blockedUntil_revokeToken named (fun _ => lasts) fun hjti => ?_)
      rw [hinv.eq_of_jti issued presented hjti]
    | user past lasts => exact .user past (by rw [revokeToken_revokedAfter]; exact lasts)
  | consume q redis mark state =>
    rw [state]
    cases h with
    | jti issued named lasts => exact .jti issued named (lasts.markConsumed mark)
    | user past lasts => exact .user past (by rw [markConsumed_revokedAfter mark]; exact lasts)
  | revokeUser userId state =>
    rw [state]
    cases h with
    | jti issued named lasts => exact .jti issued named lasts
    | user past lasts => exact recorded_revokeUserTokens hkept past userId fun _ => lasts

/-- A revocation leaves its record. -/
theorem recorded_of_revokes {s : State} {p : Payload} (hkept : Retained settings p)
    (hnamed : p.jti ≠ "") (huniq : ∀ q ∈ s.issued, q.jti = p.jti → q = p) {e : Event}
    (h : Revokes s p e) : Recorded (step settings s e) p := by
  cases e with
  | tick elapsed => exact h.elim
  | issueAccess subject scopes jti => exact h.elim
  | issueRefresh subject jti => exact h.elim
  | revokeToken q =>
    obtain ⟨hq, hjti⟩ := h
    obtain rfl := huniq q hq hjti
    simp only [step, if_pos hq]
    exact .jti hq hnamed
      (blockedUntil_revokeToken hnamed (fun hne => absurd rfl hne) fun _ => le_rfl)
  | consumeRefreshToken q =>
    obtain ⟨hq, hjti, hsome⟩ := h
    obtain rfl := huniq q hq hjti
    obtain ⟨redis, hc⟩ := Option.isSome_iff_exists.mp hsome
    simp only [step, if_pos hq, hc, Option.getD_some]
    have hmark := consumeRefreshToken_eq_some hc
    exact .jti hq hnamed ((blockedUntil_markConsumed hmark).mono (exp_le_ttl s.now q))
  | revokeUserTokens userId =>
    obtain ⟨hsub, hpast⟩ := h
    exact recorded_revokeUserTokens hkept hpast userId fun hne => absurd hsub.symm hne

/-- While the record of a revocation is alive, the token is refused. -/
theorem Recorded.refused {s : State} {p : Payload} (h : Recorded s p)
    (hvalid : s.now < p.exp * 1000) : isTokenRevoked s.redis s.now p = true := by
  by_contra hfree
  obtain ⟨hblocked, -, hafter⟩ := isTokenRevoked_eq_false.mp (by simpa using hfree)
  cases h with
  | jti issued named lasts =>
    obtain ⟨v, hv, hne⟩ := lasts.get hvalid
    exact hblocked (.inr (by simp [hv, hne]))
  | user past lasts =>
    obtain ⟨instant, hget, hle⟩ := lasts.get hvalid
    have hlt := hafter instant hget
    omega

/-- In every run with the shipped lifetimes, a token whose identifier was revoked or consumed,
or whose user's tokens were revoked when it had been issued, is from then on expired or
refused. -/
theorem revocation_permanent (start : Start {}) (es es' : List Event) (e : Event) (p : Payload)
    (hp : p ∈ (run (step {}) start.state (es ++ e :: es')).issued)
    (hrevoked : Revokes (run (step {}) start.state es) p e) :
    let s := run (step {}) start.state (es ++ e :: es')
    (p.exp * 1000 ≤ s.now ∧ decodeToken s.now p = none) ∨
      isTokenRevoked s.redis s.now p = true := by
  intro s
  let before := run (step {}) start.state es
  have hs : s = run (step {}) (step {} before e) es' := by
    simp only [s, before, run, List.foldl_append, List.foldl_cons]
  have hinv : Inv {} s := inv_run start _
  have hissued := hinv.genuine p hp
  have hkept : Retained {} p := fun _ hpast => exp_le_retention hissued hpast
  have huniq : ∀ q ∈ before.issued, q.jti = p.jti → q = p := by
    intro q hq hjti
    have hq' : q ∈ s.issued := by
      rw [hs]
      exact mem_issued_run ((step_effect {} before e).issued hq) es'
    exact hinv.eq_of_jti hp hq' hjti
  have hrecord : Recorded (step {} before e) p :=
    recorded_of_revokes hkept hissued.named huniq hrevoked
  have hlasts : Inv {} s ∧ Recorded s p := by
    rw [hs]
    exact run_invariant (fun s => Inv {} s ∧ Recorded s p)
      (fun _ e h => ⟨inv_step h.1 e, recorded_step h.1 hkept h.2 e⟩)
      ⟨inv_step (inv_run start es) e, hrecord⟩ es'
  by_cases hvalid : s.now < p.exp * 1000
  · exact .inr (hlasts.2.refused hvalid)
  · refine .inl ⟨Nat.not_lt.mp hvalid, ?_⟩
    unfold decodeToken
    rw [if_neg fun h => hvalid h.2]

/-- No tokens and an empty Redis. -/
def idle : Start {} where
  now := 1000
  redis := ⟨⟨[], by decide⟩, ⟨[], by decide⟩⟩
  issued := []
  genuine := fun _ h => (List.not_mem_nil h).elim
  distinct := List.nodup_nil

/-- The refresh token of a user who logs out at once. -/
def loggedOut : Payload := createRefreshToken {} 1000 "alice" "a"

/-- One millisecond before it expires, the token is still refused. -/
theorem logout_permanent :
    let s := run (step {}) idle.state
      [.issueRefresh "alice" "a", .revokeToken loggedOut, .tick 604799999]
    (loggedOut.exp * 1000 ≤ s.now ∧ decodeToken s.now loggedOut = none) ∨
      isTokenRevoked s.redis s.now loggedOut = true :=
  revocation_permanent idle [.issueRefresh "alice" "a"] [.tick 604799999] (.revokeToken loggedOut)
    loggedOut (by decide +kernel) (by unfold Revokes; decide +kernel)

end Kepryx.Revocations
