import Mathlib.Data.Nat.Basic
import Kepryx.ExpiringStore

/-!
# Tokens and their revocation

Access and refresh tokens carry the millisecond in which they were issued. A token is revoked
through its identifier, or because its user's tokens were revoked in its millisecond or later.
Both marks live in Redis and expire. The signature, the issuer and the audience of a token
that was issued here always verify.
-/
namespace Kepryx.TokenBlocklist
open Kepryx.ExpiringStore

/-- The settings that bear on accounts and tokens, with the shipped values. -/
structure Settings where
  jwtAccessTtlMin : ℕ := 30
  jwtRefreshTtlDays : ℕ := 7
  maxLoginAttempts : ℕ := 5
  lockoutDurationMin : ℕ := 15
  deriving DecidableEq, Repr

inductive TokenType where
  | access | refresh
  deriving DecidableEq, Repr

/-- The claims of a token. -/
structure Payload where
  sub : String
  scopes : Option (List String)
  iat : ℕ
  iatMs : Option ℕ
  exp : ℕ
  jti : String
  type : TokenType
  deriving DecidableEq, Repr

/-- `create_access_token`, at a millisecond and with the identifier that was drawn. -/
def createAccessToken (settings : Settings) (now : ℕ) (subject : String) (scopes : List String)
    (jti : String) : Payload where
  sub := subject
  scopes := some scopes
  iat := now / 1000
  iatMs := some now
  exp := now / 1000 + settings.jwtAccessTtlMin * 60
  jti := jti
  type := .access

/-- `create_refresh_token` -/
def createRefreshToken (settings : Settings) (now : ℕ) (subject : String) (jti : String) :
    Payload where
  sub := subject
  scopes := none
  iat := now / 1000
  iatMs := some now
  exp := now / 1000 + settings.jwtRefreshTtlDays * 86400
  jti := jti
  type := .refresh

/-- `decode_token`: not issued in the future and not expired. -/
def decodeToken (now : ℕ) (p : Payload) : Option Payload :=
  if p.iat * 1000 ≤ now ∧ now < p.exp * 1000 then some p else none

/-- The two families of keys: `token:revoked:{jti}` and `token:revoked_after:{sub}`. -/
structure Redis where
  revoked : Store String String
  revokedAfter : Store String ℕ

/-- `_ttl`, in seconds. -/
def ttl (now : ℕ) (p : Payload) : ℕ := max 1 (p.exp - now / 1000)

/-- `_issued_at_ms`: a zero counts as missing. -/
def issuedAtMs (p : Payload) : ℕ :=
  match p.iatMs with
  | some ms => if ms ≠ 0 then ms else p.iat * 1000
  | none => p.iat * 1000

/-- `is_token_revoked` -/
def isTokenRevoked (redis : Redis) (now : ℕ) (p : Payload) : Bool :=
  if p.jti = "" ∨ p.sub = "" then true
  else if (redis.revoked.get now p.jti).any (· ≠ "") then true
  else (redis.revokedAfter.get now p.sub).any (issuedAtMs p ≤ ·)

/-- The write of `consume_refresh_token`, which refuses an identifier that is taken. -/
def markConsumed (redis : Redis) (now : ℕ) (p : Payload) : Option Redis :=
  (redis.revoked.setNx now p.jti (ttl now p * 1000) "refresh_consumed").map
    fun revoked => { redis with revoked }

/-- `consume_refresh_token` -/
def consumeRefreshToken (redis : Redis) (now : ℕ) (p : Payload) : Option Redis :=
  if isTokenRevoked redis now p then none
  else if p.jti = "" then none
  else markConsumed redis now p

/-- `revoke_token` -/
def revokeToken (redis : Redis) (now : ℕ) (p : Payload) : Redis :=
  if p.jti = "" then redis
  else { redis with revoked := redis.revoked.setex now p.jti (ttl now p * 1000) "1" }

/-- How long `revoke_user_tokens` keeps the instant, in milliseconds. -/
def retention (settings : Settings) : ℕ :=
  (settings.jwtRefreshTtlDays * 24 * 60 * 60 + 60) * 1000

/-- `revoke_user_tokens` -/
def revokeUserTokens (settings : Settings) (redis : Redis) (now : ℕ) (userId : String) : Redis :=
  { redis with
    revokedAfter := redis.revokedAfter.setex now userId (retention settings) now }

/-! ## What a revocation check says -/

/-- The identifier is missing or on the blocklist. -/
def Blocked (redis : Redis) (now : ℕ) (p : Payload) : Prop :=
  p.jti = "" ∨ (redis.revoked.get now p.jti).any (· ≠ "")

instance (redis : Redis) (now : ℕ) (p : Payload) : Decidable (Blocked redis now p) :=
  inferInstanceAs (Decidable (_ ∨ _))

theorem isTokenRevoked_eq_false {redis : Redis} {now : ℕ} {p : Payload} :
    isTokenRevoked redis now p = false ↔ ¬ Blocked redis now p ∧ p.sub ≠ "" ∧
      ∀ ms, redis.revokedAfter.get now p.sub = some ms → ms < issuedAtMs p := by
  unfold isTokenRevoked Blocked
  by_cases hjti : p.jti = ""
  · simp [hjti]
  by_cases hsub : p.sub = ""
  · simp [hjti, hsub]
  cases h : redis.revokedAfter.get now p.sub <;> simp [hjti, hsub]

/-- A token is accepted when `decode_token` and the revocation check both pass. -/
def Accepted (redis : Redis) (now : ℕ) (p : Payload) : Prop :=
  (decodeToken now p).isSome ∧ isTokenRevoked redis now p = false

instance (redis : Redis) (now : ℕ) (p : Payload) : Decidable (Accepted redis now p) :=
  inferInstanceAs (Decidable (_ ∧ _))

theorem decodeToken_isSome {now : ℕ} {p : Payload} :
    (decodeToken now p).isSome ↔ p.iat * 1000 ≤ now ∧ now < p.exp * 1000 := by
  unfold decodeToken
  split <;> simp_all

theorem blocked_of_markConsumed {redis redis' : Redis} {now : ℕ} {p q : Payload}
    (h : markConsumed redis now p = some redis') (hq : Blocked redis now q) :
    Blocked redis' now q := by
  obtain ⟨revoked, hset, rfl⟩ := Option.map_eq_some_iff.mp h
  rcases hq with hq | hq
  · exact .inl hq
  · cases hv : redis.revoked.get now q.jti with
    | none => simp [hv] at hq
    | some v => exact .inr (by rw [Store.get_setNx hset hv, ← hv]; exact hq)

/-! ## Tokens that the code issued -/

/-- A token that was issued at a millisecond that has come. -/
def Issued (settings : Settings) (now : ℕ) (p : Payload) : Prop :=
  ∃ ms ≤ now, ∃ subject scopes jti, jti ≠ "" ∧
    (p = createAccessToken settings ms subject scopes jti ∨
      p = createRefreshToken settings ms subject jti)

/-- How long a token lives, in seconds. -/
def lifetime (settings : Settings) : TokenType → ℕ
  | .access => settings.jwtAccessTtlMin * 60
  | .refresh => settings.jwtRefreshTtlDays * 86400

theorem Issued.named {settings : Settings} {now : ℕ} {p : Payload} (h : Issued settings now p) :
    p.jti ≠ "" := by
  obtain ⟨ms, -, subject, scopes, jti, hjti, rfl | rfl⟩ := h
  · exact hjti
  · exact hjti

theorem Issued.later {settings : Settings} {now now' : ℕ} {p : Payload}
    (h : Issued settings now p) (hle : now ≤ now') : Issued settings now' p := by
  obtain ⟨ms, hms, rest⟩ := h
  exact ⟨ms, by omega, rest⟩

/-- What holds of the times of a token that the code issued. -/
structure Times (settings : Settings) (now : ℕ) (p : Payload) : Prop where
  issued : issuedAtMs p ≤ now
  iat : p.iat * 1000 ≤ issuedAtMs p
  exp : p.exp = issuedAtMs p / 1000 + lifetime settings p.type

theorem issuedAtMs_create {p : Payload} {ms : ℕ} (hms : p.iatMs = some ms)
    (hiat : p.iat = ms / 1000) : issuedAtMs p = ms := by
  simp only [issuedAtMs, hms, hiat]
  split
  · rfl
  · omega

theorem Issued.times {settings : Settings} {now : ℕ} {p : Payload} (h : Issued settings now p) :
    Times settings now p := by
  obtain ⟨ms, hms, subject, scopes, jti, -, rfl | rfl⟩ := h
  · have hat := issuedAtMs_create (p := createAccessToken settings ms subject scopes jti) rfl rfl
    exact ⟨by omega, by rw [hat]; exact Nat.div_mul_le_self ms 1000, by rw [hat]; rfl⟩
  · have hat := issuedAtMs_create (p := createRefreshToken settings ms subject jti) rfl rfl
    exact ⟨by omega, by rw [hat]; exact Nat.div_mul_le_self ms 1000, by rw [hat]; rfl⟩

/-! ## Marks that outlive the token -/

/-- The mark of a token, set at any time, does not expire before the token does. -/
theorem exp_le_ttl (now : ℕ) (p : Payload) : p.exp * 1000 ≤ now + ttl now p * 1000 := by
  unfold ttl
  omega

/-- An identifier stays on the blocklist until an instant. -/
abbrev BlockedUntil (redis : Redis) (jti : String) (e : ℕ) : Prop :=
  redis.revoked.Until jti (· ≠ "") e

theorem revokeToken_revokedAfter (redis : Redis) (now : ℕ) (p : Payload) :
    (revokeToken redis now p).revokedAfter = redis.revokedAfter := by
  unfold revokeToken
  split <;> rfl

/-- A revocation writes the mark of its own token and leaves the others. -/
theorem blockedUntil_revokeToken {redis : Redis} {now e : ℕ} {p : Payload} {jti : String}
    (hjti : jti ≠ "") (h : p.jti ≠ jti → BlockedUntil redis jti e)
    (hself : p.jti = jti → e ≤ p.exp * 1000) :
    BlockedUntil (revokeToken redis now p) jti e := by
  unfold revokeToken
  split
  · rename_i hempty
    exact h fun he => hjti (he ▸ hempty)
  · exact Store.until_setex h fun hk =>
      ⟨by decide, Nat.le_trans (hself hk) (exp_le_ttl now p)⟩

theorem consumeRefreshToken_eq_some {redis redis' : Redis} {now : ℕ} {p : Payload}
    (h : consumeRefreshToken redis now p = some redis') :
    markConsumed redis now p = some redis' := by
  unfold consumeRefreshToken at h
  split at h
  · cases h
  · split at h
    · cases h
    · exact h

theorem markConsumed_revokedAfter {redis redis' : Redis} {now : ℕ} {p : Payload}
    (h : markConsumed redis now p = some redis') : redis'.revokedAfter = redis.revokedAfter := by
  obtain ⟨revoked, -, rfl⟩ := Option.map_eq_some_iff.mp h
  rfl

/-- The mark of a consumed token replaces no mark that is alive. -/
theorem BlockedUntil.markConsumed {redis redis' : Redis} {now e : ℕ} {p : Payload}
    {jti : String} (h : BlockedUntil redis jti e)
    (hmark : TokenBlocklist.markConsumed redis now p = some redis') :
    BlockedUntil redis' jti e := by
  obtain ⟨revoked, hset, rfl⟩ := Option.map_eq_some_iff.mp hmark
  exact h.setNx (by decide) hset

/-- The mark of a consumed token lasts for its time to live. -/
theorem blockedUntil_markConsumed {redis redis' : Redis} {now : ℕ} {p : Payload}
    (hmark : markConsumed redis now p = some redis') :
    BlockedUntil redis' p.jti (now + ttl now p * 1000) := by
  obtain ⟨revoked, hset, rfl⟩ := Option.map_eq_some_iff.mp hmark
  obtain ⟨-, rfl⟩ := Store.setNx_eq_some hset
  exact Store.until_setex (fun hne => absurd rfl hne) fun _ => ⟨by decide, le_rfl⟩

theorem BlockedUntil.mono {redis : Redis} {jti : String} {e e' : ℕ}
    (h : BlockedUntil redis jti e) (hle : e' ≤ e) : BlockedUntil redis jti e' := by
  obtain ⟨v, e₁, hfind, hv, he⟩ := h
  exact ⟨v, e₁, hfind, hv, Nat.le_trans hle he⟩

/-- With the shipped lifetimes, the instant of a revocation is kept for longer than any token
that was issued before it is valid. -/
theorem exp_le_retention {now now' : ℕ} {p : Payload} (h : Issued {} now p)
    (hnow : issuedAtMs p ≤ now') : p.exp * 1000 ≤ now' + retention {} := by
  have hexp := h.times.exp
  have hlife : lifetime {} p.type * 1000 ≤ retention {} := by
    cases p.type <;> simp [lifetime, retention]
  have hms : issuedAtMs p / 1000 * 1000 ≤ issuedAtMs p := Nat.div_mul_le_self _ _
  calc p.exp * 1000 = issuedAtMs p / 1000 * 1000 + lifetime {} p.type * 1000 := by
        rw [hexp, Nat.add_mul]
    _ ≤ now' + retention {} := Nat.add_le_add (Nat.le_trans hms hnow) hlife

end Kepryx.TokenBlocklist
