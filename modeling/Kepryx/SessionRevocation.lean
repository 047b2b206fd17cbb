import Kepryx.Sessions

/-!
# Sessions across a password change

The revocation covers the tokens that were issued up to its millisecond. A request that passed
its own check earlier still issues its pair afterwards, so a session of the old password
survives exactly when such a pair is issued later than the recorded millisecond, or when the
record expires before an older token does.
-/
namespace Kepryx.SessionRevocation
open Kepryx.ExpiringStore Kepryx.TokenBlocklist Kepryx.Accounts Kepryx.Sessions Kepryx.Runs

variable {settings : Settings} {services : Services}

/-- After the change has committed, every token of the user that is accepted comes from a login
that verified its password against the new hash. -/
def NoOldSession (s : State services) : Prop :=
  ∀ newHash instant, s.change = .committed newHash instant →
    ∀ t ∈ s.issued, t.payload.sub = s.user.id → Accepted s.redis s.now t.payload →
      t.session.hash = newHash

/-- A pair is issued by a login that verified its password against the new hash or by a refresh
of such a session, or within the recorded millisecond, or to live for no time. -/
def Harmless (settings : Settings) (s : State services) (session : Session services) : Prop :=
  ∀ newHash instant, s.change.recorded = some (newHash, instant) →
    session.hash = newHash ∨ s.now ≤ instant ∨
      lifetime settings .access = 0 ∧ lifetime settings .refresh = 0

/-- The record of the revocation stays until every older token has expired or is blocked. -/
def Outlived (settings : Settings) (s : State services) (now : ℕ) : Prop :=
  ∀ newHash instant, s.change.recorded = some (newHash, instant) →
    ∀ t ∈ s.issued, t.payload.sub = s.user.id → t.session.hash ≠ newHash →
      now < t.payload.exp * 1000 → ¬ Blocked s.redis now t.payload →
        now < instant + retention settings

/-- The condition on a step. -/
structure Covered (settings : Settings) (s : State services) (e : Event) : Prop where
  issue : ∀ user session, issuing s e = some (user, session) → Harmless settings s session
  tick : ∀ elapsed, e = .tick elapsed → Outlived settings s (s.now + elapsed)

/-- The same as `NoOldSession` when the commit comes next. -/
def Severed (s : State services) : Prop :=
  ∀ newHash instant, s.change.recorded = some (newHash, instant) →
    ∀ t ∈ s.issued, t.payload.sub = s.user.id → Accepted s.redis s.now t.payload →
      t.session.hash = newHash

theorem noOldSession_of_severed {s : State services} (h : Severed s) : NoOldSession s :=
  fun newHash instant hc => h newHash instant (by rw [hc]; rfl)

theorem severed_iff (s : State services) :
    NoOldSession (step settings s .commitPassword) ↔ Severed s := by
  unfold NoOldSession Severed
  cases hc : s.change with
  | revoked loaded newHash instant =>
    simp [step, hc, Change.recorded, updateUser]
  | committed newHash instant => simp [step, hc, Change.recorded]
  | _ => simp [step, hc, Change.recorded]

/-- What holds in every state that a run reaches as long as its steps are covered. -/
structure Inv (settings : Settings) (s : State services) : Prop where
  named : s.user.id ≠ ""
  genuine : ∀ t ∈ s.issued, Issued settings s.now t.payload
  loaded : ∀ r ∈ s.requests, ∀ user session, r.issues = some (user, session) →
    user.id = s.user.id
  changing : ∀ row newHash, s.change = .verified row newHash → row.id = s.user.id
  recorded : ∀ newHash instant, s.change.recorded = some (newHash, instant) →
    instant ≤ s.now ∧ s.redis.revokedAfter.find s.user.id =
      some ⟨s.user.id, instant, instant + retention settings⟩
  covered : ∀ newHash instant, s.change.recorded = some (newHash, instant) →
    ∀ t ∈ s.issued, t.payload.sub = s.user.id → t.session.hash ≠ newHash →
      issuedAtMs t.payload ≤ instant ∨ t.payload.exp * 1000 ≤ s.now
  severed : Severed s

theorem inv_start (start : Start settings services) : Inv settings start.state where
  named := start.named
  genuine := start.genuine
  loaded := fun _ hr => (List.not_mem_nil hr).elim
  changing := fun _ _ h => by cases h
  recorded := fun _ _ h => by cases h
  covered := fun _ _ h => by cases h
  severed := fun _ _ h => by cases h

/-- The instant that a revocation check reads while the record is there. -/
theorem Inv.get {s : State services} (h : Inv settings s) {newHash : String} {instant now : ℕ}
    (hrec : s.change.recorded = some (newHash, instant)) :
    s.redis.revokedAfter.get now s.user.id =
      if now < instant + retention settings then some instant else none := by
  have hfind := (h.recorded newHash instant hrec).2
  by_cases halive : now < instant + retention settings
  · rw [if_pos halive]
    exact Store.get_eq_some.mpr ⟨_, hfind, halive⟩
  · simp [Store.get, hfind, halive, Nat.not_lt.mp halive]

theorem retention_pos (settings : Settings) : 0 < retention settings := by
  unfold retention
  omega

/-- The id of the row with which a step issues a pair. -/
theorem Inv.issuing {s : State services} (h : Inv settings s) {e : Event} {user : User}
    {session : Session services} (hi : issuing s e = some (user, session)) :
    user.id = s.user.id := by
  cases e with
  | next n accessJti refreshJti =>
    simp only [Sessions.issuing] at hi
    split at hi
    · obtain ⟨r, hr, hissues⟩ := Option.bind_eq_some_iff.mp hi
      exact h.loaded r (List.mem_of_getElem? hr) user session hissues
    · cases hi
  | _ => cases hi

/-! ## One step -/

/-- Time passes without harm exactly when the record outlives the older tokens. -/
theorem severed_tick {s : State services} (h : Inv settings s) (elapsed : ℕ) :
    Severed { s with now := s.now + elapsed } ↔ Outlived settings s (s.now + elapsed) := by
  constructor
  · intro hafter newHash instant hrec t ht hsub hold hvalid hfree
    by_contra hgone
    refine hold (hafter newHash instant hrec t ht hsub ⟨?_, ?_⟩)
    · have htimes := (h.genuine t ht).times
      exact decodeToken_isSome.mpr ⟨by have := htimes.iat; have := htimes.issued; dsimp; omega,
        hvalid⟩
    · refine isTokenRevoked_eq_false.mpr ⟨hfree, hsub ▸ h.named, fun ms hms => ?_⟩
      rw [hsub, h.get hrec, if_neg hgone] at hms
      cases hms
  · intro hout newHash instant hrec t ht hsub haccepted
    by_contra hold
    obtain ⟨hdecode, hrevoked⟩ := haccepted
    obtain ⟨hfree, -, hafter⟩ := isTokenRevoked_eq_false.mp hrevoked
    have hvalid := (decodeToken_isSome.mp hdecode).2
    have halive := hout newHash instant hrec t ht hsub hold hvalid hfree
    have hlate := hafter instant (by rw [hsub, h.get hrec, if_pos halive])
    dsimp only at hvalid
    rcases h.covered newHash instant hrec t ht hsub hold with hearly | hexpired <;> omega

/-- The tokens that exist at the revocation are all revoked by it. -/
theorem severed_revoke {s : State services} (h : Inv settings s) {row : User} {newHash : String}
    (hchange : s.change = .verified row newHash) :
    Severed { s with
      redis := revokeUserTokens settings s.redis s.now row.id
      change := .revoked row newHash s.now } := by
  intro newHash' instant hrec t ht hsub haccepted
  exfalso
  have hid := h.changing row newHash hchange
  have hlate := (isTokenRevoked_eq_false.mp haccepted.2).2.2 s.now (by
    dsimp only [revokeUserTokens]
    rw [Store.get_setex, if_pos (hid.trans hsub.symm),
      if_pos (by have := retention_pos settings; omega)])
  have hissued := (h.genuine t ht).times.issued
  omega

theorem issuedAtMs_access (now : ℕ) (subject : String) (scopes : List String) (jti : String) :
    issuedAtMs (createAccessToken settings now subject scopes jti) = now :=
  issuedAtMs_create rfl rfl

theorem issuedAtMs_refresh (now : ℕ) (subject jti : String) :
    issuedAtMs (createRefreshToken settings now subject jti) = now :=
  issuedAtMs_create rfl rfl

/-- A token that is there after a pair was issued was there before or is of the pair. -/
theorem mem_issuePair {s : State services} {user : User} {session : Session services}
    {accessJti refreshJti : String} {t : Token services}
    (ht : t ∈ (issuePair settings s accessJti refreshJti user session).issued) :
    t ∈ s.issued ∨ t.session = session ∧ issuedAtMs t.payload = s.now ∧
      t.payload.exp = s.now / 1000 + lifetime settings t.payload.type := by
  rcases List.mem_append.mp ht with ht | ht
  · exact .inl ht
  · right
    simp only [List.mem_cons, List.not_mem_nil, or_false] at ht
    rcases ht with rfl | rfl
    · exact ⟨rfl, issuedAtMs_access .., rfl⟩
    · exact ⟨rfl, issuedAtMs_refresh .., rfl⟩

theorem lifetime_eq_zero
    (h : lifetime settings .access = 0 ∧ lifetime settings .refresh = 0) (type : TokenType) :
    lifetime settings type = 0 := by
  cases type with
  | access => exact h.1
  | refresh => exact h.2

/-- A token that was just issued later than the recorded millisecond is accepted for as long as
it lives. -/
theorem accepted_new {s : State services} (h : Inv settings s) {newHash : String} {instant : ℕ}
    (hrec : s.change.recorded = some (newHash, instant)) (hlate : instant < s.now) {p : Payload}
    (hsub : p.sub = s.user.id) (hjti : Unused s p.jti) (hiat : p.iat = s.now / 1000)
    (hms : issuedAtMs p = s.now) (hexp : p.exp = s.now / 1000 + lifetime settings p.type)
    (hlife : lifetime settings p.type ≠ 0) : Accepted s.redis s.now p := by
  refine ⟨decodeToken_isSome.mpr ⟨by omega, by omega⟩, isTokenRevoked_eq_false.mpr ⟨?_, ?_, ?_⟩⟩
  · rintro (hempty | hmarked)
    · exact hjti.1 hempty
    · rw [hjti.2.1] at hmarked
      cases hmarked
  · exact hsub ▸ h.named
  · intro ms hget
    rw [hsub, h.get hrec] at hget
    split at hget
    · cases hget
      omega
    · cases hget

/-- A pair is issued without harm exactly when it is covered. -/
theorem severed_issue {s : State services} (h : Inv settings s) {user : User}
    {session : Session services} {accessJti refreshJti : String} (hid : user.id = s.user.id)
    (hdrawn : Drawn s accessJti refreshJti) :
    Severed (issuePair settings s accessJti refreshJti user session) ↔
      Harmless settings s session := by
  constructor
  · intro hafter newHash instant hrec
    by_contra hnot
    simp only [not_or, not_and_or, not_le] at hnot
    obtain ⟨hold, hlate, hlife⟩ := hnot
    rcases hlife with hlife | hlife
    · refine hold (hafter newHash instant hrec
        ⟨createAccessToken settings s.now user.id [user.role] accessJti, session⟩
        (by simp [issuePair]) hid ?_)
      exact accepted_new h hrec hlate hid hdrawn.1 rfl (issuedAtMs_access ..) rfl hlife
    · refine hold (hafter newHash instant hrec
        ⟨createRefreshToken settings s.now user.id refreshJti, session⟩
        (by simp [issuePair]) hid ?_)
      exact accepted_new h hrec hlate hid hdrawn.2.1 rfl (issuedAtMs_refresh ..) rfl hlife
  · intro hharmless newHash instant hrec t ht hsub haccepted
    rcases mem_issuePair ht with ht | ⟨rfl, hms, hexp⟩
    · exact h.severed newHash instant hrec t ht hsub haccepted
    rcases hharmless newHash instant hrec with hnew | hearly | hzero
    · exact hnew
    · have hrecord := (h.recorded newHash instant hrec).1
      have halive : s.now < instant + retention settings := by
        have := retention_pos settings
        omega
      have hget : s.redis.revokedAfter.get s.now t.payload.sub = some instant := by
        rw [show t.payload.sub = s.user.id from hsub, h.get hrec, if_pos halive]
      have hlate := (isTokenRevoked_eq_false.mp haccepted.2).2.2 instant hget
      omega
    · have hvalid := (decodeToken_isSome.mp haccepted.1).2
      have hlife := lifetime_eq_zero hzero t.payload.type
      dsimp only [issuePair] at hvalid
      omega

theorem covered_of_none {s : State services} {e : Event} (hissuing : issuing s e = none)
    (hevent : ∀ elapsed, e ≠ .tick elapsed) : Covered settings s e := by
  constructor
  · intro user session hi
    rw [hissuing] at hi
    cases hi
  · intro elapsed he
    exact absurd he (hevent elapsed)

/-- A step keeps the old sessions out exactly when it is covered. -/
theorem covered_iff {s : State services} (h : Inv settings s) (e : Event) :
    Covered settings s e ↔ Severed (step settings s e) := by
  cases step_effect settings s e with
  | tick elapsed event state =>
    subst event
    rw [state, severed_tick h elapsed]
    refine ⟨fun hc => hc.tick elapsed rfl, fun hout => ⟨?_, ?_⟩⟩
    · intro user session hi
      cases hi
    · intro elapsed' he
      cases he
      exact hout
  | revoke row newHash event before state =>
    subst event
    rw [state]
    exact iff_of_true (covered_of_none rfl (by simp)) (severed_revoke h before)
  | issue user session accessJti refreshJti requests issuing drawn state =>
    rw [state]
    refine Iff.trans ?_ (severed_issue h (h.issuing issuing) drawn).symm
    refine ⟨fun hc => hc.issue user session issuing, fun hharmless => ⟨?_, ?_⟩⟩
    · intro user' session' hi
      rw [issuing] at hi
      cases hi
      exact hharmless
    · rintro elapsed rfl
      cases issuing
  | quiet event issuing same issued recorded =>
    apply iff_of_true (covered_of_none issuing event)
    intro newHash instant hrec t ht hsub haccepted
    rcases recorded with hsame | hnone
    · rw [issued] at ht
      exact h.severed newHash instant (hsame ▸ hrec) t ht (hsub.trans same.user)
        (same.accepted haccepted)
    · rw [hnone] at hrec
      cases hrec

/-! ## Runs -/

theorem genuine_step {s : State services} (h : Inv settings s) (e : Event) :
    ∀ t ∈ (step settings s e).issued, Issued settings (step settings s e).now t.payload := by
  intro t ht
  cases step_effect settings s e with
  | tick elapsed event state =>
    rw [state] at ht ⊢
    exact (h.genuine t ht).later (Nat.le_add_right _ _)
  | revoke row newHash event before state =>
    rw [state] at ht ⊢
    exact h.genuine t ht
  | issue user session accessJti refreshJti requests issuing drawn state =>
    rw [state] at ht ⊢
    rcases List.mem_append.mp ht with ht | ht
    · exact h.genuine t ht
    · simp only [List.mem_cons, List.not_mem_nil, or_false] at ht
      rcases ht with rfl | rfl
      · exact ⟨s.now, le_rfl, user.id, [user.role], accessJti, drawn.1.1, .inl rfl⟩
      · exact ⟨s.now, le_rfl, user.id, [], refreshJti, drawn.2.1.1, .inr rfl⟩
  | quiet event issuing same issued recorded =>
    rw [issued] at ht
    rw [same.now]
    exact h.genuine t ht

theorem recorded_step {s : State services} (h : Inv settings s) (e : Event) {newHash : String}
    {instant : ℕ} (hrec : (step settings s e).change.recorded = some (newHash, instant)) :
    instant ≤ (step settings s e).now ∧
      (step settings s e).redis.revokedAfter.find s.user.id =
        some ⟨s.user.id, instant, instant + retention settings⟩ := by
  cases step_effect settings s e with
  | tick elapsed event state =>
    rw [state] at hrec ⊢
    obtain ⟨hle, hfind⟩ := h.recorded newHash instant hrec
    exact ⟨Nat.le_trans hle (Nat.le_add_right _ _), hfind⟩
  | revoke row newHash' event before state =>
    rw [state] at hrec ⊢
    cases hrec
    have hid := h.changing row newHash before
    refine ⟨le_rfl, ?_⟩
    dsimp only [revokeUserTokens, Store.setex]
    rw [Tables.Table.find_upsert, if_pos hid, hid]
  | issue user session accessJti refreshJti requests issuing drawn state =>
    rw [state] at hrec ⊢
    exact h.recorded newHash instant hrec
  | quiet event issuing same issued recorded =>
    rw [same.now, same.revokedAfter]
    rcases recorded with hsame | hnone
    · exact h.recorded newHash instant (hsame ▸ hrec)
    · rw [hnone] at hrec
      cases hrec

theorem covered_step {s : State services} (h : Inv settings s) {e : Event}
    (hc : Covered settings s e) {newHash : String} {instant : ℕ}
    (hrec : (step settings s e).change.recorded = some (newHash, instant)) {t : Token services}
    (ht : t ∈ (step settings s e).issued) (hsub : t.payload.sub = s.user.id)
    (hold : t.session.hash ≠ newHash) :
    issuedAtMs t.payload ≤ instant ∨ t.payload.exp * 1000 ≤ (step settings s e).now := by
  cases step_effect settings s e with
  | tick elapsed event state =>
    rw [state] at hrec ht ⊢
    rcases h.covered newHash instant hrec t ht hsub hold with hearly | hexpired
    · exact .inl hearly
    · exact .inr (Nat.le_trans hexpired (Nat.le_add_right _ _))
  | revoke row newHash' event before state =>
    rw [state] at hrec ht
    cases hrec
    exact .inl (h.genuine t ht).times.issued
  | issue user session accessJti refreshJti requests issuing drawn state =>
    rw [state] at hrec ht ⊢
    rcases mem_issuePair ht with ht | ⟨rfl, hms, hexp⟩
    · exact h.covered newHash instant hrec t ht hsub hold
    rcases hc.issue user t.session issuing newHash instant hrec with hnew | hearly | hzero
    · exact absurd hnew hold
    · exact .inl (hms ▸ hearly)
    · have hlife := lifetime_eq_zero hzero t.payload.type
      refine .inr ?_
      dsimp only [issuePair]
      omega
  | quiet event issuing same issued recorded =>
    rw [issued] at ht
    rw [same.now]
    rcases recorded with hsame | hnone
    · exact h.covered newHash instant (hsame ▸ hrec) t ht hsub hold
    · rw [hnone] at hrec
      cases hrec

theorem inv_step {s : State services} (h : Inv settings s) {e : Event}
    (hc : Covered settings s e) : Inv settings (step settings s e) where
  named := by
    rw [user_id_step]
    exact h.named
  genuine := genuine_step h e
  loaded := by
    intro r hr user session hi
    rw [user_id_step]
    rcases issues_step hr hi with rfl | ⟨r', hr', hi'⟩
    · rfl
    · exact h.loaded r' hr' user session hi'
  changing := by
    intro row newHash hchange
    rw [user_id_step]
    rcases verified_step hchange with rfl | hchange
    · rfl
    · exact h.changing row newHash hchange
  recorded := by
    intro newHash instant hrec
    rw [user_id_step]
    exact recorded_step h e hrec
  covered := by
    intro newHash instant hrec t ht hsub hold
    rw [user_id_step] at hsub
    exact covered_step h hc hrec ht hsub hold
  severed := (covered_iff h e).mp hc

theorem lifetime_refresh_le (settings : Settings) :
    lifetime settings .refresh * 1000 ≤ retention settings := by
  simp only [lifetime, retention]
  omega

/-- As shipped, and whenever an access token lives no longer than the record of a revocation,
the passing of time is covered. -/
theorem outlived_of_lifetime {s : State services} (h : Inv settings s)
    (hlife : lifetime settings .access * 1000 ≤ retention settings) (now : ℕ)
    (hnow : s.now ≤ now) : Outlived settings s now := by
  intro newHash instant hrec t ht hsub hold hvalid hfree
  have hexp := (h.genuine t ht).times.exp
  have hall : lifetime settings t.payload.type * 1000 ≤ retention settings := by
    cases t.payload.type
    · exact hlife
    · exact lifetime_refresh_le settings
  rcases h.covered newHash instant hrec t ht hsub hold with hearly | hexpired <;> omega

/-- With such lifetimes a run is covered as soon as its pairs are. -/
theorem along_covered_iff (hlife : lifetime settings .access * 1000 ≤ retention settings)
    (start : Start settings services) (es : List Event) :
    Along (step settings)
        (fun s e => ∀ user session, issuing s e = some (user, session) →
          Harmless settings s session) start.state es ↔
      Along (step settings) (Covered settings) start.state es := by
  have hiff : ∀ (s : State services) (e : Event), Inv settings s →
      ((∀ user session, issuing s e = some (user, session) → Harmless settings s session) ↔
        Covered settings s e) := by
    refine fun s e hs => ⟨fun hissue => ⟨hissue, ?_⟩, fun hc => hc.issue⟩
    rintro elapsed rfl
    exact outlived_of_lifetime hs hlife _ (Nat.le_add_right _ _)
  exact along_iff_of_invariant (Inv settings) hiff
    (fun s e hs hissue => inv_step hs ((hiff s e hs).mp hissue)) (inv_start start) es

/-- For any user and any interleaving of logins, refreshes and one change of the password:
wherever the commit comes, no accepted token of the user stems from an older login exactly when
no such login or refresh issues its pair later than the recorded millisecond and the record
outlives the older tokens. Then no accepted token does in any state after the commit. -/
theorem old_sessions_end_iff (start : Start settings services) (es : List Event) :
    (Along (step settings)
        (fun s e => NoOldSession (step settings (step settings s e) .commitPassword))
        start.state es ↔
      Along (step settings) (Covered settings) start.state es) ∧
    (Along (step settings) (Covered settings) start.state es →
      Along (step settings) (fun s e => NoOldSession (step settings s e)) start.state es) := by
  have hiff : Along (step settings) (Covered settings) start.state es ↔
      Along (step settings) (fun s e => Severed (step settings s e)) start.state es :=
    along_iff_of_invariant (Inv settings) (fun s e hs => covered_iff hs e)
      (fun s e hs hc => inv_step hs hc) (inv_start start) es
  constructor
  · simp only [severed_iff]
    exact hiff.symm
  · intro hc
    exact (hiff.mp hc).mono fun s e h => noOldSession_of_severed h

/-- A hasher without salt, and no second factor. -/
def plainServices : Services where
  hash := fun password _ => "hash:" ++ password
  verifyHash := fun password hash => hash = "hash:" ++ password
  verifyTotp := fun _ _ _ => false
  encryptSecret := fun secret _ => secret
  decryptSecret := fun ciphertext _ => some ciphertext
  validatePassword := fun _ _ => .ok ()

def alice : User :=
  ⟨"42", "alice", "hash:before", "analyst", none, false, 0, none, none, true⟩

/-- No token has been issued yet. -/
def firstDay : Start {} plainServices :=
  ⟨1000, ⟨.empty, .empty⟩, alice, by decide, [], fun _ ht => (List.not_mem_nil ht).elim⟩

/-- A login with the old password issues its pair one millisecond after the revocation. -/
theorem old_session_survives :
    ¬ ∀ es : List Event,
      Along (step {}) (fun s e => NoOldSession (step {} s e)) firstDay.state es := by
  intro h
  have hrun := h [.login ⟨"alice", "before", none⟩ "", .verifyPassword ⟨"before", "after"⟩ "",
    .revokeTokens, .tick 1, .next 0 "access" "refresh", .commitPassword]
  have hlast := hrun.2.2.2.2.2.1 "hash:after" 1000 rfl
    ⟨createAccessToken {} 1001 "42" ["analyst"] "access", ⟨"before", "hash:before", rfl⟩⟩
    (List.mem_cons_self ..) rfl (by decide +kernel)
  exact absurd hlast (by decide)

end Kepryx.SessionRevocation
