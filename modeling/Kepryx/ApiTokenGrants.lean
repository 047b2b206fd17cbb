import Kepryx.ApiTokens

/-!
# What API tokens let pass

The live rows are those of the tokens that were created and not revoked, whatever requests and
revocations overlap. A service gets through with such a token alone.
-/
namespace Kepryx.ApiTokens
open Kepryx.Accounts Kepryx.Erasure Kepryx.IpNetworks Kepryx.Issuance Kepryx.ManagementNetwork
open Kepryx.Results Kepryx.Runs Kepryx.Tables Kepryx.UnitOfWork

variable {env : Environment}

/-! ## Rows and what they were issued for -/

/-- The row belongs to the issued token. -/
structure Of (env : Environment) (a : Issue) (t : TokenRow) : Prop where
  id : t.id = a.id
  name : t.name = a.name
  scopes : t.scopes = a.scopes
  expiresAt : t.expiresAt = a.expiresAt
  tokenPrefix : t.tokenPrefix = firstTwelve a.token
  tokenHash : ∃ salt, t.tokenHash = env.services.hash a.token salt
  issuedPrefix : a.tokenPrefix = firstTwelve a.token
  mark : hasMark a.token

/-- A hash is verified by the text that it was made of, and by no other. -/
def HashesApart (services : Services) : Prop :=
  ∀ text salt given, services.verifyHash given (services.hash text salt) = true ↔ given = text

theorem Of.verify {a : Issue} {t : TokenRow} (h : Of env a t) (hhash : HashesApart env.services)
    (given : String) : env.services.verifyHash given t.tokenHash = true ↔ given = a.token := by
  obtain ⟨salt, hsalt⟩ := h.tokenHash
  rw [hsalt]
  exact hhash a.token salt given

/-- A row belongs to one issued token. -/
theorem Of.unique {a b : Issue} {t : TokenRow} (hhash : HashesApart env.services)
    (ha : Of env a t) (hb : Of env b t) : a = b := by
  have htoken : a.token = b.token :=
    (hb.verify hhash a.token).mp ((ha.verify hhash a.token).mpr rfl)
  have hprefix : a.tokenPrefix = b.tokenPrefix := by rw [ha.issuedPrefix, hb.issuedPrefix, htoken]
  obtain ⟨ida, namea, tokena, prefixa, scopesa, expa⟩ := a
  obtain ⟨idb, nameb, tokenb, prefixb, scopesb, expb⟩ := b
  obtain rfl : ida = idb := ha.id.symm.trans hb.id
  obtain rfl : namea = nameb := ha.name.symm.trans hb.name
  obtain rfl : scopesa = scopesb := ha.scopes.symm.trans hb.scopes
  obtain rfl : expa = expb := ha.expiresAt.symm.trans hb.expiresAt
  cases htoken
  cases hprefix
  rfl

/-- What a successful creation stores and answers. -/
theorem createToken_ok {s s' : State} {r : Erasure.Request} {user : Except HttpError Person}
    {body : TokenCreate} {draw : Draw} {a : Issue}
    (h : createToken env s r user body draw = .ok (s', a)) :
    ∃ row, Of env a row ∧ row.revoked = false ∧ row.usageCount = 0 ∧ row.lastUsed = none ∧
      s.tokens.insert? row = some s'.tokens ∧ s'.now = s.now ∧ s'.inflight = s.inflight := by
  obtain ⟨admin, -, h⟩ := bind_eq_ok.mp h
  obtain ⟨-, h⟩ := guard_eq_ok.mp h
  obtain ⟨-, h⟩ := guard_eq_ok.mp h
  split at h
  · cases h
  · rename_i tokens hinsert
    cases h
    refine ⟨newToken env s admin body draw, ⟨rfl, rfl, rfl, rfl, rfl, ⟨draw.salt, rfl⟩, rfl, ?_⟩,
      rfl, rfl, rfl, hinsert, rfl, rfl⟩
    rw [hasMark, List.isPrefixOf_iff_prefix, String.toList_append]
    exact List.prefix_append _ _

theorem issues_unique {s : State} {e : Event} {a b : Issue} (ha : Issues env s e a)
    (hb : Issues env s e b) : a = b := by
  obtain ⟨r, user, body, draw, s', rfl, ha⟩ := ha
  obtain ⟨r', user', body', draw', s'', he, hb⟩ := hb
  cases he
  rw [ha] at hb
  cases hb
  rfl

theorem revokeToken_ok {s : State} {r : Erasure.Request} {user : Except HttpError Person}
    {id : String} {p : Pending} (h : revokeToken env s r user id = .ok p) :
    ∃ token entry, p = .revoke token entry ∧ token ∈ s.tokens.rows ∧ token.id = id := by
  unfold revokeToken at h
  obtain ⟨admin, -, h⟩ := bind_eq_ok.mp h
  split at h
  · cases h
  · rename_i token hfind
    obtain ⟨hmem, hid⟩ := Table.find_eq_some.mp hfind
    cases h
    exact ⟨token, _, rfl, hmem, hid⟩

theorem verifyApiToken_mem {order : RowOrder} {s : State} {token : String} {t : TokenRow}
    (h : verifyApiToken env order s token = some t) : t ∈ s.tokens.rows := by
  unfold verifyApiToken at h
  split at h
  · cases h
  · have hmem := (order.perm _).mem_iff.mp (List.mem_of_find?_eq_some h)
    exact (List.mem_filter.mp hmem).1

theorem admitted_mem {s : State} {q : Query} {t : TokenRow} (h : admitted env s q = some t) :
    t ∈ s.tokens.rows := by
  unfold admitted at h
  split at h
  · obtain ⟨key, -, hverify⟩ := Option.bind_eq_some_iff.mp h
    exact verifyApiToken_mem hverify
  · cases h

/-- What an event does: it creates a token, or commits a request, or leaves the rows alone. -/
inductive Effect (env : Environment) (s : State) (e : Event) : Prop
  | creates (a : Issue) (row : TokenRow) (hissues : Issues env s e a) (hof : Of env a row)
      (hrevoked : row.revoked = false) (husage : row.usageCount = 0)
      (hinsert : s.tokens.insert? row = some (step env s e).tokens)
      (hinflight : (step env s e).inflight = s.inflight)
  | commits (n : ℕ) (p : Pending) (he : e = .finish n true) (hp : s.inflight[n]? = some p)
      (htokens : (step env s e).tokens = s.tokens.mapRows p.overwrite p.overwrite_id)
      (hinflight : (step env s e).inflight = s.inflight.eraseIdx n)
  | loads (htokens : (step env s e).tokens = s.tokens) (hissues : ∀ a, ¬ Issues env s e a)
      (hfinish : ∀ n p, e = .finish n true → s.inflight[n]? ≠ some p)
      (hinflight : ∀ p ∈ (step env s e).inflight,
        p ∈ s.inflight ∨ p.loaded ∈ s.tokens.rows)

/-- Only a creation issues a token. -/
theorem not_issues {s : State} {e : Event}
    (he : ∀ r user body draw, e ≠ .create r user body draw) (a : Issue) : ¬ Issues env s e a := by
  rintro ⟨r, user, body, draw, s', hcreate, -⟩
  exact he r user body draw hcreate

theorem Effect.unchanged {s : State} {e : Event} (hstep : step env s e = s)
    (hissues : ∀ a, ¬ Issues env s e a)
    (hfinish : ∀ n p, e = .finish n true → s.inflight[n]? ≠ some p) : Effect env s e :=
  .loads (by rw [hstep]) hissues hfinish fun p hp => .inl (by rwa [hstep] at hp)

variable (env) in
theorem effect (s : State) (e : Event) : Effect env s e := by
  cases e with
  | tick microseconds =>
    exact .loads rfl (not_issues (by simp)) (fun n p he => by cases he) fun p hp => .inl hp
  | create r user body draw =>
    cases h : createToken env s r user body draw with
    | ok created =>
      obtain ⟨s', a⟩ := created
      have hstep : step env s (.create r user body draw) = s' := by simp only [step, h]
      obtain ⟨row, hof, hrevoked, husage, -, hinsert, -, hinflight⟩ := createToken_ok h
      rw [← hstep] at hinsert hinflight
      exact .creates a row ⟨r, user, body, draw, s', rfl, h⟩ hof hrevoked husage hinsert hinflight
    | error e =>
      have hstep : step env s (.create r user body draw) = s := by simp only [step, h]
      refine .unchanged hstep ?_ fun n p he => by cases he
      rintro a ⟨r', user', body', draw', s', he, hok⟩
      cases he
      rw [h] at hok
      cases hok
  | request q =>
    have hnone : ∀ a, ¬ Issues env s (.request q) a := not_issues (by simp)
    cases h : admitted env s q with
    | none =>
      have hstep : step env s (.request q) = s := by simp only [step, h]
      exact .unchanged hstep hnone fun n p he => by cases he
    | some loaded =>
      have hstep : step env s (.request q) =
          { s with inflight := s.inflight ++ [.use loaded s.now] } := by simp only [step, h]
      refine .loads (by rw [hstep]) hnone (fun n p he => by cases he) fun p hp => ?_
      rw [hstep] at hp
      rcases List.mem_append.mp hp with hp | hp
      · exact .inl hp
      · rw [List.mem_singleton.mp hp]
        exact .inr (admitted_mem h)
  | revoke r user id =>
    have hnone : ∀ a, ¬ Issues env s (.revoke r user id) a := not_issues (by simp)
    cases h : revokeToken env s r user id with
    | error e =>
      have hstep : step env s (.revoke r user id) = s := by simp only [step, h]
      exact .unchanged hstep hnone fun n p he => by cases he
    | ok p' =>
      have hstep : step env s (.revoke r user id) =
          { s with inflight := s.inflight ++ [p'] } := by simp only [step, h]
      refine .loads (by rw [hstep]) hnone (fun n p he => by cases he) fun p hp => ?_
      rw [hstep] at hp
      obtain ⟨token, entry, rfl, hmem, -⟩ := revokeToken_ok h
      rcases List.mem_append.mp hp with hp | hp
      · exact .inl hp
      · rw [List.mem_singleton.mp hp]
        exact .inr hmem
  | finish n committed =>
    have hnone : ∀ a, ¬ Issues env s (.finish n committed) a := not_issues (by simp)
    cases h : s.inflight[n]? with
    | none =>
      have hstep : step env s (.finish n committed) = s := by simp only [step, h]
      refine .unchanged hstep hnone fun m p he hp => ?_
      cases he
      rw [h] at hp
      cases hp
    | some p =>
      cases committed with
      | true =>
        have hstep : step env s (.finish n true) =
            p.commit { s with inflight := s.inflight.eraseIdx n } := by simp only [step, h, if_true]
        exact .commits n p rfl h (by rw [hstep]; rfl) (by rw [hstep]; rfl)
      | false =>
        have hstep : step env s (.finish n false) =
            { s with inflight := s.inflight.eraseIdx n } := by
          simp only [step, h, Bool.false_eq_true, if_false]
        refine .loads (by rw [hstep]) hnone (fun m p he => by cases he) fun p hp => .inl ?_
        rw [hstep] at hp
        exact List.mem_of_mem_eraseIdx hp

/-! ## One step -/

/-- Every row was issued, and what is loaded as revoked is stored as revoked. -/
structure Consistent (env : Environment) (s : State) : Prop where
  described : ∀ t ∈ s.tokens.rows, ∃ a, Of env a t
  settled : ∀ p ∈ s.inflight, p.loaded.revoked = true →
    ∃ t ∈ s.tokens.rows, t.id = p.loaded.id ∧ t.revoked = true

theorem Pending.overwrite_of {p : Pending} {a : Issue} {t : TokenRow} :
    Of env a (p.overwrite t) ↔ Of env a t := by
  have hkeep : ∀ {t t' : TokenRow}, t'.toAPIToken = t.toAPIToken → t'.expiresAt = t.expiresAt →
      t'.tokenPrefix = t.tokenPrefix → t'.tokenHash = t.tokenHash → Of env a t → Of env a t' := by
    intro t t' htoken hexpires hprefix hhash h
    exact ⟨htoken ▸ h.id, htoken ▸ h.name, htoken ▸ h.scopes, hexpires ▸ h.expiresAt,
      hprefix ▸ h.tokenPrefix, hhash ▸ h.tokenHash, h.issuedPrefix, h.mark⟩
  unfold Pending.overwrite
  split
  · cases p with
    | use loaded time => exact ⟨hkeep rfl rfl rfl rfl, hkeep rfl rfl rfl rfl⟩
    | revoke loaded entry => exact ⟨hkeep rfl rfl rfl rfl, hkeep rfl rfl rfl rfl⟩
  · exact Iff.rfl

theorem Pending.overwrite_eq {p : Pending} {t : TokenRow} (h : t.id = p.loaded.id) :
    p.overwrite t = p.written t := if_pos h

theorem Pending.overwrite_ne {p : Pending} {t : TokenRow} (h : t.id ≠ p.loaded.id) :
    p.overwrite t = t := if_neg h

/-- A revoked row stays revoked. -/
theorem Pending.overwrite_revoked {p : Pending} {t : TokenRow} (h : t.revoked = true) :
    (p.overwrite t).revoked = true := by
  unfold Pending.overwrite
  split
  · cases p with
    | use loaded time => exact h
    | revoke loaded entry =>
      simp only [Pending.written, writeBack]
      split
      · exact h
      · rfl
  · exact h

theorem exists_revoked_step {s : State} (e : Event) {id : String}
    (h : ∃ t ∈ s.tokens.rows, t.id = id ∧ t.revoked = true) :
    ∃ t ∈ (step env s e).tokens.rows, t.id = id ∧ t.revoked = true := by
  obtain ⟨t, ht, hid, hrevoked⟩ := h
  cases effect env s e with
  | creates a row _ _ _ _ hinsert =>
    exact ⟨t, (Table.mem_insert? hinsert).mpr (.inl ht), hid, hrevoked⟩
  | commits n p _ _ htokens =>
    rw [htokens]
    exact ⟨p.overwrite t, List.mem_map.mpr ⟨t, ht, rfl⟩, (p.overwrite_id t).trans hid,
      Pending.overwrite_revoked hrevoked⟩
  | loads htokens =>
    rw [htokens]
    exact ⟨t, ht, hid, hrevoked⟩

theorem consistent_step {s : State} (h : Consistent env s) (e : Event) :
    Consistent env (step env s e) := by
  constructor
  · intro t ht
    cases effect env s e with
    | creates a row _ hof _ _ hinsert =>
      rcases (Table.mem_insert? hinsert).mp ht with ht | rfl
      · exact h.described t ht
      · exact ⟨a, hof⟩
    | commits n p _ _ htokens =>
      rw [htokens] at ht
      obtain ⟨stored, hstored, rfl⟩ := List.mem_map.mp ht
      obtain ⟨a, hof⟩ := h.described stored hstored
      exact ⟨a, Pending.overwrite_of.mpr hof⟩
    | loads htokens =>
      rw [htokens] at ht
      exact h.described t ht
  · intro p hp hrevoked
    cases effect env s e with
    | creates _ _ _ _ _ _ _ hinflight =>
      rw [hinflight] at hp
      exact exists_revoked_step e (h.settled p hp hrevoked)
    | commits _ _ _ _ _ hinflight =>
      rw [hinflight] at hp
      exact exists_revoked_step e (h.settled p (List.mem_of_mem_eraseIdx hp) hrevoked)
    | loads _ _ _ hinflight =>
      rcases hinflight p hp with hold | hloaded
      · exact exists_revoked_step e (h.settled p hold hrevoked)
      · exact exists_revoked_step e ⟨p.loaded, hloaded, rfl, hrevoked⟩

theorem consistent_start (now : ℤ) : Consistent env (start now) :=
  ⟨fun _ ht => absurd ht List.not_mem_nil, fun _ hp => absurd hp List.not_mem_nil⟩

variable (env) in
theorem consistent_run (now : ℤ) (es : List Event) :
    Consistent env (run (step env) (start now) es) :=
  run_invariant (Consistent env) (fun _ e hs => consistent_step hs e) (consistent_start now) es

/-- A row of the token is stored and not revoked. -/
def Live (env : Environment) (s : State) (a : Issue) : Prop :=
  ∃ t ∈ s.tokens.rows, Of env a t ∧ t.revoked = false

/-- The commit of a revocation leaves the rows under other identifiers as they are not revoked. -/
theorem overwrite_live {s : State} (hs : Consistent env s) {p : Pending} (hp : p ∈ s.inflight)
    {t : TokenRow} (ht : t ∈ s.tokens.rows) :
    (p.overwrite t).revoked = false ↔
      t.revoked = false ∧ ∀ loaded entry, p = .revoke loaded entry → loaded.id ≠ t.id := by
  cases p with
  | use loaded time =>
    have hsame : ((Pending.use loaded time).overwrite t).revoked = t.revoked := by
      unfold Pending.overwrite
      split <;> rfl
    rw [hsame]
    exact ⟨fun h => ⟨h, fun _ _ he => by cases he⟩, fun h => h.1⟩
  | revoke loaded entry =>
    by_cases hid : t.id = loaded.id
    · have hrevoked : ((Pending.revoke loaded entry).overwrite t).revoked = true := by
        rw [Pending.overwrite_eq hid]
        simp only [Pending.written, writeBack]
        split
        · rename_i hloaded
          obtain ⟨t', ht', hid', hrevoked⟩ := hs.settled _ hp hloaded.symm
          rwa [Table.eq_of_key ht ht' (hid.trans hid'.symm)]
        · rfl
      rw [hrevoked]
      exact iff_of_false (by simp) fun h => h.2 loaded entry rfl hid.symm
    · rw [Pending.overwrite_ne hid]
      refine ⟨fun h => ⟨h, ?_⟩, fun h => h.1⟩
      rintro _ _ ⟨⟩
      exact Ne.symm hid

/-- A step changes the live tokens by what it issues and revokes. -/
theorem live_step (hhash : HashesApart env.services) {s : State} (hs : Consistent env s) (e : Event)
    (a : Issue) :
    Live env (step env s e) a ↔ Issues env s e a ∨ Live env s a ∧ ¬ Revokes s e a := by
  cases effect env s e with
  | creates b row hissues hof hrevoked _ hinsert =>
    have hnone : ¬ Revokes s e a := by
      rintro ⟨n, loaded, entry, rfl, -⟩
      obtain ⟨r, user, body, draw, s', he, -⟩ := hissues
      cases he
    constructor
    · rintro ⟨t, ht, hat, hlive⟩
      rcases (Table.mem_insert? hinsert).mp ht with ht | rfl
      · exact .inr ⟨⟨t, ht, hat, hlive⟩, hnone⟩
      · rw [hat.unique hhash hof]
        exact .inl hissues
    · rintro (ha | ⟨⟨t, ht, hat, hlive⟩, -⟩)
      · rw [issues_unique ha hissues]
        exact ⟨row, (Table.mem_insert? hinsert).mpr (.inr rfl), hof, hrevoked⟩
      · exact ⟨t, (Table.mem_insert? hinsert).mpr (.inl ht), hat, hlive⟩
  | commits n p he hp htokens =>
    have hnone : ¬ Issues env s e a := by
      rintro ⟨r, user, body, draw, s', he', -⟩
      rw [he] at he'
      cases he'
    have hrevokes :
        Revokes s e a ↔ ∃ loaded entry, p = .revoke loaded entry ∧ loaded.id = a.id := by
      constructor
      · rintro ⟨m, loaded, entry, he', hm, hid⟩
        rw [he] at he'
        cases he'
        exact ⟨loaded, entry, Option.some.inj (hp.symm.trans hm), hid⟩
      · rintro ⟨loaded, entry, rfl, hid⟩
        exact ⟨n, loaded, entry, he, hp, hid⟩
    have hmem := List.mem_of_getElem? hp
    rw [hrevokes]
    constructor
    · rintro ⟨t, ht, hat, hlive⟩
      rw [htokens] at ht
      obtain ⟨stored, hstored, rfl⟩ := List.mem_map.mp ht
      have hof := Pending.overwrite_of.mp hat
      obtain ⟨hlive, hother⟩ := (overwrite_live hs hmem hstored).mp hlive
      refine .inr ⟨⟨stored, hstored, hof, hlive⟩, ?_⟩
      rintro ⟨loaded, entry, hrevoke, hid⟩
      exact hother loaded entry hrevoke (hid.trans hof.id.symm)
    · rintro (ha | ⟨⟨t, ht, hof, hlive⟩, hother⟩)
      · exact absurd ha hnone
      · have hkept : (p.overwrite t).revoked = false := by
          refine (overwrite_live hs hmem ht).mpr ⟨hlive, fun loaded entry hrevoke hid => ?_⟩
          exact hother ⟨loaded, entry, hrevoke, hid.trans hof.id⟩
        rw [Live, htokens]
        exact ⟨p.overwrite t, List.mem_map.mpr ⟨t, ht, rfl⟩, Pending.overwrite_of.mpr hof, hkept⟩
  | loads htokens hissues hfinish =>
    have hnone : ¬ Revokes s e a := by
      rintro ⟨n, loaded, entry, he, hn, -⟩
      exact hfinish n _ he hn
    rw [Live, htokens]
    exact ⟨fun h => .inr ⟨h, hnone⟩, fun h => (h.resolve_left (hissues a)).1⟩

/-! ## Every run -/

/-- The token was created in the run and no later event of it committed a revocation. -/
def Outstanding (env : Environment) (now : ℤ) (es : List Event) (a : Issue) : Prop :=
  Issuance.Outstanding (step env) (Issues env) Revokes (start now) es a

theorem live_iff_outstanding (hhash : HashesApart env.services) (now : ℤ) (es : List Event)
    (a : Issue) : Live env (run (step env) (start now) es) a ↔ Outstanding env now es a := by
  have hany : Along (step env) (fun _ _ => True) (start now) es :=
    along_of_forall fun _ _ _ => trivial
  refine holds_iff_outstanding (consistent_start now) ?_ (fun _ e hs _ => consistent_step hs e)
    (fun _ e a hs _ => live_step hhash hs e a) hany a
  rintro a ⟨t, ht, -⟩
  exact List.not_mem_nil ht

/-- The token was created in the run. -/
def Created (env : Environment) (now : ℤ) (es : List Event) (a : Issue) : Prop :=
  ∃ before e, before ++ [e] <+: es ∧ Issues env (run (step env) (start now) before) e a

/-- No two tokens that the run creates are the same text. -/
def DrawnApart (env : Environment) (now : ℤ) (es : List Event) : Prop :=
  ∀ a b, Created env now es a → Created env now es b → a.token = b.token → a.id = b.id

/-- The live row of a token, if the run creates each text once. -/
theorem live_unique (hhash : HashesApart env.services) {now : ℤ} {es : List Event}
    (hapart : DrawnApart env now es) {a b : Issue} {t t' : TokenRow}
    (ht : t ∈ (run (step env) (start now) es).tokens.rows) (hat : Of env a t)
    (hlive : t.revoked = false) (ht' : t' ∈ (run (step env) (start now) es).tokens.rows)
    (hbt : Of env b t') (hlive' : t'.revoked = false) (htoken : a.token = b.token) : t = t' := by
  have ha := (live_iff_outstanding hhash now es a).mp ⟨t, ht, hat, hlive⟩
  have hb := (live_iff_outstanding hhash now es b).mp ⟨t', ht', hbt, hlive'⟩
  have hid := hapart a b (outstanding_issued ha) (outstanding_issued hb) htoken
  exact Table.eq_of_key ht ht' ((hat.id.trans hid).trans hbt.id.symm)

/-- The only element that a search accepts is found. -/
theorem find?_eq_some_of_unique {α : Type*} {p : α → Bool} {xs : List α} {x : α} (hx : x ∈ xs)
    (hp : p x) (hunique : ∀ y ∈ xs, p y → y = x) : xs.find? p = some x := by
  cases h : xs.find? p with
  | none => exact absurd hp (List.find?_eq_none.mp h x hx)
  | some y => rw [hunique y (List.mem_of_find?_eq_some h) (List.find?_some h)]

/-- The tokens that the service accepts after a run. -/
theorem verifyApiToken_iff (hhash : HashesApart env.services) {now : ℤ} {es : List Event}
    (hapart : DrawnApart env now es) (order : RowOrder) (key : String) (t : TokenRow) :
    verifyApiToken env order (run (step env) (start now) es) key = some t ↔
      t ∈ (run (step env) (start now) es).tokens.rows ∧ t.revoked = false ∧
        (∃ a, Of env a t ∧ a.token = key) ∧
        ∀ expires ∈ t.expiresAt, (run (step env) (start now) es).now ≤ expires := by
  have hs := consistent_run env now es
  constructor
  · intro h
    unfold verifyApiToken at h
    split at h
    · cases h
    · have hmem := (order.perm _).mem_iff.mp (List.mem_of_find?_eq_some h)
      obtain ⟨ht, hfilter⟩ := List.mem_filter.mp hmem
      have hlive : t.revoked = false := (of_decide_eq_true hfilter).2
      have haccept := List.find?_some h
      rw [Bool.and_eq_true, Option.all_eq_true] at haccept
      obtain ⟨a, hat⟩ := hs.described t ht
      refine ⟨ht, hlive, ⟨a, hat, ((hat.verify hhash key).mp haccept.2).symm⟩, fun x hx => ?_⟩
      exact of_decide_eq_true (haccept.1 x hx)
  · rintro ⟨ht, hlive, ⟨a, hat, rfl⟩, hexpires⟩
    have hmark : ¬ (a.token = "" ∨ ¬ hasMark a.token) := by
      rintro (hempty | hnone)
      · have hmark := hat.mark
        rw [hempty] at hmark
        cases hmark
      · exact hnone hat.mark
    rw [verifyApiToken, if_neg hmark]
    refine find?_eq_some_of_unique ?_ ?_ fun t' ht' haccept => ?_
    · refine (order.perm _).mem_iff.mpr (List.mem_filter.mpr ⟨ht, ?_⟩)
      exact decide_eq_true ⟨hat.tokenPrefix, hlive⟩
    · rw [Bool.and_eq_true, Option.all_eq_true]
      exact ⟨fun x hx => decide_eq_true (hexpires x hx), (hat.verify hhash a.token).mpr rfl⟩
    · obtain ⟨ht', hfilter⟩ := List.mem_filter.mp ((order.perm _).mem_iff.mp ht')
      have hlive' : t'.revoked = false := (of_decide_eq_true hfilter).2
      obtain ⟨b, hbt⟩ := hs.described t' ht'
      rw [Bool.and_eq_true] at haccept
      have htoken := (hbt.verify hhash a.token).mp haccept.2
      exact live_unique hhash hapart ht' hbt hlive' ht hat hlive htoken.symm

/-- What an outstanding token lets pass: an unexpired one whose scopes cover the route, from the
management network where that is asked for. -/
structure Covers (env : Environment) (now : ℤ) (q : Query) (a : Issue) : Prop where
  key : sent q.credentials.apiKey = some a.token
  unexpired : ∀ expires ∈ a.expiresAt, now ≤ expires
  scope : "*" ∈ a.scopes ∨ q.scope ∈ a.scopes
  network : "*" ∈ a.scopes ∨ q.scope ∈ managementScopes →
    ensureManagementNetwork env.texts env.boundary q.origin = .ok ()

/-- The guard lets a service through with a token alone that covers the route. -/
theorem requireScope_service_iff {auth : Authentication} {scope : String} {userRoles : List String}
    {o : Origin} {c : Credentials} {username tokenId : String} :
    requireScope env.texts env.boundary auth scope userRoles o c = .ok (.service username tokenId) ↔
      sent c.bearer = none ∧ ∃ key token, sent c.apiKey = some key ∧
        auth.verifyApiToken key = some token ∧ ("*" ∈ token.scopes ∨ scope ∈ token.scopes) ∧
        ("*" ∈ token.scopes ∨ scope ∈ managementScopes →
          ensureManagementNetwork env.texts env.boundary o = .ok ()) ∧
        username = "api_token:" ++ token.name ∧ tokenId = token.id := by
  unfold requireScope
  cases hkey : sent c.apiKey with
  | none =>
    refine iff_of_false (fun h => ?_) (by simp)
    cases hbearer : sent c.bearer with
    | none =>
      rw [hbearer] at h
      cases h
    | some bearer =>
      rw [hbearer] at h
      obtain ⟨user, -, h⟩ := bind_eq_ok.mp h
      by_cases hadmin : user.role = "admin"
      · cases hnetwork : ensureManagementNetwork env.texts env.boundary o <;>
          simp [hadmin, hnetwork] at h
      · by_cases hrole : user.role ∈ userRoles <;> simp [hadmin, hrole] at h
  | some key =>
    cases hbearer : sent c.bearer with
    | some bearer => exact iff_of_false (fun h => by cases h) (by simp)
    | none =>
      cases htoken : auth.verifyApiToken key with
      | none => exact iff_of_false (fun h => by simp [htoken] at h) (by simp [htoken])
      | some token =>
        simp only [htoken, true_and, Option.some.injEq, exists_and_left, exists_eq_left']
        by_cases hscope : "*" ∈ token.scopes ∨ scope ∈ token.scopes
        · have hallowed : ¬ ("*" ∉ token.scopes ∧ scope ∉ token.scopes) := by
            rintro ⟨hall, hnone⟩
            exact hscope.elim hall hnone
          rw [if_neg hallowed]
          by_cases hmanaged : "*" ∈ token.scopes ∨ scope ∈ managementScopes
          · rw [if_pos hmanaged]
            cases hnetwork : ensureManagementNetwork env.texts env.boundary o with
            | error e => simp [hmanaged]
            | ok u =>
              simp [hscope, eq_comm]
          · rw [if_neg hmanaged]
            simp [hscope, hmanaged, eq_comm]
        · have hdenied : "*" ∉ token.scopes ∧ scope ∉ token.scopes := not_or.mp hscope
          rw [if_pos hdenied]
          exact iff_of_false (fun h => by cases h) fun h => hscope h.1

/-- A service is let through, under a name, if and only if it presents nothing but a token under
that name which was created in the run, was not revoked since, and covers the request. -/
theorem authorize_service_iff (hhash : HashesApart env.services) {now : ℤ} {es : List Event}
    (hapart : DrawnApart env now es) (q : Query) (username tokenId : String) :
    authorize env (run (step env) (start now) es) q = .ok (.service username tokenId) ↔
      sent q.credentials.bearer = none ∧ ∃ a, Outstanding env now es a ∧
        Covers env (run (step env) (start now) es).now q a ∧
        username = "api_token:" ++ a.name ∧ tokenId = a.id := by
  rw [authorize, requireScope_service_iff]
  refine and_congr_right fun _ => ?_
  constructor
  · rintro ⟨key, token, hkey, hverify, hscope, hnetwork, rfl, rfl⟩
    obtain ⟨t, ht, rfl⟩ := Option.map_eq_some_iff.mp hverify
    obtain ⟨hmem, hlive, ⟨a, hat, rfl⟩, hexpires⟩ :=
      (verifyApiToken_iff hhash hapart q.order key t).mp ht
    rw [hat.scopes] at hscope hnetwork
    rw [hat.expiresAt] at hexpires
    refine ⟨a, (live_iff_outstanding hhash now es a).mp ⟨t, hmem, hat, hlive⟩,
      ⟨hkey, hexpires, hscope, hnetwork⟩, by rw [hat.name], hat.id⟩
  · rintro ⟨a, hout, hcovers, rfl, rfl⟩
    obtain ⟨t, hmem, hat, hlive⟩ := (live_iff_outstanding hhash now es a).mpr hout
    have hexpires := hcovers.unexpired
    rw [← hat.expiresAt] at hexpires
    have ht := (verifyApiToken_iff hhash hapart q.order a.token t).mpr
      ⟨hmem, hlive, ⟨a, hat, rfl⟩, hexpires⟩
    refine ⟨a.token, t.toAPIToken, hcovers.key, Option.map_eq_some_iff.mpr ⟨t, ht, rfl⟩, ?_, ?_, ?_,
      hat.id.symm⟩
    · rw [hat.scopes]
      exact hcovers.scope
    · rw [hat.scopes]
      exact hcovers.network
    · rw [hat.name]

/-- Hashes that keep their text. -/
def plainHashes : Services :=
  { noServices with
    hash := fun text _ => text
    verifyHash := fun given hash => given = hash }

def officeEnvironment : Environment :=
  ⟨office, officeBoundary, plainHashes, zeros, fun texts => ", ".intercalate texts⟩

/-- An administrator creates a token for a backup. -/
def createBackup : Event :=
  .create (fromOffice "1") (.ok root) ⟨"backup", ["assets:read"], some 90⟩ ⟨"7", "sGx1", "salt"⟩

/-- The backup reads the assets. -/
def readAssets : Query where
  scope := "assets:read"
  userRoles := ["viewer", "analyst"]
  origin := ⟨some "198.51.100.7", none, none⟩
  credentials := ⟨none, some "kpx_sGx1"⟩
  jwtUser _ := .error serverError
  order := ⟨id, List.Perm.refl⟩

theorem drawnApart_singleton (now : ℤ) (e : Event) : DrawnApart env now [e] := by
  have honly : ∀ a, Created env now [e] a → Issues env (start now) e a := by
    rintro a ⟨before, e', ⟨rest, hrest⟩, hissues⟩
    rw [List.append_assoc, List.singleton_append] at hrest
    obtain ⟨rfl, hcons⟩ := (List.append_eq_singleton_iff.mp hrest).resolve_right fun h =>
      List.cons_ne_nil _ _ h.2
    cases hcons
    exact hissues
  intro a b ha hb _
  rw [issues_unique (honly a ha) (honly b hb)]

theorem backup_admitted : authorize officeEnvironment
    (run (step officeEnvironment) (start 0) [createBackup]) readAssets =
      .ok (.service "api_token:backup" "7") := by
  have hissues : Issues officeEnvironment (start 0) createBackup
      ⟨"7", "backup", "kpx_sGx1", "kpx_sGx1", ["assets:read"], some (90 * dayLength)⟩ :=
    ⟨_, _, _, _, _, rfl, rfl⟩
  have hhash : HashesApart officeEnvironment.services := fun _ _ _ => decide_eq_true_iff
  refine (authorize_service_iff hhash (drawnApart_singleton 0 createBackup) readAssets _ _).mpr
    ⟨rfl, _, ⟨[], createBackup, [], rfl, hissues, trivial⟩, ⟨rfl, ?_, .inr List.mem_cons_self, ?_⟩,
      rfl, rfl⟩
  · rintro expires ⟨⟩
    exact Int.mul_nonneg (by decide) (by decide)
  · intro hmanaged
    exact absurd hmanaged (by decide)

end Kepryx.ApiTokens
