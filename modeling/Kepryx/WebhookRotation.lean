import Kepryx.ApiTokenGrants
import Kepryx.WebhookSecrets

/-!
# Which secret a webhook has

The columns of a stored secret belong together and to the secret that was handed out last, however
rotations, deletions and deliveries overlap. A delivery signs with the secret of the row that it
loaded.
-/
namespace Kepryx.WebhookSecrets
open Kepryx.Accounts Kepryx.ApiTokens Kepryx.Erasure Kepryx.Issuance Kepryx.Models Kepryx.Results
open Kepryx.Runs Kepryx.StaleWrites Kepryx.Tables Kepryx.UnitOfWork Kepryx.WebhookDispatch

variable {Address : Type} {env : Environment} {U : UrlTexts Address}

/-! ## The columns of a secret -/

/-- The columns belong to the secret. -/
structure Carries (env : Environment) (secret : String) (c : SecretColumns) : Prop where
  secretHash : ∃ salt, c.secretHash = env.services.hash secret salt
  secretPrefix : c.secretPrefix = String.ofList (secret.toList.take 8)
  decrypts : env.services.decryptSecret c.secretEncrypted c.secretSalt = some secret

/-- What was encrypted is decrypted with the same salt. -/
def Decrypts (services : Services) : Prop :=
  ∀ secret salt : String, secret ≠ "" → 16 ≤ salt.length →
    services.decryptSecret (services.encryptSecret secret salt) salt = some secret

theorem carries_draw (hdecrypts : Decrypts env.services) (draw : SecretDraw) :
    Carries env draw.secret (draw.columns env) := by
  refine ⟨⟨draw.hashSalt, rfl⟩, rfl, hdecrypts _ _ ?_ ?_⟩
  · intro hempty
    have hlength := draw.secret_length
    rw [hempty] at hlength
    cases hlength
  · rw [draw.salt_length]
    decide

theorem Carries.unique {secret secret' : String} {c : SecretColumns} (h : Carries env secret c)
    (h' : Carries env secret' c) : secret = secret' :=
  Option.some.inj (h.decrypts.symm.trans h'.decrypts)

/-- No column of the one is that of the other. -/
structure Differ (c c' : SecretColumns) : Prop where
  secretHash : c'.secretHash ≠ c.secretHash
  secretPrefix : c'.secretPrefix ≠ c.secretPrefix
  secretEncrypted : c'.secretEncrypted ≠ c.secretEncrypted
  secretSalt : c'.secretSalt ≠ c.secretSalt

/-- A commit replaces all four columns if all of them were changed. -/
theorem columns_merge_of_differ {loaded current stored : WebhookRow}
    (h : Differ loaded.columns current.columns) :
    (mergeWebhook loaded current stored).columns = current.columns := by
  have hhash := writeBack_changed h.secretHash stored.secretHash
  have hprefix := writeBack_changed h.secretPrefix stored.secretPrefix
  have hencrypted := writeBack_changed h.secretEncrypted stored.secretEncrypted
  have hsalt := writeBack_changed h.secretSalt stored.secretSalt
  simp only [WebhookRow.columns] at hhash hprefix hencrypted hsalt
  simp only [WebhookRow.columns, mergeWebhook, hhash, hprefix, hencrypted, hsalt]

/-- A commit leaves the columns of a secret that was not changed. -/
theorem columns_merge_of_eq {loaded current stored : WebhookRow}
    (h : current.columns = loaded.columns) :
    (mergeWebhook loaded current stored).columns = stored.columns := by
  simp only [WebhookRow.columns, SecretColumns.mk.injEq] at h
  obtain ⟨hhash, hprefix, hencrypted, hsalt⟩ := h
  simp only [WebhookRow.columns, mergeWebhook, hhash, hprefix, hencrypted, hsalt,
    writeBack_unchanged]

/-- A delivery leaves the secret of its row. -/
theorem dispatchOne_secret {outside : Surroundings Address} {w w' : Webhook} {eventType : String}
    {data : List (String × JsonText.Json)} {result : DeliveryResult}
    (h : dispatchOne outside w eventType data = .ok (w', result)) :
    w'.secretEncrypted = w.secretEncrypted ∧ w'.secretSalt = w.secretSalt ∧ w'.id = w.id := by
  unfold dispatchOne at h
  split at h
  · cases h
  · cases h
    exact ⟨rfl, rfl, rfl⟩
  · split at h
    · cases h
      exact ⟨rfl, rfl, rfl⟩
    · cases h
      exact ⟨rfl, rfl, rfl⟩

theorem delivered_columns {outside : Surroundings Address} {w w' : WebhookRow} {eventType : String}
    {data : List (String × JsonText.Json)} (h : delivered outside eventType data w = some w') :
    w'.columns = w.columns := by
  unfold delivered at h
  split at h
  · rename_i row result hdispatch
    cases h
    obtain ⟨hencrypted, hsalt, -⟩ := dispatchOne_secret hdispatch
    simp only [WebhookRow.columns, hencrypted, hsalt]
  · cases h

/-- The columns that a task leaves in a row. -/
def Task.columns (env : Environment) : Task Address → WebhookRow → SecretColumns
  | .rotate id draw, w => if w.id = id then draw.columns env else w.columns
  | .testWebhook .., w => w.columns
  | .fireEvent .., w => w.columns

/-- A rotation alone changes the columns of its row. -/
theorem change_columns {task : Task Address} {w w' : WebhookRow}
    (h : task.change env w = some w') : w'.columns = task.columns env w := by
  cases task with
  | rotate id draw =>
    simp only [Task.change] at h
    split at h
    · rename_i hid
      cases h
      exact (if_pos hid).symm
    · cases h
  | testWebhook id outside data =>
    simp only [Task.change] at h
    split at h
    · exact delivered_columns h
    · cases h
  | fireEvent outside eventType severity data =>
    simp only [Task.change] at h
    split at h
    · exact delivered_columns h
    · cases h

theorem columns_of_ne_rotate {task : Task Address} (htask : ∀ id draw, task ≠ .rotate id draw)
    (w : WebhookRow) : task.columns env w = w.columns := by
  cases task with
  | rotate id draw => exact absurd rfl (htask id draw)
  | testWebhook id outside data => rfl
  | fireEvent outside eventType severity data => rfl

/-! ## Requests in flight -/

/-- The changes that a request holds: a rotation has changed its row in every column of the
secret, and another task has changed none of them. -/
inductive Sound (env : Environment) : Pending Address → Prop
  | rotates {id : ℕ} {draw : SecretDraw} {writes : Writes rowId} {entries : List AuditLog}
      {x : WebhookRow × WebhookRow} (hfind : writes.find id = some x)
      (hothers : ∀ k, k ≠ id → writes.find k = none) (hcolumns : x.2.columns = draw.columns env)
      (hdiffer : Differ x.1.columns (draw.columns env)) :
      Sound env (.write (.rotate id draw) writes entries)
  | delivers {task : Task Address} {writes : Writes rowId} {entries : List AuditLog}
      (htask : ∀ id draw, task ≠ .rotate id draw)
      (hsame : ∀ x ∈ writes.rows, x.2.columns = x.1.columns) :
      Sound env (.write task writes entries)
  | deletes {id : ℕ} {entries : List AuditLog} : Sound env (.delete id entries)

/-- What the commit of a request leaves in the columns of a stored row. -/
theorem commitRow_columns {task : Task Address} {writes : Writes rowId} {entries : List AuditLog}
    (h : Sound env (.write task writes entries)) (stored : WebhookRow) :
    (commitRow (protocol Address env) writes stored).columns = task.columns env stored := by
  unfold commitRow
  cases h with
  | rotates hfind hothers hcolumns hdiffer =>
    rename_i id draw x
    simp only [Task.columns]
    by_cases hid : stored.id = id
    · rw [if_pos hid, show rowId stored = id from hid, hfind]
      exact (columns_merge_of_differ (hcolumns ▸ hdiffer)).trans hcolumns
    · rw [if_neg hid, hothers _ hid]
  | delivers htask hsame =>
    rw [columns_of_ne_rotate htask]
    split
    · rename_i x hfind
      exact columns_merge_of_eq (hsame x (Table.find_eq_some.mp hfind).1)
    · rfl

/-- A rotation that commits finds the row. -/
theorem accepted_row {id : ℕ} {draw : SecretDraw} {writes : Writes rowId}
    {entries : List AuditLog}
    (h : Sound env (.write (.rotate id draw) writes entries : Pending Address))
    {webhooks : Table rowId}
    (haccepted : accepted webhooks writes) : ∃ w ∈ webhooks.rows, w.id = id := by
  cases h with
  | rotates hfind hothers hcolumns hdiffer =>
    rename_i x
    obtain ⟨hmem, hid⟩ := Table.find_eq_some.mp hfind
    have hx := List.all_eq_true.mp haccepted x hmem
    have hne : x.1 ≠ x.2 := fun heq => hdiffer.secretSalt (by rw [← hcolumns, heq])
    rw [Bool.or_eq_true, decide_eq_true_iff, Bool.and_eq_true] at hx
    obtain ⟨w, hw⟩ := Option.isSome_iff_exists.mp (hx.resolve_left hne).1
    obtain ⟨hw, hkey⟩ := Table.find_eq_some.mp hw
    exact ⟨w, hw, hkey.trans hid⟩
  | delivers htask hsame => exact absurd rfl (htask id draw)

/-- The columns that a rotation draws are all other than those of the row that it loads. -/
def Fresh (env : Environment) (s : State Address) : Event Address → Prop
  | .rotate _ _ id draw => ∀ w ∈ s.webhooks.rows, w.id = id → Differ w.columns (draw.columns env)
  | _ => True

theorem rotateSecret_ok {s : State Address} {r : Erasure.Request}
    {user : Except HttpError Person} {id : ℕ} {draw : SecretDraw} {p : Pending Address}
    (h : rotateSecret env s r user id draw = .ok p) :
    ∃ w entries, w ∈ s.webhooks.rows ∧ w.id = id ∧ p = .write (.rotate id draw)
      (readRows (protocol Address env) (.rotate id draw) s.webhooks) entries := by
  obtain ⟨admin, -, h⟩ := bind_eq_ok.mp h
  split at h
  · cases h
  · rename_i w hfind
    obtain ⟨hmem, hid⟩ := Table.find_eq_some.mp hfind
    cases h
    exact ⟨w, _, hmem, hid, rfl⟩

/-- What a rotation loads, as long as it draws other columns. -/
theorem sound_rotate {s : State Address} {r : Erasure.Request} {user : Except HttpError Person}
    {id : ℕ} {draw : SecretDraw} {p : Pending Address}
    (h : rotateSecret env s r user id draw = .ok p)
    (hfresh : Fresh env s (.rotate r user id draw)) : Sound env p := by
  obtain ⟨w, entries, hmem, hid, rfl⟩ := rotateSecret_ok h
  have hchange : ∀ x ∈ (readRows (protocol Address env) (.rotate id draw) s.webhooks).rows,
      x.1.id = id ∧ x.2 = x.1.withColumns (draw.columns env) := by
    intro x hx
    have hx := (mem_readRows.mp hx).2
    simp only [protocol, Task.change] at hx
    split at hx
    · rename_i hid
      exact ⟨hid, (Option.some.inj hx).symm⟩
    · cases hx
  have hread : (w, w.withColumns (draw.columns env)) ∈
      (readRows (protocol Address env) (.rotate id draw) s.webhooks).rows :=
    mem_readRows.mpr ⟨hmem, if_pos hid⟩
  refine .rotates (Table.find_eq_some.mpr ⟨hread, hid⟩) (fun k hk => ?_) rfl (hfresh w hmem hid)
  refine Table.find_eq_none.mpr fun x hx hkey => hk ?_
  exact hkey.symm.trans (hchange x hx).1

/-- What a delivery loads. -/
theorem sound_load {task : Task Address} (htask : ∀ id draw, task ≠ .rotate id draw)
    (webhooks : Table rowId) (entries : List AuditLog) :
    Sound env (.write task (readRows (protocol Address env) task webhooks) entries) := by
  refine .delivers htask fun x hx => ?_
  rw [change_columns (mem_readRows.mp hx).2, columns_of_ne_rotate htask]

/-! ## One step -/

variable (env U) in
/-- The event answers an administrator with the secret: the webhook is created, or the commit of
a rotation goes through. -/
def Issues (s : State Address) (e : Event Address) (a : Issue) : Prop :=
  (∃ r user body draw s', e = .create r user body a.id draw ∧
    createWebhook env U s r user body a.id draw = .ok (s', a)) ∨
  ∃ n writes entries draw s', e = .finish n true ∧ draw.secret = a.secret ∧
    finished env s n = some (.write (.rotate a.id draw) writes entries, s')

variable (env) in
/-- The commit of a rotation or of a deletion of the webhook goes through. -/
def Withdraws (s : State Address) (e : Event Address) (a : Issue) : Prop :=
  ∃ n p s', e = .finish n true ∧ finished env s n = some (p, s') ∧
    ((∃ draw writes entries, p = .write (.rotate a.id draw) writes entries) ∨
      ∃ entries, p = .delete a.id entries)

variable (env) in
/-- A stored row has the secret. -/
def Holds (s : State Address) (a : Issue) : Prop :=
  ∃ w ∈ s.webhooks.rows, w.id = a.id ∧ Carries env a.secret w.columns

/-- Every stored row has a secret, and every request in flight is sound. -/
structure Consistent (env : Environment) (s : State Address) : Prop where
  rows : ∀ w ∈ s.webhooks.rows, ∃ secret, Carries env secret w.columns
  inflight : ∀ p ∈ s.inflight, Sound env p

theorem createWebhook_ok {s s' : State Address} {r : Erasure.Request}
    {user : Except HttpError Person} {body : WebhookCreate} {id : ℕ} {draw : SecretDraw} {a : Issue}
    (h : createWebhook env U s r user body id draw = .ok (s', a)) :
    ∃ row : WebhookRow, row.id = id ∧ row.columns = draw.columns env ∧
      s.webhooks.insert? row = some s'.webhooks ∧ s'.inflight = s.inflight ∧
      a = ⟨id, draw.secret⟩ := by
  obtain ⟨admin, -, h⟩ := bind_eq_ok.mp h
  split at h
  · cases h
  · rename_i url hvalid
    obtain ⟨-, h⟩ := guard_eq_ok.mp h
    split at h
    · cases h
    · rename_i webhooks hinsert
      cases h
      exact ⟨newWebhook env body url id draw, rfl, rfl, hinsert, rfl, rfl⟩

/-- What an event does: it creates a webhook, commits a request, or leaves the rows alone. -/
inductive Effect (env : Environment) (U : UrlTexts Address) (s : State Address)
    (e : Event Address) : Prop
  | creates (row : WebhookRow) (draw : SecretDraw) (hcolumns : row.columns = draw.columns env)
      (hissues : ∀ a, Issues env U s e a ↔ a = ⟨row.id, draw.secret⟩)
      (hwithdraws : ∀ a, ¬ Withdraws env s e a)
      (hinsert : s.webhooks.insert? row = some (step env U s e).webhooks)
      (hinflight : (step env U s e).inflight = s.inflight)
  | commits (n : ℕ) (p : Pending Address) (he : e = .finish n true)
      (hfinished : finished env s n = some (p, step env U s e))
  | loads (hwebhooks : (step env U s e).webhooks = s.webhooks)
      (hissues : ∀ a, ¬ Issues env U s e a) (hwithdraws : ∀ a, ¬ Withdraws env s e a)
      (hinflight : ∀ p ∈ (step env U s e).inflight, p ∈ s.inflight ∨ Sound env p)

theorem finished_eq_some {s s' : State Address} {n : ℕ} {p : Pending Address} :
    finished env s n = some (p, s') ↔ s.inflight[n]? = some p ∧
      p.commit env { s with inflight := s.inflight.eraseIdx n } = some s' := by
  simp only [finished, Option.bind_eq_bind, Option.bind_eq_some_iff, Option.pure_def,
    Option.some.injEq, Prod.mk.injEq]
  constructor
  · rintro ⟨q, hq, s'', hs, rfl, rfl⟩
    exact ⟨hq, hs⟩
  · rintro ⟨hq, hs⟩
    exact ⟨p, hq, s', hs, rfl, rfl⟩

/-- An event that issues and withdraws nothing, and at most begins a request. -/
theorem effect_begins {s : State Address} {e : Event Address}
    (hfinish : ∀ n, e ≠ .finish n true)
    (hcreate : ∀ r user body id draw, e ≠ .create r user body id draw)
    (hstep : step env U s e = s ∨
      ∃ p, Sound env p ∧ step env U s e = { s with inflight := s.inflight ++ [p] }) :
    Effect env U s e := by
  refine .loads ?_ ?_ ?_ fun q hq => ?_
  · rcases hstep with h | ⟨p, -, h⟩
    · rw [h]
    · rw [h]
  · rintro a (⟨r, user, body, draw, s', hevent, -⟩ | ⟨n, writes, entries, draw, s', hevent, -⟩)
    · exact hcreate _ _ _ _ _ hevent
    · exact hfinish _ hevent
  · rintro a ⟨n, p, s', hevent, -⟩
    exact hfinish _ hevent
  · rcases hstep with h | ⟨p, hsound, h⟩
    · rw [h] at hq
      exact .inl hq
    · rw [h] at hq
      rcases List.mem_append.mp hq with hq | hq
      · exact .inl hq
      · rw [List.mem_singleton.mp hq]
        exact .inr hsound

theorem effect_load {s : State Address} {e : Event Address} {task : Task Address}
    (hfinish : ∀ n, e ≠ .finish n true)
    (hcreate : ∀ r user body id draw, e ≠ .create r user body id draw)
    (hstep : step env U s e = s.load env task) (htask : ∀ id draw, task ≠ .rotate id draw) :
    Effect env U s e := by
  refine effect_begins hfinish hcreate ?_
  rw [hstep, State.load]
  split
  · exact .inl rfl
  · exact .inr ⟨_, sound_load htask _ _, rfl⟩

theorem effect_rotate {s : State Address} {r : Erasure.Request} {user : Except HttpError Person}
    {id : ℕ} {draw : SecretDraw} (hfresh : Fresh env s (.rotate r user id draw)) :
    Effect env U s (.rotate r user id draw) := by
  refine effect_begins (fun _ h => by cases h) (fun _ _ _ _ _ h => by cases h) ?_
  cases h : rotateSecret env s r user id draw with
  | error error => exact .inl (by simp only [step, h])
  | ok p => exact .inr ⟨p, sound_rotate h hfresh, by simp only [step, h]⟩

theorem effect_delete {s : State Address} {r : Erasure.Request} {user : Except HttpError Person}
    {id : ℕ} : Effect env U s (.delete r user id) := by
  refine effect_begins (fun _ h => by cases h) (fun _ _ _ _ _ h => by cases h) ?_
  cases h : deleteWebhook env s r user id with
  | error error => exact .inl (by simp only [step, h])
  | ok p =>
    refine .inr ⟨p, ?_, by simp only [step, h]⟩
    obtain ⟨admin, -, h⟩ := bind_eq_ok.mp h
    split at h
    · cases h
    · cases h
      exact .deletes

theorem effect_create {s : State Address} {r : Erasure.Request} {user : Except HttpError Person}
    {body : WebhookCreate} {id : ℕ} {draw : SecretDraw} :
    Effect env U s (.create r user body id draw) := by
  have hwithdraws : ∀ a, ¬ Withdraws env s (.create r user body id draw) a := by
    rintro a ⟨n, p, s', he, -⟩
    cases he
  cases h : createWebhook env U s r user body id draw with
  | ok created =>
    obtain ⟨s', a⟩ := created
    have hstep : step env U s (.create r user body id draw) = s' := by simp only [step, h]
    obtain ⟨row, hid, hcolumns, hinsert, hinflight, ha⟩ := createWebhook_ok h
    refine .creates row draw hcolumns (fun b => ?_) hwithdraws (by rwa [hstep]) (by rwa [hstep])
    rw [hid, ← ha]
    constructor
    · rintro (⟨r', user', body', draw', s'', he, hok⟩ | ⟨n, writes, entries, draw', s'', he, -⟩)
      · cases he
        rw [h] at hok
        cases hok
        rfl
      · cases he
    · rintro rfl
      have haid : b.id = id := by rw [ha]
      exact .inl ⟨r, user, body, draw, s', by rw [haid], by rwa [haid]⟩
  | error error =>
    have hstep : step env U s (.create r user body id draw) = s := by simp only [step, h]
    refine .loads (by rw [hstep]) ?_ hwithdraws fun p hp => .inl (by rwa [hstep] at hp)
    rintro a (⟨r', user', body', draw', s'', he, hok⟩ | ⟨n, writes, entries, draw', s'', he, -⟩)
    · cases he
      rw [h] at hok
      cases hok
    · cases he

/-- A request that ends without a commit is gone, and nothing else changes. -/
theorem effect_rollback {s : State Address} {n : ℕ} {committed : Bool}
    (hnone : committed = true → finished env s n = none) :
    Effect env U s (.finish n committed) := by
  have hstep : step env U s (.finish n committed) =
      { s with inflight := s.inflight.eraseIdx n } := by
    cases committed with
    | false => rfl
    | true => simp only [step, hnone rfl]
  refine .loads (by rw [hstep]) ?_ ?_ fun p hp => .inl ?_
  · rintro a (⟨_, _, _, _, _, he, -⟩ | ⟨_, _, _, _, _, he, -, hfinished⟩)
    · cases he
    · cases he
      rw [hnone rfl] at hfinished
      cases hfinished
  · rintro a ⟨_, _, _, he, hfinished, -⟩
    cases he
    rw [hnone rfl] at hfinished
    cases hfinished
  · rw [hstep] at hp
    exact List.mem_of_mem_eraseIdx hp

theorem effect_finish {s : State Address} {n : ℕ} {committed : Bool} :
    Effect env U s (.finish n committed) := by
  cases committed with
  | false => exact effect_rollback fun h => by cases h
  | true =>
    cases h : finished env s n with
    | none => exact effect_rollback fun _ => h
    | some result =>
      obtain ⟨p, s'⟩ := result
      have hstep : step env U s (.finish n true) = s' := by simp only [step, h]
      exact .commits n p rfl (by rw [hstep, h])

variable (U) in
theorem effect {s : State Address} {e : Event Address} (hfresh : Fresh env s e) :
    Effect env U s e := by
  cases e with
  | create r user body id draw => exact effect_create
  | rotate r user id draw => exact effect_rotate hfresh
  | delete r user id => exact effect_delete
  | testWebhook id outside data =>
    exact effect_load (fun _ h => by cases h) (fun _ _ _ _ _ h => by cases h) rfl
      (fun _ _ h => by cases h)
  | fireEvent outside eventType severity data =>
    exact effect_load (fun _ h => by cases h) (fun _ _ _ _ _ h => by cases h) rfl
      (fun _ _ h => by cases h)
  | finish n committed => exact effect_finish

/-- The rows after the commit of changes. -/
theorem commit_write {s s' : State Address} {task : Task Address} {writes : Writes rowId}
    {entries : List AuditLog}
    (h : (Pending.write task writes entries).commit env s = some s') :
    accepted s.webhooks writes ∧ s'.inflight = s.inflight ∧ s'.webhooks =
      s.webhooks.mapRows (commitRow (protocol Address env) writes)
        (commitRow_key (protocol Address env) writes) := by
  simp only [Pending.commit] at h
  split at h
  · rename_i haccepted
    cases h
    exact ⟨haccepted, rfl, rfl⟩
  · cases h

theorem commit_inflight {s s' : State Address} {p : Pending Address}
    (h : p.commit env s = some s') : s'.inflight = s.inflight := by
  cases p with
  | write task writes entries => exact (commit_write h).2.1
  | delete id entries =>
    cases h
    rfl

theorem consistent_step (hdecrypts : Decrypts env.services) {s : State Address}
    (hs : Consistent env s) {e : Event Address} (hfresh : Fresh env s e) :
    Consistent env (step env U s e) := by
  have hdraw := carries_draw hdecrypts
  cases effect U hfresh with
  | creates row draw hcolumns _ _ hinsert hinflight =>
    constructor
    · intro w hw
      rcases (Table.mem_insert? hinsert).mp hw with hw | rfl
      · exact hs.rows w hw
      · exact ⟨draw.secret, by rw [hcolumns]; exact hdraw draw⟩
    · rw [hinflight]
      exact hs.inflight
  | commits n p _ hfinished =>
    obtain ⟨hp, hcommit⟩ := finished_eq_some.mp hfinished
    have hsound := hs.inflight p (List.mem_of_getElem? hp)
    generalize step env U s e = s' at hcommit ⊢
    constructor
    · intro w hw
      cases p with
      | write task writes entries =>
        rw [(commit_write hcommit).2.2] at hw
        obtain ⟨stored, hstored, rfl⟩ := List.mem_map.mp hw
        rw [commitRow_columns hsound]
        cases task with
        | rotate id draw =>
          simp only [Task.columns]
          split
          · exact ⟨draw.secret, hdraw draw⟩
          · exact hs.rows stored hstored
        | testWebhook => exact hs.rows stored hstored
        | fireEvent => exact hs.rows stored hstored
      | delete id entries =>
        cases hcommit
        exact hs.rows w (Table.mem_delete.mp hw).1
    · intro q hq
      rw [commit_inflight hcommit] at hq
      exact hs.inflight q (List.mem_of_mem_eraseIdx hq)
  | loads hwebhooks _ _ hinflight =>
    constructor
    · rw [hwebhooks]
      exact hs.rows
    · intro p hp
      exact (hinflight p hp).elim (hs.inflight p) id

/-- What the commit of changes leaves of a secret. -/
theorem holds_write (hdecrypts : Decrypts env.services) {s s' : State Address}
    {task : Task Address} {writes : Writes rowId} {entries : List AuditLog}
    (hsound : Sound env (.write task writes entries))
    (h : (Pending.write task writes entries).commit env s = some s') (a : Issue) :
    Holds env s' a ↔ (∃ draw, task = .rotate a.id draw ∧ draw.secret = a.secret) ∨
      Holds env s a ∧ ∀ draw, task ≠ .rotate a.id draw := by
  obtain ⟨haccepted, -, hwebhooks⟩ := commit_write h
  have hkeep : (∀ draw, task ≠ .rotate a.id draw) →
      ∀ w : WebhookRow, w.id = a.id → task.columns env w = w.columns := by
    intro hother w hw
    cases task with
    | rotate id draw =>
      refine if_neg fun hid => hother draw ?_
      rw [← hid, hw]
    | testWebhook => rfl
    | fireEvent => rfl
  simp only [Holds, hwebhooks]
  constructor
  · rintro ⟨w, hw, hid, hcarries⟩
    obtain ⟨stored, hstored, rfl⟩ := List.mem_map.mp hw
    rw [commitRow_columns hsound] at hcarries
    have hid : stored.id = a.id :=
      (commitRow_key (protocol Address env) writes stored).symm.trans hid
    by_cases htask : ∃ draw, task = .rotate a.id draw
    · obtain ⟨draw, rfl⟩ := htask
      simp only [Task.columns, hid, if_true] at hcarries
      exact .inl ⟨draw, rfl, (carries_draw hdecrypts draw).unique hcarries⟩
    · have hother := not_exists.mp htask
      rw [hkeep hother stored hid] at hcarries
      exact .inr ⟨⟨stored, hstored, hid, hcarries⟩, hother⟩
  · have hexists : ∀ stored ∈ s.webhooks.rows, stored.id = a.id →
        Carries env a.secret (task.columns env stored) → ∃ w ∈ (s.webhooks.mapRows
          (commitRow (protocol Address env) writes)
          (commitRow_key (protocol Address env) writes)).rows,
          w.id = a.id ∧ Carries env a.secret w.columns := by
      intro stored hstored hid hcarries
      refine ⟨_, List.mem_map.mpr ⟨stored, hstored, rfl⟩, ?_, ?_⟩
      · exact (commitRow_key (protocol Address env) writes stored).trans hid
      · rwa [commitRow_columns hsound]
    rintro (⟨draw, rfl, hsecret⟩ | ⟨⟨stored, hstored, hid, hcarries⟩, hother⟩)
    · obtain ⟨stored, hstored, hid⟩ := accepted_row hsound haccepted
      refine hexists stored hstored hid ?_
      simp only [Task.columns, hid, if_true, ← hsecret]
      exact carries_draw hdecrypts draw
    · refine hexists stored hstored hid ?_
      rwa [hkeep hother stored hid]

/-- A step changes the secrets of the rows by what it hands out and withdraws. -/
theorem holds_step (hdecrypts : Decrypts env.services) {s : State Address}
    (hs : Consistent env s) {e : Event Address} (hfresh : Fresh env s e) (a : Issue) :
    Holds env (step env U s e) a ↔
      Issues env U s e a ∨ Holds env s a ∧ ¬ Withdraws env s e a := by
  cases effect U hfresh with
  | creates row draw hcolumns hissues hwithdraws hinsert _ =>
    rw [hissues]
    constructor
    · rintro ⟨w, hw, hid, hcarries⟩
      rcases (Table.mem_insert? hinsert).mp hw with hw | rfl
      · exact .inr ⟨⟨w, hw, hid, hcarries⟩, hwithdraws a⟩
      · rw [hcolumns] at hcarries
        have hsecret := (carries_draw hdecrypts draw).unique hcarries
        exact .inl (by rw [hid, hsecret])
    · rintro (rfl | ⟨⟨w, hw, hid, hcarries⟩, -⟩)
      · refine ⟨row, (Table.mem_insert? hinsert).mpr (.inr rfl), rfl, ?_⟩
        rw [hcolumns]
        exact carries_draw hdecrypts draw
      · exact ⟨w, (Table.mem_insert? hinsert).mpr (.inl hw), hid, hcarries⟩
  | commits n p he hfinished =>
    obtain ⟨hp, hcommit⟩ := finished_eq_some.mp hfinished
    have hsound := hs.inflight p (List.mem_of_getElem? hp)
    generalize step env U s e = s' at hfinished hcommit ⊢
    subst he
    have hissues : Issues env U s (.finish n true) a ↔ ∃ writes entries draw,
        p = .write (.rotate a.id draw) writes entries ∧ draw.secret = a.secret := by
      constructor
      · rintro (⟨_, _, _, _, _, he, -⟩ | ⟨m, writes, entries, draw, s'', he, hsecret, hm⟩)
        · cases he
        · cases he
          rw [hfinished] at hm
          cases hm
          exact ⟨writes, entries, draw, rfl, hsecret⟩
      · rintro ⟨writes, entries, draw, rfl, hsecret⟩
        exact .inr ⟨n, writes, entries, draw, s', rfl, hsecret, hfinished⟩
    have hwithdraws : Withdraws env s (.finish n true) a ↔
        (∃ draw writes entries, p = .write (.rotate a.id draw) writes entries) ∨
          ∃ entries, p = .delete a.id entries := by
      constructor
      · rintro ⟨m, q, s'', he, hm, hq⟩
        cases he
        rw [hfinished] at hm
        cases hm
        exact hq
      · intro hq
        exact ⟨n, p, s', rfl, hfinished, hq⟩
    rw [hissues, hwithdraws]
    cases p with
    | write task writes entries =>
      rw [holds_write hdecrypts hsound hcommit]
      simp only [Pending.write.injEq, reduceCtorEq, exists_false, or_false, not_exists]
      constructor
      · rintro (⟨draw, htask, hsecret⟩ | ⟨hold, hother⟩)
        · exact .inl ⟨writes, entries, draw, ⟨htask, rfl, rfl⟩, hsecret⟩
        · exact .inr ⟨hold, fun draw _ _ h => hother draw h.1⟩
      · rintro (⟨_, _, draw, ⟨htask, -, -⟩, hsecret⟩ | ⟨hold, hother⟩)
        · exact .inl ⟨draw, htask, hsecret⟩
        · exact .inr ⟨hold, fun draw h => hother draw writes entries ⟨h, rfl, rfl⟩⟩
    | delete id entries =>
      cases hcommit
      simp only [Holds, Table.mem_delete, decide_eq_false_iff_not, reduceCtorEq, false_and,
        exists_false, false_or, Pending.delete.injEq, exists_and_left, exists_eq', and_true]
      constructor
      · rintro ⟨w, ⟨hw, hne⟩, hid, hcarries⟩
        exact ⟨⟨w, hw, hid, hcarries⟩, fun h => hne (hid.trans h.symm)⟩
      · rintro ⟨⟨w, hw, hid, hcarries⟩, hne⟩
        exact ⟨w, ⟨hw, fun h => hne (h.symm.trans hid)⟩, hid, hcarries⟩
  | loads hwebhooks hissues hwithdraws _ =>
    rw [Holds, hwebhooks]
    exact ⟨fun h => .inr ⟨h, hwithdraws a⟩, fun h => (h.resolve_left (hissues a)).1⟩

/-! ## Every run -/

theorem consistent_start : Consistent env (start : State Address) :=
  ⟨fun _ hw => absurd hw List.not_mem_nil, fun _ hp => absurd hp List.not_mem_nil⟩

variable (env U) in
/-- The secret was handed out in the run, and the webhook was not rotated or deleted since. -/
def Outstanding (es : List (Event Address)) (a : Issue) : Prop :=
  Issuance.Outstanding (step env U) (Issues env U) (Withdraws env) start es a

/-- The stored rows have the outstanding secrets. -/
theorem holds_iff_outstanding (hdecrypts : Decrypts env.services) {es : List (Event Address)}
    (hfresh : Along (step env U) (Fresh env) start es) (a : Issue) :
    Holds env (run (step env U) start es) a ↔ Outstanding env U es a := by
  refine Issuance.holds_iff_outstanding consistent_start ?_
    (fun _ e hs hC => consistent_step hdecrypts hs hC)
    (fun _ e a hs hC => holds_step hdecrypts hs hC a) hfresh a
  rintro a ⟨w, hw, -⟩
  exact List.not_mem_nil hw

/-- The secret that a delivery signs with, if it comes so far. -/
theorem checks_secret {outside : Surroundings Address}
    (houtside : outside.decryptSecret = env.services.decryptSecret) {w : WebhookRow}
    {secret : String} (hw : Carries env secret w.columns)
    {r : Except (String × String) Destination} (h : checks outside w.toWebhook = .ok r) :
    r ≠ .error ("decrypt_error", "secret decryption failed") ∧
      ∀ d, r = .ok d → d.secret = secret := by
  have hdecrypts : outside.decryptSecret w.secretEncrypted w.secretSalt = some secret := by
    rw [houtside]
    exact hw.decrypts
  unfold checks at h
  split at h
  · cases h
  · split at h
    · cases h
      exact ⟨by simp, fun d hd => by cases hd⟩
    · split at h
      · cases h
        exact ⟨by simp, fun d hd => by cases hd⟩
      · split at h
        · cases h
        · cases h
          exact ⟨by simp, fun d hd => by cases hd⟩
        · rw [hdecrypts] at h
          cases h
          refine ⟨by simp, fun d hd => ?_⟩
          cases hd
          rfl

/-- Every stored webhook has one outstanding secret, and a delivery that loads the row signs with
it: no interleaving of rotations, deletions and deliveries mixes the columns of two secrets. An
outstanding secret is that of a stored row. -/
theorem delivery_signs (hdecrypts : Decrypts env.services) {es : List (Event Address)}
    (hfresh : Along (step env U) (Fresh env) start es) :
    (∀ w ∈ (run (step env U) start es).webhooks.rows, ∃ secret,
      Outstanding env U es ⟨w.id, secret⟩ ∧
      (∀ secret', Outstanding env U es ⟨w.id, secret'⟩ → secret' = secret) ∧
      Carries env secret w.columns ∧
      ∀ outside : Surroundings Address, outside.decryptSecret = env.services.decryptSecret →
        ∀ r, checks outside w.toWebhook = .ok r →
          r ≠ .error ("decrypt_error", "secret decryption failed") ∧
            ∀ d, r = .ok d → d.secret = secret) ∧
    ∀ a, Outstanding env U es a → ∃ w ∈ (run (step env U) start es).webhooks.rows, w.id = a.id := by
  have hconsistent : Consistent env (run (step env U) start es) :=
    run_invariant_along (Consistent env) (fun _ _ hs hC => consistent_step hdecrypts hs hC)
      consistent_start hfresh
  have hholds := holds_iff_outstanding (U := U) hdecrypts hfresh
  constructor
  · intro w hw
    obtain ⟨secret, hcarries⟩ := hconsistent.rows w hw
    refine ⟨secret, (hholds _).mp ⟨w, hw, rfl, hcarries⟩, fun secret' hout => ?_, hcarries,
      fun outside houtside r hr => checks_secret houtside hcarries hr⟩
    obtain ⟨w', hw', hid, hcarries'⟩ := (hholds _).mpr hout
    rw [Table.eq_of_key hw' hw hid] at hcarries'
    exact hcarries'.unique hcarries
  · intro a hout
    obtain ⟨w, hw, hid, -⟩ := (hholds a).mpr hout
    exact ⟨w, hw, hid⟩

/-- A draw whose texts repeat one character. -/
def drawOf (c : Char) : SecretDraw where
  secret := String.ofList (List.replicate 43 c)
  salt := String.ofList (List.replicate 32 c)
  hashSalt := ""
  secret_length := by rw [String.length_ofList, List.length_replicate]
  salt_length := by rw [String.length_ofList, List.length_replicate]

def hooks : UrlTexts String where
  httpUrl := some
  urlparse _ := .ok ⟨"https", some "hooks.example.test", none, none⟩
  ipAddress _ := none
  isPublicIp _ := true
  addressText := id

/-- An administrator creates a webhook and rotates its secret. -/
def rotation : List (Event String) :=
  [.create (fromOffice "1") (.ok root) ⟨"siem", "https://hooks.example.test", [], []⟩ 1
      (drawOf 'a'),
    .rotate (fromOffice "1") (.ok root) 1 (drawOf 'b'), .finish 0 true]

theorem rotated_secret_signs : ∃ w d,
    (run (step officeEnvironment hooks) start rotation).webhooks.rows = [w] ∧
      checks (answering 200) w.toWebhook = .ok (.ok d) ∧ d.secret = (drawOf 'b').secret := by
  have hdecrypts : Decrypts officeEnvironment.services := by
    intro secret salt _ _
    rfl
  have hdiffer : Differ ((drawOf 'a').columns officeEnvironment)
      ((drawOf 'b').columns officeEnvironment) := by
    constructor <;> decide
  have hfresh : Along (step officeEnvironment hooks) (Fresh officeEnvironment) start rotation := by
    refine ⟨trivial, ?_, trivial, trivial⟩
    intro w hw _
    obtain rfl : w = newWebhook officeEnvironment ⟨"siem", "https://hooks.example.test", [], []⟩
        "https://hooks.example.test" 1 (drawOf 'a') :=
      List.mem_singleton.mp hw
    exact hdiffer
  obtain ⟨hsigns, -⟩ := delivery_signs hdecrypts hfresh
  have hrows : ∃ w, (run (step officeEnvironment hooks) start rotation).webhooks.rows = [w] ∧
      w.id = 1 := ⟨_, rfl, rfl⟩
  obtain ⟨w, hrow, hid⟩ := hrows
  have hw : w ∈ (run (step officeEnvironment hooks) start rotation).webhooks.rows := by
    rw [hrow]
    exact List.mem_singleton_self w
  obtain ⟨secret, -, hunique, -, hchecks⟩ := hsigns w hw
  have hout : Outstanding officeEnvironment hooks rotation ⟨w.id, (drawOf 'b').secret⟩ := by
    rw [hid]
    exact ⟨rotation.take 2, .finish 0 true, [], rfl,
      .inr ⟨0, _, _, drawOf 'b', _, rfl, rfl, rfl⟩, trivial⟩
  have hchecked : checks (answering 200) w.toWebhook =
      .ok (.ok ⟨"hooks.example.test", "93.184.216.34", w.secretEncrypted⟩) := rfl
  refine ⟨w, _, hrow, hchecked, ?_⟩
  rw [hunique _ hout]
  exact (hchecks (answering 200) rfl _ hchecked).2 _ rfl

end Kepryx.WebhookSecrets
