import Kepryx.ManagementNetwork
import Kepryx.Redaction
import Kepryx.Results

/-!
# Erasure of a user

The audit log, and the endpoints that create, export and erase a user. The erasure rewrites the
row of the user and some columns of the audit rows recorded under the user's identifier, and
then writes an audit row of its own.
-/
namespace Kepryx.Erasure
open Kepryx.Accounts Kepryx.IpNetworks Kepryx.ManagementNetwork Kepryx.Redaction
open Kepryx.Results Kepryx.Tables

/-- A row of `users`. -/
structure Person extends User where
  email : String
  deriving DecidableEq, Repr

/-- A row of `audit_log`. -/
structure AuditLog where
  userId : Option String
  username : Option String
  action : String
  resourceType : Option String := none
  resourceId : Option String := none
  ipAddress : Option String := none
  userAgent : Option String := none
  severity : String := "info"
  details : Json := .obj []

structure Store where
  users : Table (fun p : Person => p.id)
  auditLog : List AuditLog

/-- What a request brings along besides its body: where it comes from, its `User-Agent`, and
the user that its token names. -/
structure Request where
  origin : Origin
  userAgent : String := ""
  currentId : String

variable (T : Texts) (boundary : Boundary) (services : Services) (P : Primitives)

/-! ## The audit log -/

/-- `audit` -/
def audit (r : Request) (action : String) (user : Option Person) (resourceType resourceId :
    Option String) (severity : String) (details : List (String × Json)) : AuditLog where
  userId := user.map fun u => u.id
  username := user.map fun u => u.username
  action := action
  resourceType := resourceType
  resourceId := resourceId
  userAgent := some (String.ofList ((maskUserAgent r.userAgent).toList.take 512))
  severity := severity
  details := redactPii P (.obj (details ++ [("source_ip_hash",
    match r.origin.client with
    | some host => .str (hashValue P host "audit-ip")
    | none => .null)]))

/-- The texts of the columns in which a person can be named. -/
def AuditLog.columnTexts (row : AuditLog) : List String :=
  [row.username, row.ipAddress, row.userAgent].reduceOption

/-- A row names a person: a name of theirs occurs in the columns or in the details. -/
def AuditLog.Names (row : AuditLog) (names : List String) : Prop :=
  ∃ text ∈ row.columnTexts ++ row.details.texts, ∃ name ∈ names, occursIn name text

instance (row : AuditLog) (names : List String) : Decidable (row.Names names) :=
  inferInstanceAs (Decidable (∃ text ∈ _, ∃ name ∈ names, _))

/-! ## Creating, exporting and erasing -/

/-- The end of `_jwt_user`: the row of the user, who must be active. -/
def currentUser (s : Store) (r : Request) : Except HttpError Person :=
  match s.users.find r.currentId with
  | none => .error (unauthorized "User inactive")
  | some user => if user.isActive then .ok user else .error (unauthorized "User inactive")

structure UserCreate where
  username : String
  email : String
  password : String
  role : String := "viewer"

/-- `create_user`, under the identifier and the salt drawn for the new user. -/
def createUser (s : Store) (r : Request) (body : UserCreate) (id salt : String) :
    Except HttpError Store := do
  let current ← currentUser s r
  let _ ← requireRole T boundary ["admin"] true r.origin current.toUser
  match services.validatePassword body.password body.username with
  | .error detail => throw ⟨400, detail⟩
  | .ok () => pure ()
  if body.role ∉ ["admin", "analyst", "viewer"] then throw ⟨400, "Invalid role"⟩
  let user : Person :=
    { id := id
      username := body.username
      passwordHash := services.hash body.password salt
      role := body.role
      mfaSecret := none
      mfaEnabled := false
      failedAttempts := 0
      lockedUntil := none
      lastLogin := none
      isActive := true
      email := body.email }
  let entry := audit P r "user_created" current "user" none "info"
    [("username", .str body.username), ("role", .str body.role)]
  -- the flush in `audit` meets a taken name first, outside the handler for the commit
  if s.users.rows.any (fun u => u.username = user.username || u.email = user.email) then
    throw serverError
  match s.users.insert? user with
  | none => throw serverError
  | some users => return ⟨users, s.auditLog ++ [entry]⟩

/-- Who may export or erase a user: an administrator on the management network, or the user. -/
def checkAccess (current : Person) (r : Request) (userId detail : String) :
    Except HttpError Unit := do
  if current.role ≠ "admin" ∧ current.id ≠ userId then throw ⟨403, detail⟩
  if current.role = "admin" then ensureManagementNetwork T boundary r.origin

/-- `export_user_data`, as far as it changes the store. -/
def exportUserData (s : Store) (r : Request) (userId : String) : Except HttpError Store := do
  let current ← currentUser s r
  checkAccess T boundary current r userId "Can only export your own data"
  match s.users.find userId with
  | none => throw ⟨404, "Not Found"⟩
  | some user =>
    let records := (s.auditLog.filter fun row => row.userId = some userId).take 10000
    let entry := audit P r "gdpr_data_export" current "user" userId "info"
      [("requested_by", .str current.username), ("subject_user", .str user.username),
        ("audit_records", .num records.length)]
    return ⟨s.users, s.auditLog ++ [entry]⟩

/-- The name that an erased user gets. -/
def anonymizedName (userId : String) : String :=
  "deleted_user_" ++ hashValue P userId "anonymize"

/-- The row of an erased user. -/
def anonymize (salt : String) (user : Person) : Person :=
  let anonymizedId := hashValue P user.id "anonymize"
  { user with
    username := "deleted_user_" ++ anonymizedId
    email := "deleted-" ++ anonymizedId ++ "@invalid.kepryx"
    passwordHash := services.hash ("erased:" ++ anonymizedId) salt
    mfaSecret := none
    mfaEnabled := false
    isActive := false
    failedAttempts := 0
    lockedUntil := none }

/-- The UPDATE of the audit rows recorded under a user. -/
def anonymizeRow (userId : String) (row : AuditLog) : AuditLog :=
  if row.userId = some userId then
    { row with
      username := anonymizedName P userId
      ipAddress := some "redacted"
      userAgent := some "redacted" }
  else row

def activeAdmin (user : Person) : Bool := user.role = "admin" && user.isActive

/-- The number that `erase_user_data` reads. -/
def activeAdmins (users : Table (fun p : Person => p.id)) : ℕ := users.rows.countP activeAdmin

structure ErasureRequest extends Request where
  userId : String
  confirmation : String

/-- The checks of `erase_user_data` on what it has read. -/
def checkErasure (current : Person) (r : ErasureRequest) (target : Option Person)
    (admins : ℕ) : Except HttpError Person := do
  checkAccess T boundary current r.toRequest r.userId "Can only erase your own data"
  if r.confirmation ≠ "ERASE MY DATA" then throw ⟨400, "Set confirmation to \"ERASE MY DATA\""⟩
  match target with
  | none => throw ⟨404, "Not Found"⟩
  | some user =>
    if "deleted_user_".toList <+: user.username.toList then throw ⟨409, "User data already erased"⟩
    if activeAdmin user ∧ admins ≤ 1 then
      throw ⟨409, "Cannot erase the last active administrator"⟩
    return user

/-- `erase_user_data`; `revoked` tells whether the tokens of the user could be revoked. A user
who erases themself is the same object as the one that was renamed. -/
def eraseUserData (s : Store) (r : ErasureRequest) (salt : String) (revoked : Bool) :
    Except HttpError Store := do
  let current ← currentUser s r.toRequest
  let user ← checkErasure T boundary current r (s.users.find r.userId) (activeAdmins s.users)
  let requestedBy := current.username
  let erased := anonymize services P salt user
  if revoked = false then
    throw ⟨503, "Could not revoke active sessions; erasure was rolled back"⟩
  let actor := if current.id = user.id then erased else current
  let entry := audit P r.toRequest "gdpr_data_erasure" actor "user" r.userId "warning"
    [("requested_by", .str requestedBy), ("anonymized_to", .str erased.username)]
  return ⟨s.users.put erased, s.auditLog.map (anonymizeRow P r.userId) ++ [entry]⟩

/-! ## What an erasure leaves -/

/-- None of the names occurs in a text. -/
def Unmentioned (names : List String) (text : String) : Prop :=
  ∀ name ∈ names, ¬ occursIn name text

/-- The texts that every erasure writes into its own audit row. -/
def erasureTexts (r : ErasureRequest) : List String :=
  [String.ofList ((maskUserAgent r.userAgent).toList.take 512), "requested_by", "anonymized_to",
    redactString P (anonymizedName P r.userId), "source_ip_hash"] ++
  (r.origin.client.map fun host => redactString P (hashValue P host "audit-ip")).toList

/-- Nothing that the erasure leaves or writes mentions the names: not the details of a row, not
the columns of a row recorded under someone else, not the placeholders, and not what the new row
says of who asked for it. -/
structure Forgettable (s : Store) (r : ErasureRequest) (current : Person) (names : List String) :
    Prop where
  details : ∀ row ∈ s.auditLog, ∀ text ∈ row.details.texts, Unmentioned names text
  others : ∀ row ∈ s.auditLog, row.userId ≠ some r.userId →
    ∀ text ∈ row.columnTexts, Unmentioned names text
  placeholders : ∀ row ∈ s.auditLog, row.userId = some r.userId →
    Unmentioned names (anonymizedName P r.userId) ∧ Unmentioned names "redacted"
  requester : Unmentioned names (redactString P current.username)
  actor : Unmentioned names
    (if current.id = r.userId then anonymizedName P r.userId else current.username)
  written : ∀ text ∈ erasureTexts P r, Unmentioned names text

variable {T boundary services P}

theorem not_names_iff {row : AuditLog} {names : List String} :
    ¬ row.Names names ↔ (∀ text ∈ row.columnTexts, Unmentioned names text) ∧
      ∀ text ∈ row.details.texts, Unmentioned names text := by
  simp only [AuditLog.Names, Unmentioned, List.mem_append]
  constructor
  · intro h
    exact ⟨fun text ht name hn ho => h ⟨text, .inl ht, name, hn, ho⟩,
      fun text ht name hn ho => h ⟨text, .inr ht, name, hn, ho⟩⟩
  · rintro ⟨hcolumns, hdetails⟩ ⟨text, ht | ht, name, hn, ho⟩
    · exact hcolumns text ht name hn ho
    · exact hdetails text ht name hn ho

theorem checkAccess_ok {current : Person} {r : Request} {userId detail : String}
    (h : checkAccess T boundary current r userId detail = .ok ()) :
    current.role = "admin" ∨ current.id = userId := by
  unfold checkAccess at h
  simp only [throw_eq_error, error_bind, guard_eq_ok] at h
  by_contra hneither
  rw [not_or] at hneither
  exact h.1 hneither

/-- What the checks of an erasure have established. -/
theorem checkErasure_ok {current user : Person} {r : ErasureRequest} {target : Option Person}
    {admins : ℕ} (h : checkErasure T boundary current r target admins = .ok user) :
    target = some user ∧ (current.role = "admin" ∨ current.id = r.userId) ∧
      (activeAdmin user → 1 < admins) := by
  unfold checkErasure at h
  simp only [throw_eq_error, error_bind, pure_eq_ok, bind_eq_ok, guard_eq_ok] at h
  obtain ⟨_, haccess, -, h⟩ := h
  cases target with
  | none => cases h
  | some found =>
    rw [guard_eq_ok, guard_eq_ok] at h
    obtain ⟨-, hadmins, h⟩ := h
    cases h
    refine ⟨rfl, checkAccess_ok haccess, fun hadmin => ?_⟩
    by_contra hfew
    exact hadmins ⟨hadmin, Nat.le_of_not_lt hfew⟩

theorem currentUser_ok {s : Store} {r : Request} {current : Person}
    (h : currentUser s r = .ok current) : s.users.find r.currentId = some current := by
  unfold currentUser at h
  split at h
  · cases h
  · rename_i user hfind
    split at h
    · cases h
      exact hfind
    · cases h

/-- What an erasure has read when it succeeds, and what it writes. -/
theorem eraseUserData_ok {s s' : Store} {r : ErasureRequest} {salt : String} {revoked : Bool}
    (h : eraseUserData T boundary services P s r salt revoked = .ok s') :
    ∃ current user, s.users.find r.currentId = some current ∧
      s.users.find r.userId = some user ∧
      s'.users = s.users.put (anonymize services P salt user) ∧
      s'.auditLog = s.auditLog.map (anonymizeRow P r.userId) ++
        [audit P r.toRequest "gdpr_data_erasure"
          (some (if current.id = user.id then anonymize services P salt user else current))
          (some "user") (some r.userId) "warning"
          [("requested_by", .str current.username),
            ("anonymized_to", .str (anonymizedName P user.id))]] := by
  unfold eraseUserData at h
  simp only [throw_eq_error, error_bind, pure_eq_ok, bind_eq_ok, guard_eq_ok] at h
  obtain ⟨current, hcurrent, user, hcheck, -, h⟩ := h
  cases h
  exact ⟨current, user, currentUser_ok hcurrent, (checkErasure_ok hcheck).1, rfl, rfl⟩

/-- The details of the audit row that the erasure writes. -/
theorem erasure_details_texts (r : ErasureRequest) (user : Option Person) (requestedBy : String) :
    (audit P r.toRequest "gdpr_data_erasure" user (some "user") (some r.userId) "warning"
      [("requested_by", .str requestedBy),
        ("anonymized_to", .str (anonymizedName P r.userId))]).details.texts =
      ["requested_by", redactString P requestedBy, "anonymized_to",
        redactString P (anonymizedName P r.userId), "source_ip_hash"] ++
      (r.origin.client.map fun host => redactString P (hashValue P host "audit-ip")).toList := by
  have hrequested : ∀ value, namedField P "requested_by" value = none :=
    namedField_plain (maskOf_eq_none (by decide)) (by decide)
  have hanonymized : ∀ value, namedField P "anonymized_to" value = none :=
    namedField_plain (maskOf_eq_none (by decide)) (by decide)
  have hsource : ∀ value, namedField P "source_ip_hash" value = none :=
    namedField_plain (maskOf_eq_none (by decide)) (by decide)
  cases hclient : r.origin.client <;>
    simp only [audit, hclient, List.cons_append, List.nil_append, redactPii, redactFields,
      hrequested, hanonymized, hsource, Option.getD_none, Json.texts, fieldTexts,
      Option.map_none, Option.map_some, Option.toList_none, Option.toList_some, List.append_nil]

theorem erasure_columnTexts (r : ErasureRequest) (user : Person)
    (details : List (String × Json)) :
    (audit P r.toRequest "gdpr_data_erasure" (some user) (some "user") (some r.userId) "warning"
      details).columnTexts =
      [user.username, String.ofList ((maskUserAgent r.userAgent).toList.take 512)] := rfl

theorem erasure_row_iff {r : ErasureRequest} {actor : Person} {requestedBy : String}
    {names : List String} :
    ¬ (audit P r.toRequest "gdpr_data_erasure" (some actor) (some "user") (some r.userId) "warning"
        [("requested_by", .str requestedBy),
          ("anonymized_to", .str (anonymizedName P r.userId))]).Names names ↔
      Unmentioned names (redactString P requestedBy) ∧ Unmentioned names actor.username ∧
        ∀ text ∈ erasureTexts P r, Unmentioned names text := by
  rw [not_names_iff, erasure_columnTexts, erasure_details_texts]
  simp only [erasureTexts, List.forall_mem_append, List.forall_mem_cons]
  constructor
  · rintro ⟨⟨hactor, hagent, hnil⟩, ⟨hkey, hrequester, hkeys⟩, hhost⟩
    exact ⟨hrequester, hactor, ⟨hagent, hkey, hkeys⟩, hhost⟩
  · rintro ⟨hrequester, hactor, ⟨hagent, hkey, hkeys⟩, hhost⟩
    exact ⟨⟨hactor, hagent, by simp⟩, ⟨hkey, hrequester, hkeys⟩, hhost⟩

theorem anonymizeRow_details (userId : String) (row : AuditLog) :
    (anonymizeRow P userId row).details = row.details := by
  unfold anonymizeRow
  split <;> rfl

/-- An older row names the person after the erasure exactly when its details do, or its columns
if it is recorded under someone else. -/
theorem anonymizeRow_names_iff {userId : String} {row : AuditLog} {names : List String} :
    ¬ (anonymizeRow P userId row).Names names ↔
      (∀ text ∈ row.details.texts, Unmentioned names text) ∧
      (row.userId ≠ some userId → ∀ text ∈ row.columnTexts, Unmentioned names text) ∧
      (row.userId = some userId →
        Unmentioned names (anonymizedName P userId) ∧ Unmentioned names "redacted") := by
  rw [not_names_iff, anonymizeRow_details]
  by_cases huser : row.userId = some userId
  · have hcolumns : (anonymizeRow P userId row).columnTexts =
        [anonymizedName P userId, "redacted", "redacted"] := by
      rw [anonymizeRow, if_pos huser]
      rfl
    rw [hcolumns]
    simp only [List.forall_mem_cons, huser]
    constructor
    · rintro ⟨⟨hname, hredacted, -⟩, hdetails⟩
      exact ⟨hdetails, fun hne => absurd rfl hne, fun _ => ⟨hname, hredacted⟩⟩
    · rintro ⟨hdetails, -, hplaceholders⟩
      obtain ⟨hname, hredacted⟩ := hplaceholders trivial
      exact ⟨⟨hname, hredacted, hredacted, by simp⟩, hdetails⟩
  · have hrow : anonymizeRow P userId row = row := by rw [anonymizeRow, if_neg huser]
    rw [hrow]
    constructor
    · rintro ⟨hcolumns, hdetails⟩
      exact ⟨hdetails, fun _ => hcolumns, fun h => absurd h huser⟩
    · rintro ⟨hdetails, hcolumns, -⟩
      exact ⟨hcolumns huser, hdetails⟩

/-- After an erasure no audit row names the user if and only if nothing that it leaves or writes
mentions the name or the address that the user had. -/
theorem erased_iff_forgettable {s s' : Store} {r : ErasureRequest} {salt : String}
    {revoked : Bool} {current user : Person}
    (hcurrent : s.users.find r.currentId = some current)
    (huser : s.users.find r.userId = some user)
    (h : eraseUserData T boundary services P s r salt revoked = .ok s') :
    (∀ row ∈ s'.auditLog, ¬ row.Names [user.username, user.email]) ↔
      Forgettable P s r current [user.username, user.email] := by
  obtain ⟨current', user', hcurrent', huser', -, hlog⟩ := eraseUserData_ok h
  obtain rfl : current' = current := Option.some.inj (hcurrent'.symm.trans hcurrent)
  obtain rfl : user' = user := Option.some.inj (huser'.symm.trans huser)
  have hid := Table.find_some_key huser
  rw [hid] at hlog
  have hactor : (if current'.id = r.userId then anonymize services P salt user'
      else current').username =
        if current'.id = r.userId then anonymizedName P r.userId else current'.username := by
    rw [← hid]
    split <;> rfl
  rw [hlog]
  simp only [List.forall_mem_append, List.forall_mem_map, List.forall_mem_singleton,
    anonymizeRow_names_iff, erasure_row_iff, hactor]
  constructor
  · rintro ⟨hold, hrequester, hactor, hwritten⟩
    exact ⟨fun row hrow => (hold row hrow).1, fun row hrow => (hold row hrow).2.1,
      fun row hrow => (hold row hrow).2.2, hrequester, hactor, hwritten⟩
  · intro hforgettable
    exact ⟨fun row hrow => ⟨hforgettable.details row hrow, hforgettable.others row hrow,
      hforgettable.placeholders row hrow⟩, hforgettable.requester, hforgettable.actor,
      hforgettable.written⟩

/-! ## A user who is not forgotten -/

/-- One administrator, on the management network. -/
def office : Texts :=
  .single "10.0.0.5" ⟨.v4, 167772165, none, by decide⟩ "10.0.0.0/8" Network.privateBlock
    (by decide)

def officeBoundary : Boundary := ⟨[], ["10.0.0.0/8"]⟩

def noServices : Services where
  hash _ _ := ""
  verifyHash _ _ := false
  verifyTotp _ _ _ := false
  encryptSecret secret _ := secret
  decryptSecret secret _ := some secret
  validatePassword _ _ := .ok ()

/-- A digest of zeros, and no text with a secret. -/
def zeros : Primitives := ⟨fun _ => "00000000000000000000", id⟩

def root : Person where
  id := "1"
  username := "root"
  passwordHash := ""
  role := "admin"
  mfaSecret := none
  mfaEnabled := false
  failedAttempts := 0
  lockedUntil := none
  lastLogin := none
  isActive := true
  email := "root@kepryx.local"

def alice : Person :=
  { root with id := "2", username := "alice", role := "viewer", email := "alice@example.org" }

def fromOffice (currentId : String) : Request := ⟨⟨some "10.0.0.5", none, none⟩, "", currentId⟩

def eraseAlice (currentId : String) (s : Store) : Except HttpError Store :=
  eraseUserData office officeBoundary noServices zeros s
    ⟨fromOffice currentId, "2", "ERASE MY DATA"⟩ "" true

/-- The two users, and a login of the second. -/
def afterLogin : Store where
  users := ⟨[root, alice], by decide⟩
  auditLog := [audit zeros (fromOffice "2") "login_success" alice none none "info" []]

theorem login_forgotten :
    ∃ s', eraseAlice "1" afterLogin = .ok s' ∧
      ((∀ row ∈ s'.auditLog, ¬ row.Names [alice.username, alice.email]) ↔
        Forgettable zeros afterLogin ⟨fromOffice "1", "2", "ERASE MY DATA"⟩ root
          [alice.username, alice.email]) :=
  ⟨_, rfl, @erased_iff_forgettable office officeBoundary noServices zeros _ _ _ "" true _ _
    (by decide +kernel) (by decide +kernel) rfl⟩

def onlyRoot : Store := ⟨⟨[root], by decide⟩, []⟩

def createAlice (s : Store) : Except HttpError Store :=
  createUser office officeBoundary noServices zeros s (fromOffice "1")
    ⟨"alice", "alice@example.org", "", "viewer"⟩ "2" ""

def exportAlice (s : Store) : Except HttpError Store :=
  exportUserData office officeBoundary zeros s (fromOffice "1") "2"

/-- An audit row names the user. -/
def namesAlice : Except HttpError Store → Bool
  | .ok s => s.auditLog.any fun row => row.Names [alice.username, alice.email]
  | .error _ => false

/-- The audit log names the user after the erasure: where an administrator created or exported
the user, and where the user asked for the erasure. -/
theorem erased_still_named :
    namesAlice (do eraseAlice "1" (← createAlice onlyRoot)) ∧
      namesAlice (do eraseAlice "1" (← exportAlice afterLogin)) ∧
      namesAlice (eraseAlice "2" afterLogin) ∧
      ¬ namesAlice (eraseAlice "1" afterLogin) := by
  decide +kernel

end Kepryx.Erasure
