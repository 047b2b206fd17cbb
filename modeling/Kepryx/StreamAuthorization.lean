import Kepryx.Administrators
import Kepryx.EventStream

/-!
# The event stream and the live user record

A connection keeps the role that its user had when it was opened, while the row of the user is
deactivated, erased or given another role. These requests change the row and no connection.
-/
namespace Kepryx.StreamAuthorization
open Kepryx.Accounts Kepryx.Administrators Kepryx.Erasure Kepryx.EventStream Kepryx.IpNetworks
open Kepryx.ManagementNetwork Kepryx.Redaction Kepryx.Results Kepryx.Runs Kepryx.Tables

variable (settings : StreamSettings) (T : Texts) (boundary : Boundary) (services : Services)
  (P : Primitives)

/-- The database, and the tickets and connections. -/
structure State where
  store : Erasure.Store
  stream : EventStream.State := { users := .empty }

inductive Event where
  | issue (origin : Origin) (userId ticket : String)
  | connect (origin : Option String) (ticket : String)
  | subscribe (number : ℕ) (topics : List String)
  | unsubscribe (number : ℕ) (topics : List String)
  | disconnect (number : ℕ)
  | broadcast (topic : String)
  | deleteUser (r : ErasureRequest)
  | eraseUserData (r : ErasureRequest) (salt : String) (revoked : Bool)
  | changeRole (userId role : String)
  | tick (milliseconds : ℕ)

/-- The rows as the stream reads them. -/
def accounts (users : Users) : Table (fun u : User => u.id) where
  rows := users.rows.map Person.toUser
  nodup := by
    rw [List.map_map]
    exact users.nodup

/-- `delete_user` -/
def deleteUser (s : Erasure.Store) (r : ErasureRequest) : Except HttpError Erasure.Store := do
  let current ← currentUser s r.toRequest
  let target ← checkDeletion T boundary current r (s.users.find r.userId)
  let entry := audit P r.toRequest "user_deactivated" (some current) "user" r.userId "info" []
  return ⟨s.users.put { target with isActive := false }, s.auditLog ++ [entry]⟩

/-- `UPDATE users SET role = … WHERE id = …` -/
def changeRole (s : Erasure.Store) (userId role : String) : Erasure.Store :=
  match s.users.find userId with
  | none => s
  | some user => { s with users := s.users.put { user with role := role } }

/-- A step of the stream, over the rows of the moment. -/
def State.streamStep (s : State) (e : EventStream.Event) : State :=
  { s with stream := EventStream.step settings { s.stream with users := accounts s.store.users } e }

/-- The transaction of a request: what it commits, or nothing. -/
def State.transact (s : State) (result : Except HttpError Erasure.Store) : State :=
  match result with
  | .ok store => { s with store := store }
  | .error _ => s

def step (s : State) : Event → State
  | .issue origin userId ticket => s.streamStep settings (.issue origin userId ticket)
  | .connect origin ticket => s.streamStep settings (.connect origin ticket)
  | .subscribe number topics => s.streamStep settings (.subscribe number topics)
  | .unsubscribe number topics => s.streamStep settings (.unsubscribe number topics)
  | .disconnect number => s.streamStep settings (.disconnect number)
  | .broadcast topic => s.streamStep settings (.publish topic)
  | .deleteUser r => s.transact (deleteUser T boundary P s.store r)
  | .eraseUserData r salt revoked =>
    s.transact (eraseUserData T boundary services P s.store r salt revoked)
  | .changeRole userId role => { s with store := changeRole s.store userId role }
  | .tick milliseconds => s.streamStep settings (.tick milliseconds)

/-! ## Authorization -/

/-- The user is active and their role may see the topic. -/
def Authorized (users : Users) (userId topic : String) : Prop :=
  ∃ user ∈ users.find userId, user.isActive ∧ canSubscribe user.role topic

instance (users : Users) (userId topic : String) : Decidable (Authorized users userId topic) :=
  inferInstanceAs (Decidable (∃ _, _))

/-- A broadcast goes to connections of authorized users only. -/
def SentToAuthorized (s : State) : Event → Prop
  | .broadcast topic => ∀ c ∈ targets s.stream topic, Authorized s.store.users c.userId topic
  | _ => True

instance (s : State) : DecidablePred (SentToAuthorized s)
  | .broadcast _ => inferInstanceAs (Decidable (∀ c ∈ _, _))
  | .issue _ _ _ | .connect _ _ | .subscribe _ _ | .unsubscribe _ _ | .disconnect _
  | .deleteUser _ | .eraseUserData _ _ _ | .changeRole _ _ | .tick _ => isTrue trivial

/-- Whatever is broadcast next, it goes to connections of authorized users only. -/
def LiveAuthorization (s : State) : Prop := ∀ topic, SentToAuthorized s (.broadcast topic)

/-- A request that deactivates a user is refused, or no connection of the user is subscribed to
a topic. A role is given to a user who is not active, or the connections of the user are
subscribed only to topics that it may see. A subscription asks for no topic that only the role
kept in the connection may see, and not the user. -/
def KeepsUp (s : State) : Event → Prop
  | .subscribe number topics =>
    ∀ c ∈ s.stream.clients, c.number = number → ∀ topic ∈ topics, canSubscribe c.role topic →
      Authorized s.store.users c.userId topic
  | .deleteUser r =>
    (deleteUser T boundary P s.store r).isOk →
      ∀ c ∈ s.stream.clients, c.userId = r.userId → c.topics = []
  | .eraseUserData r salt revoked =>
    (eraseUserData T boundary services P s.store r salt revoked).isOk →
      ∀ c ∈ s.stream.clients, c.userId = r.userId → c.topics = []
  | .changeRole userId role =>
    ∀ user ∈ s.store.users.find userId, user.isActive →
      ∀ c ∈ s.stream.clients, c.userId = userId → ∀ topic ∈ c.topics, canSubscribe role topic
  | _ => True

instance (s : State) : DecidablePred (KeepsUp T boundary services P s)
  | .subscribe _ _ => inferInstanceAs (Decidable (∀ c ∈ _, _))
  | .deleteUser _ => inferInstanceAs (Decidable (_ → _))
  | .eraseUserData _ _ _ => inferInstanceAs (Decidable (_ → _))
  | .changeRole _ _ => inferInstanceAs (Decidable (∀ _, _))
  | .issue _ _ _ | .connect _ _ | .unsubscribe _ _ | .disconnect _ | .broadcast _ | .tick _ =>
    isTrue trivial

/-- Every connection is subscribed only to what its user may see. -/
def AllAuthorized (users : Users) (clients : List Client) : Prop :=
  ∀ c ∈ clients, ∀ topic ∈ c.topics, Authorized users c.userId topic

/-- The topics of a connection are those that its own role may see. -/
theorem liveAuthorization_iff {s : State} (hs : EventStream.Invariant s.stream) :
    LiveAuthorization s ↔ AllAuthorized s.store.users s.stream.clients := by
  constructor
  · intro h c hc topic htopic
    have hcan : canSubscribe c.role topic := ((hs c hc topic).mp htopic).2
    exact h topic c (List.mem_filter.mpr ⟨hc, by simp [htopic, hcan]⟩)
  · intro h topic c hc
    obtain ⟨hc, htarget⟩ := List.mem_filter.mp hc
    simp only [Bool.and_eq_true, decide_eq_true_eq] at htarget
    exact h c hc topic htarget.1

/-! ## Changes of a row -/

section Rows
variable {users : Users} {clients : List Client} {row user : Person}

theorem authorized_put (hstored : (users.find row.id).isSome) {userId topic : String} :
    Authorized (users.put row) userId topic ↔
      if userId = row.id then row.isActive ∧ canSubscribe row.role topic
      else Authorized users userId topic := by
  by_cases hid : userId = row.id
  · have hself := Table.find_put_self (t := users) (r := row) hstored
    rw [if_pos hid, Authorized, hid, hself]
    simp
  · have hother := Table.find_put_of_ne (t := users) (r := row) hid
    rw [if_neg hid, Authorized, hother]
    exact Iff.rfl

variable (row) in
theorem allAuthorized_put (hstored : (users.find row.id).isSome)
    (hlive : AllAuthorized users clients) : AllAuthorized (users.put row) clients ↔
      ∀ c ∈ clients, c.userId = row.id → ∀ topic ∈ c.topics,
        row.isActive ∧ canSubscribe row.role topic := by
  unfold AllAuthorized
  simp only [authorized_put hstored]
  constructor
  · intro h c hc hid topic htopic
    have hrow := h c hc topic htopic
    rwa [if_pos hid] at hrow
  · intro h c hc topic htopic
    by_cases hid : c.userId = row.id
    · rw [if_pos hid]
      exact h c hc hid topic htopic
    · rw [if_neg hid]
      exact hlive c hc topic htopic

/-- A user who is deactivated may see nothing. -/
theorem allAuthorized_deactivate (hstored : (users.find row.id).isSome)
    (hinactive : row.isActive = false) (hlive : AllAuthorized users clients) :
    AllAuthorized (users.put row) clients ↔ ∀ c ∈ clients, c.userId = row.id → c.topics = [] := by
  rw [allAuthorized_put row hstored hlive, hinactive]
  simp [List.eq_nil_iff_forall_not_mem]

theorem allAuthorized_changeRole {store : Erasure.Store} {userId role : String}
    (hlive : AllAuthorized store.users clients) :
    AllAuthorized (changeRole store userId role).users clients ↔
      ∀ user ∈ store.users.find userId, user.isActive →
        ∀ c ∈ clients, c.userId = userId → ∀ topic ∈ c.topics, canSubscribe role topic := by
  unfold changeRole
  cases hfind : store.users.find userId with
  | none => exact iff_of_true hlive fun user huser => by cases huser
  | some user =>
    have hid : user.id = userId := id_of_find hfind
    have hstored : (store.users.find user.id).isSome := by
      rw [hid, hfind]
      rfl
    refine (allAuthorized_put { user with role := role } hstored hlive).trans ?_
    simp only [hid, Option.mem_some_iff, forall_eq']
    constructor
    · intro h _ c hc huser topic htopic
      exact (h c hc huser topic htopic).2
    · intro h c hc huser topic htopic
      -- a subscribed connection had an active user before
      obtain ⟨user', hfind', hactive, -⟩ := hlive c hc topic htopic
      rw [huser, hfind] at hfind'
      cases hfind'
      exact ⟨hactive, h hactive c hc huser topic htopic⟩

end Rows

variable {T boundary services P}

/-- A transaction that stores an inactive row of a user. -/
def Deactivates (users users' : Users) (userId : String) : Prop :=
  ∃ row : Person, row.id = userId ∧ row.isActive = false ∧ (users.find row.id).isSome ∧
    users' = users.put row

theorem deleteUser_ok {s s' : Erasure.Store} {r : ErasureRequest}
    (h : deleteUser T boundary P s r = .ok s') : Deactivates s.users s'.users r.userId := by
  unfold deleteUser at h
  obtain ⟨current, -, h⟩ := bind_eq_ok.mp h
  obtain ⟨target, hcheck, h⟩ := bind_eq_ok.mp h
  cases h
  have hfind := (checkDeletion_ok hcheck).1
  have hid : target.id = r.userId := id_of_find hfind
  refine ⟨{ target with isActive := false }, hid, rfl, ?_, rfl⟩
  show (s.users.find target.id).isSome
  rw [hid, hfind]
  rfl

theorem eraseUserData_deactivates {s s' : Erasure.Store} {r : ErasureRequest} {salt : String}
    {revoked : Bool} (h : eraseUserData T boundary services P s r salt revoked = .ok s') :
    Deactivates s.users s'.users r.userId := by
  obtain ⟨current, user, -, hfind, husers, -⟩ := eraseUserData_ok h
  have hid : user.id = r.userId := id_of_find hfind
  refine ⟨anonymize services P salt user, hid, rfl, ?_, husers⟩
  show (s.users.find user.id).isSome
  rw [hid, hfind]
  rfl

/-- A request that deactivates a user, or is refused. -/
theorem allAuthorized_transact {s : State} {result : Except HttpError Erasure.Store}
    {userId : String} (hdeactivates : ∀ store, result = .ok store →
      Deactivates s.store.users store.users userId)
    (hlive : AllAuthorized s.store.users s.stream.clients) :
    AllAuthorized (s.transact result).store.users (s.transact result).stream.clients ↔
      (result.isOk → ∀ c ∈ s.stream.clients, c.userId = userId → c.topics = []) := by
  cases result with
  | error e => exact iff_of_true hlive nofun
  | ok store =>
    obtain ⟨row, hid, hinactive, hstored, husers⟩ := hdeactivates store rfl
    have hput := allAuthorized_deactivate hstored hinactive hlive
    rw [← husers, hid] at hput
    exact hput.trans ⟨fun h _ => h, fun h => h rfl⟩

/-! ## Steps of the stream -/

section Stream
variable {settings : StreamSettings} {users : Users} {clients : List Client}

theorem allAuthorized_subscribe (number : ℕ) (topics : List String)
    (hlive : AllAuthorized users clients) :
    AllAuthorized users
        (clients.map fun c => if c.number = number then c.subscribe topics else c) ↔
      ∀ c ∈ clients, c.number = number → ∀ topic ∈ topics, canSubscribe c.role topic →
        Authorized users c.userId topic := by
  unfold AllAuthorized
  rw [List.forall_mem_map]
  constructor
  · intro h c hc hnumber topic htopic hcan
    have hafter := h c hc
    rw [if_pos hnumber] at hafter
    exact hafter topic (List.mem_append_right _ (List.mem_filter.mpr ⟨htopic, hcan⟩))
  · intro h c hc topic htopic
    split at htopic
    · rename_i hnumber
      rw [if_pos hnumber]
      rcases List.mem_append.mp htopic with hold | hnew
      · exact hlive c hc topic hold
      · obtain ⟨hasked, hcan⟩ := List.mem_filter.mp hnew
        exact h c hc hnumber topic hasked hcan
    · rename_i hnumber
      rw [if_neg hnumber]
      exact hlive c hc topic htopic

theorem allAuthorized_unsubscribe (number : ℕ) (topics : List String)
    (hlive : AllAuthorized users clients) :
    AllAuthorized users
      (clients.map fun c => if c.number = number then c.unsubscribe topics else c) := by
  intro c hc topic htopic
  obtain ⟨c', hc', rfl⟩ := List.mem_map.mp hc
  split at htopic
  · rename_i hnumber
    rw [if_pos hnumber]
    exact hlive c' hc' topic (List.mem_filter.mp htopic).1
  · rename_i hnumber
    rw [if_neg hnumber]
    exact hlive c' hc' topic htopic

/-- A new connection has no topics yet. -/
theorem allAuthorized_connect (s : EventStream.State) (origin : Option String) (ticket : String)
    (hlive : AllAuthorized users s.clients) :
    AllAuthorized users (connect settings s origin ticket).clients := by
  rcases connect_clients settings s origin ticket with hclients | ⟨new, htopics, -, hclients⟩
  · rwa [hclients]
  · rw [hclients]
    intro c hc topic htopic
    rcases List.mem_append.mp hc with hc | hc
    · exact hlive c hc topic htopic
    · rw [List.mem_singleton.mp hc, htopics] at htopic
      cases htopic

end Stream

/-! ## Runs -/

variable {settings : StreamSettings}

/-- Connections hold the topics that their roles may see, and their users may see these. -/
structure Invariant (s : State) : Prop where
  consistent : EventStream.Invariant s.stream
  live : AllAuthorized s.store.users s.stream.clients

theorem consistent_step {s : State} (hs : EventStream.Invariant s.stream) (e : Event) :
    EventStream.Invariant (step settings T boundary services P s e).stream := by
  have hview : EventStream.Invariant { s.stream with users := accounts s.store.users } := hs
  have htransact : ∀ result, EventStream.Invariant (s.transact result).stream := by
    intro result
    cases result <;> exact hs
  cases e with
  | deleteUser r => exact htransact _
  | eraseUserData r salt revoked => exact htransact _
  | changeRole userId role => exact hs
  | issue origin userId ticket => exact invariant_step hview _
  | connect origin ticket => exact invariant_step hview _
  | subscribe number topics => exact invariant_step hview _
  | unsubscribe number topics => exact invariant_step hview _
  | disconnect number => exact invariant_step hview _
  | broadcast topic => exact invariant_step hview _
  | tick milliseconds => exact invariant_step hview _

theorem live_step_iff {s : State} (hs : Invariant s) (e : Event) :
    AllAuthorized (step settings T boundary services P s e).store.users
        (step settings T boundary services P s e).stream.clients ↔
      KeepsUp T boundary services P s e := by
  cases e with
  | issue origin userId ticket =>
    refine iff_of_true ?_ trivial
    have hclients : (issueTicket { s.stream with users := accounts s.store.users } origin userId
        ticket).clients = s.stream.clients := by
      unfold issueTicket
      split <;> rfl
    show AllAuthorized s.store.users (issueTicket _ origin userId ticket).clients
    rw [hclients]
    exact hs.live
  | connect origin ticket =>
    exact iff_of_true (allAuthorized_connect _ origin ticket hs.live) trivial
  | subscribe number topics => exact allAuthorized_subscribe number topics hs.live
  | unsubscribe number topics =>
    exact iff_of_true (allAuthorized_unsubscribe number topics hs.live) trivial
  | disconnect number =>
    exact iff_of_true (fun c hc => hs.live c (List.mem_filter.mp hc).1) trivial
  | broadcast topic => exact iff_of_true hs.live trivial
  | deleteUser r => exact allAuthorized_transact (fun _ => deleteUser_ok) hs.live
  | eraseUserData r salt revoked =>
    exact allAuthorized_transact (fun _ => eraseUserData_deactivates) hs.live
  | changeRole userId role => exact allAuthorized_changeRole hs.live
  | tick milliseconds => exact iff_of_true hs.live trivial

/-- In every state of a run a broadcast of any topic would go to connections of authorized users
only, exactly when the steps of the run keep the connections up with the rows of the users; and
then every broadcast of the run does. -/
theorem live_authorization_iff (settings : StreamSettings) (T : Texts) (boundary : Boundary)
    (services : Services) (P : Primitives) (store : Erasure.Store) (events : List Event) :
    (Always (step settings T boundary services P) LiveAuthorization { store := store } events ↔
      Along (step settings T boundary services P) (KeepsUp T boundary services P)
        { store := store } events) ∧
    (Along (step settings T boundary services P) (KeepsUp T boundary services P)
        { store := store } events →
      Along (step settings T boundary services P) SentToAuthorized { store := store } events) := by
  have hstart : Invariant { store := store } :=
    ⟨fun c hc => absurd hc List.not_mem_nil, fun c hc => absurd hc List.not_mem_nil⟩
  have hiff : Always (step settings T boundary services P) LiveAuthorization
      { store := store } events ↔ Along (step settings T boundary services P)
        (KeepsUp T boundary services P) { store := store } events := by
    refine always_iff_along_of_invariant (J := Invariant)
      (fun s hs => (liveAuthorization_iff hs.consistent).mpr hs.live) ?_ ?_ hstart events
    · intro s e hs
      rw [liveAuthorization_iff (consistent_step hs.consistent e)]
      exact live_step_iff hs e
    · intro s e hs hkeeps
      exact ⟨consistent_step hs.consistent e, (live_step_iff hs e).mpr hkeeps⟩
  refine ⟨hiff, fun hkeeps => (hiff.mpr hkeeps).along fun s hs e => ?_⟩
  cases e with
  | broadcast topic => exact hs topic
  | _ => trivial

/-- An administrator and a viewer. -/
def twoUsers : Erasure.Store := ⟨afterLogin.users, []⟩

/-- The viewer takes a ticket, connects and subscribes to the alerts. -/
def aliceWatches : List Event :=
  [.issue (fromOffice "2").origin "2" "ticket", .connect none "ticket", .subscribe 0 ["alerts"]]

/-- The administrator deletes the viewer. -/
def deleteAlice : Event := .deleteUser ⟨fromOffice "1", "2", ""⟩

/-- The connection is left before the user is deleted. -/
theorem left_before_deletion :
    Along (step anyOrigin office officeBoundary noServices zeros) SentToAuthorized
      { store := twoUsers }
      (aliceWatches ++ [.broadcast "alerts", .disconnect 0, deleteAlice, .broadcast "alerts"]) :=
  (live_authorization_iff anyOrigin office officeBoundary noServices zeros twoUsers _).2
    (by decide +kernel)

/-- The connection of a deleted user is sent the next message. -/
theorem sent_to_deleted_user :
    ¬ ∀ (settings : StreamSettings) (T : Texts) (boundary : Boundary) (services : Services)
      (P : Primitives) (store : Erasure.Store) (events : List Event),
      Along (step settings T boundary services P) SentToAuthorized { store := store } events := by
  intro h
  have hsent := h anyOrigin office officeBoundary noServices zeros twoUsers
    (aliceWatches ++ [deleteAlice, .broadcast "alerts"])
  revert hsent
  decide +kernel

end Kepryx.StreamAuthorization
