import Kepryx.ManagementNetwork
import Kepryx.Runs

/-!
# The event stream

A ticket is issued to an authenticated request and opens one WebSocket connection, which keeps
the role that its user has at that moment. A message of a topic goes to the connections that
have subscribed to it and may see it. The ticket route does not look at the network.
-/
namespace Kepryx.EventStream
open Kepryx.Accounts Kepryx.ExpiringStore Kepryx.IpNetworks Kepryx.ManagementNetwork
open Kepryx.Runs Kepryx.Tables

/-- `TOPICS` -/
def topicRoles : List (String × List String) := [
  ("alerts", ["viewer", "analyst", "admin"]),
  ("assets", ["viewer", "analyst", "admin"]),
  ("scans", ["analyst", "admin"]),
  ("self_security", ["admin"]),
  ("audit", ["admin"]),
  ("system", ["viewer", "analyst", "admin"])]

/-- `can_subscribe` -/
def canSubscribe (role topic : String) : Bool := role ∈ (topicRoles.lookup topic).getD []

/-- The topics that only an administrator may see. -/
def Reserved (topic : String) : Prop := topicRoles.lookup topic = some ["admin"]

instance (topic : String) : Decidable (Reserved topic) := inferInstanceAs (Decidable (_ = _))

/-- A ticket. Redis holds the identifier of the user; the request and the user that it was
issued to are recorded beside it. -/
structure Ticket where
  userId : String
  origin : Origin
  issuedTo : User
  deriving DecidableEq

/-- `WSClient`, under the number of its connection, with the ticket that opened it and the
topics it has asked for and not left since. -/
structure Client where
  number : ℕ
  userId : String
  username : String
  role : String
  topics : List String := []
  ticket : Ticket
  asked : List String := []
  deriving DecidableEq

structure StreamSettings where
  production : Bool := true
  corsOrigins : List String := []

structure State where
  now : ℕ := 0
  users : Table (fun u : User => u.id)
  tickets : Store String Ticket := .empty
  clients : List Client := []
  opened : ℕ := 0

inductive Event where
  | issue (origin : Origin) (userId ticket : String)
  | connect (origin : Option String) (ticket : String)
  | subscribe (number : ℕ) (topics : List String)
  | unsubscribe (number : ℕ) (topics : List String)
  | disconnect (number : ℕ)
  | publish (topic : String)
  | setUser (user : User)
  | tick (milliseconds : ℕ)

/-- The end of `_jwt_user`: the row of the user, who must be active. -/
def activeUser (s : State) (userId : String) : Option User :=
  (s.users.find userId).filter User.isActive

/-- `issue_websocket_ticket`, for the drawn ticket. -/
def issueTicket (s : State) (origin : Origin) (userId ticket : String) : State :=
  match activeUser s userId with
  | none => s
  | some user => { s with tickets := s.tickets.setex s.now ticket 30000 ⟨user.id, origin, user⟩ }

/-- `authenticate_ws`: the ticket is used up, also by a user who is not active any more. -/
def authenticateWs (s : State) (ticket : String) : State × Option (Ticket × User) :=
  if ticket = "" then (s, none)
  else match s.tickets.get s.now ticket with
    | none => (s, none)
    | some t =>
      ({ s with tickets := s.tickets.delete fun r => r.key = ticket },
        (activeUser s t.userId).map fun user => (t, user))

/-- The start of `websocket_events`. -/
def connect (settings : StreamSettings) (s : State) (origin : Option String) (ticket : String) :
    State :=
  if settings.production ∧ ∀ o, origin = some o → o ∉ settings.corsOrigins then s
  else match authenticateWs s ticket with
    | (s, none) => s
    | (s, some (t, user)) =>
      { s with
        clients := s.clients ++
          [{ number := s.opened, userId := user.id, username := user.username, role := user.role,
             ticket := t }]
        opened := s.opened + 1 }

/-- The answer to `subscribe`: the topics that the role may see are added. -/
def Client.subscribe (topics : List String) (c : Client) : Client :=
  { c with
    topics := c.topics ++ topics.filter fun t => canSubscribe c.role t
    asked := c.asked ++ topics }

/-- The answer to `unsubscribe`. -/
def Client.unsubscribe (topics : List String) (c : Client) : Client :=
  { c with
    topics := c.topics.filter fun t => t ∉ topics
    asked := c.asked.filter fun t => t ∉ topics }

/-- Change the client of a connection. -/
def State.modifyClient (s : State) (number : ℕ) (f : Client → Client) : State :=
  { s with clients := s.clients.map fun c => if c.number = number then f c else c }

/-- The clients that `broadcast` sends a message of a topic to. -/
def targets (s : State) (topic : String) : List Client :=
  s.clients.filter fun c => topic ∈ c.topics && canSubscribe c.role topic

def step (settings : StreamSettings) (s : State) : Event → State
  | .issue origin userId ticket => issueTicket s origin userId ticket
  | .connect origin ticket => connect settings s origin ticket
  | .subscribe number topics => s.modifyClient number (Client.subscribe topics)
  | .unsubscribe number topics => s.modifyClient number (Client.unsubscribe topics)
  | .disconnect number => { s with clients := s.clients.filter fun c => c.number ≠ number }
  | .publish _ => s
  | .setUser user => { s with users := s.users.upsert user }
  | .tick milliseconds => { s with now := s.now + milliseconds }

/-! ## What reaches a client -/

variable (T : Texts) (boundary : Boundary)

/-- The connection was opened with a ticket that was issued to an administrator outside of the
management network. -/
def Client.FromOutside (c : Client) : Prop :=
  c.ticket.issuedTo.role = "admin" ∧ Outside T boundary c.ticket.origin

/-- No message of a reserved topic is sent to such a connection. -/
def Contained (s : State) : Event → Prop
  | .publish topic => Reserved topic → ∀ c ∈ targets s topic, ¬ c.FromOutside T boundary
  | _ => True

/-- No message of a reserved topic is published while such a connection of an administrator has
asked for it. -/
def Unasked (s : State) : Event → Prop
  | .publish topic => Reserved topic → ∀ c ∈ s.clients, c.FromOutside T boundary →
      c.role = "admin" → topic ∉ c.asked
  | _ => True

/-- A client is subscribed to what it has asked for and may see. -/
def Client.Consistent (c : Client) : Prop :=
  ∀ topic, topic ∈ c.topics ↔ topic ∈ c.asked ∧ canSubscribe c.role topic

/-- Only an administrator may see a reserved topic. -/
theorem canSubscribe_reserved {role topic : String} (h : Reserved topic) :
    canSubscribe role topic ↔ role = "admin" := by
  rw [canSubscribe, show topicRoles.lookup topic = some ["admin"] from h]
  simp

theorem Client.Consistent.subscribe {c : Client} (h : c.Consistent) (topics : List String) :
    (c.subscribe topics).Consistent := by
  intro topic
  have htopic := h topic
  simp only [Client.subscribe, List.mem_append, List.mem_filter]
  constructor
  · rintro (hin | ⟨hin, hcan⟩)
    · exact ⟨.inl (htopic.mp hin).1, (htopic.mp hin).2⟩
    · exact ⟨.inr hin, hcan⟩
  · rintro ⟨hin | hin, hcan⟩
    · exact .inl (htopic.mpr ⟨hin, hcan⟩)
    · exact .inr ⟨hin, hcan⟩

theorem Client.Consistent.unsubscribe {c : Client} (h : c.Consistent) (topics : List String) :
    (c.unsubscribe topics).Consistent := by
  intro topic
  have htopic := h topic
  simp only [Client.unsubscribe, List.mem_filter]
  constructor
  · rintro ⟨hin, hkept⟩
    exact ⟨⟨(htopic.mp hin).1, hkept⟩, (htopic.mp hin).2⟩
  · rintro ⟨⟨hin, hkept⟩, hcan⟩
    exact ⟨htopic.mpr ⟨hin, hcan⟩, hkept⟩

def Invariant (s : State) : Prop := ∀ c ∈ s.clients, c.Consistent

theorem invariant_modifyClient {s : State} (hs : Invariant s) (number : ℕ) {f : Client → Client}
    (hf : ∀ c : Client, c.Consistent → (f c).Consistent) :
    Invariant (s.modifyClient number f) := by
  intro c hc
  obtain ⟨c', hc', rfl⟩ := List.mem_map.mp hc
  split
  · exact hf c' (hs c' hc')
  · exact hs c' hc'

/-- A connection begins without topics. -/
theorem connect_clients (settings : StreamSettings) (s : State) (origin : Option String)
    (ticket : String) : (connect settings s origin ticket).clients = s.clients ∨
      ∃ c : Client, c.topics = [] ∧ c.asked = [] ∧
        (connect settings s origin ticket).clients = s.clients ++ [c] := by
  have hclients : (authenticateWs s ticket).1.clients = s.clients := by
    unfold authenticateWs
    split
    · rfl
    · split <;> rfl
  unfold connect
  split
  · exact .inl rfl
  · split
    · rename_i s' hauth
      rw [hauth] at hclients
      exact .inl hclients
    · rename_i s' t user hauth
      rw [hauth] at hclients
      exact .inr ⟨_, rfl, rfl, congrArg (· ++ _) hclients⟩

theorem invariant_connect {s : State} (hs : Invariant s) (settings : StreamSettings)
    (origin : Option String) (ticket : String) : Invariant (connect settings s origin ticket) := by
  rcases connect_clients settings s origin ticket with hclients | ⟨new, htopics, hasked, hclients⟩
  · exact fun c hc => hs c (hclients ▸ hc)
  · intro c hc
    rw [hclients] at hc
    rcases List.mem_append.mp hc with hc | hc
    · exact hs c hc
    · rw [List.mem_singleton.mp hc]
      intro topic
      simp [htopics, hasked]

theorem invariant_step {settings : StreamSettings} {s : State} (hs : Invariant s) (e : Event) :
    Invariant (step settings s e) := by
  cases e with
  | issue origin userId ticket =>
    unfold step issueTicket
    dsimp only
    split
    · exact hs
    · exact hs
  | connect origin ticket => exact invariant_connect hs settings origin ticket
  | subscribe number topics => exact invariant_modifyClient hs number fun _ h => h.subscribe topics
  | unsubscribe number topics =>
    exact invariant_modifyClient hs number fun _ h => h.unsubscribe topics
  | disconnect number => exact fun c hc => hs c (List.mem_filter.mp hc).1
  | publish topic => exact hs
  | setUser user => exact hs
  | tick milliseconds => exact hs

theorem contained_iff {s : State} (hs : Invariant s) (e : Event) :
    Contained T boundary s e ↔ Unasked T boundary s e := by
  cases e with
  | publish topic =>
    refine imp_congr_right fun hreserved => ?_
    constructor
    · intro hcontained c hc houtside hadmin hasked
      have hcan : canSubscribe c.role topic := (canSubscribe_reserved hreserved).mpr hadmin
      have hin : topic ∈ c.topics := (hs c hc topic).mpr ⟨hasked, hcan⟩
      exact hcontained c (List.mem_filter.mpr ⟨hc, by simp [hin, hcan]⟩) houtside
    · intro hunasked c hc houtside
      obtain ⟨hc, htarget⟩ := List.mem_filter.mp hc
      simp only [Bool.and_eq_true, decide_eq_true_eq] at htarget
      obtain ⟨hin, hcan⟩ := htarget
      exact hunasked c hc houtside ((canSubscribe_reserved hreserved).mp hcan)
        ((hs c hc topic).mp hin).1
  | issue origin userId ticket => exact Iff.rfl
  | connect origin ticket => exact Iff.rfl
  | subscribe number topics => exact Iff.rfl
  | unsubscribe number topics => exact Iff.rfl
  | disconnect number => exact Iff.rfl
  | setUser user => exact Iff.rfl
  | tick milliseconds => exact Iff.rfl

/-- From outside of the management network no guard lets an administrator or a privileged API
token through. A connection opened with a ticket that was issued there to an administrator is
never sent a message of a reserved topic, if and only if none is published while such a
connection, with the role of an administrator, has asked for the topic. -/
theorem boundary_kept_iff (settings : StreamSettings) (auth : Authentication) :
    (∀ o, Outside T boundary o →
      (∀ scope userRoles c, Privileged auth scope c →
        ∃ error, requireScope T boundary auth scope userRoles o c = .error error) ∧
      ∀ roles managementOnly user, user.role = "admin" →
        ∃ error, requireRole T boundary roles managementOnly o user = .error error) ∧
    ∀ users es, Along (step settings) (Contained T boundary) { users := users } es ↔
      Along (step settings) (Unasked T boundary) { users := users } es := by
  refine ⟨fun o houtside => ⟨fun scope userRoles c hprivileged =>
    requireScope_outside houtside hprivileged, fun roles managementOnly user hadmin =>
    requireRole_outside houtside hadmin⟩, fun users es => ?_⟩
  exact along_iff_of_invariant Invariant (fun _ e hs => contained_iff T boundary hs e)
    (fun _ e hs _ => invariant_step hs e) (by simp [Invariant]) es

/-! ## An administrator outside -/

def remote : Texts :=
  .single "203.0.113.9" ⟨.v4, 3405803785, none, by decide⟩ "10.0.0.0/8" Network.privateBlock
    (by decide)

def privateNetwork : Boundary := ⟨[], ["10.0.0.0/8"]⟩

def fromRemote : Origin := ⟨some "203.0.113.9", none, none⟩

theorem outside_remote : Outside remote privateNetwork fromRemote := by
  intro a ha cidr hcidr n hn
  obtain rfl := List.mem_singleton.mp hcidr
  have hip : getRequestIp remote privateNetwork fromRemote = "203.0.113.9" := by decide +kernel
  rw [hip] at ha
  cases ha
  cases hn
  decide

def admin : User where
  id := "1"
  username := "root"
  passwordHash := ""
  role := "admin"
  mfaSecret := none
  mfaEnabled := false
  failedAttempts := 0
  lockedUntil := none
  lastLogin := none
  isActive := true

/-- Every bearer token is the administrator's. -/
def asAdmin : Authentication := ⟨fun _ => .ok admin, fun _ => none⟩

def anyOrigin : StreamSettings := { production := false }

/-- The administrator takes a ticket, connects and asks for the audit topic. -/
def watching : List Event :=
  [.issue fromRemote "1" "ticket", .connect none "ticket", .subscribe 0 ["audit"]]

theorem admin_watching :
    (∃ error, requireScope remote privateNetwork asAdmin "audit:read" ["analyst"] fromRemote
        { bearer := some "token" } = .error error) ∧
      (∃ error, requireRole remote privateNetwork ["admin"] true fromRemote admin =
        .error error) ∧
      (Along (step anyOrigin) (Contained remote privateNetwork)
          { users := ⟨[admin], by decide⟩ } watching ↔
        Along (step anyOrigin) (Unasked remote privateNetwork)
          { users := ⟨[admin], by decide⟩ } watching) := by
  obtain ⟨hguards, hstream⟩ := boundary_kept_iff remote privateNetwork anyOrigin asAdmin
  obtain ⟨hscope, hrole⟩ := hguards fromRemote outside_remote
  exact ⟨hscope _ _ _ (.inl ⟨"token", admin, rfl, rfl, rfl⟩), hrole _ _ _ rfl, hstream _ _⟩

def watcher : Client where
  number := 0
  userId := "1"
  username := "root"
  role := "admin"
  topics := ["audit"]
  ticket := ⟨"1", fromRemote, admin⟩
  asked := ["audit"]

/-- The message of the audit topic is sent to the connection. -/
theorem audit_sent_outside :
    ¬ Along (step anyOrigin) (Contained remote privateNetwork)
      { users := ⟨[admin], by decide⟩ } (watching ++ [.publish "audit"]) := by
  rintro ⟨-, -, -, hcontained, -⟩
  have hsent : watcher ∈ targets
      (run (step anyOrigin) { users := ⟨[admin], by decide⟩ } watching) "audit" := by
    decide +kernel
  exact hcontained (by decide) watcher hsent ⟨rfl, outside_remote⟩

end Kepryx.EventStream
