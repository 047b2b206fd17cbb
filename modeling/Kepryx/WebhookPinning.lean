import Kepryx.AddressTexts
import Kepryx.WebhookDelivery

/-!
# The connections of a webhook delivery

A delivery checks every address of its host before it posts, and its transport replaces the host
of each request by the address that was checked. Here a delivery also shows what it asks the
resolver and where it connects, so that the two can be compared.
-/
namespace Kepryx.WebhookPinning

open Kepryx.IpNetworks (Address)
open Kepryx.IpLiterals Kepryx.WebhookDispatch Kepryx.JsonText

/-! ## The outside -/

/-- The names that were looked up, and the addresses that connections were opened to. -/
structure Contacts where
  lookups : List String := []
  connections : List Address := []

def Contacts.append (c d : Contacts) : Contacts :=
  ⟨c.lookups ++ d.lookups, c.connections ++ d.connections⟩

/-- `str(address)`, which the parser reads back. -/
structure Printing where
  str : Address → String
  read_str : ∀ {text a}, ipAddress text = some a → ipAddress (str a).toList = some a

/-- Addresses printed in full. -/
def fullPrinting : Printing where
  str a := String.ofList (fullText a)
  read_str h := by
    rw [String.toList_ofList]
    exact ipAddress_fullText h

/-- The transport of httpx under `_PinnedIPTransport`: what an attempt to send a request asks and
opens. A host that is an address is not looked up, and no other address is connected to. -/
structure Transport where
  contacts : ℕ → Request → Contacts
  literal : ∀ {n r a}, ipAddress r.url.host.toList = some a →
    (contacts n r).lookups = [] ∧ ∀ c ∈ (contacts n r).connections, c = a

/-- A transport that connects to addresses, and looks up every other host in vain. -/
def plainTransport : Transport where
  contacts _ r :=
    match ipAddress r.url.host.toList with
    | some a => { connections := [a] }
    | none => { lookups := [r.url.host] }
  literal h := by simp [h]

/-- The outside of one delivery: the answers of the resolver by the number of the call, and what
the delivery does not decide itself. -/
structure Outside where
  printing : Printing
  transport : Transport
  answers : ℕ → String → Except LookupError (List String)
  rest : Surroundings Address

/-- The surroundings after some lookups. -/
def Outside.surroundings (o : Outside) (lookups : ℕ) : Surroundings Address :=
  { o.rest with
    ipAddress := fun text => ipAddress text.toList
    isPublicIp := isGlobal
    addressText := o.printing.str
    getaddrinfo := o.answers lookups }

/-! ## `dispatch_one` with its contacts -/

variable (o : Outside)

/-- `_resolve_public_ip` asks the resolver once. -/
def resolve (made : Contacts) (hostname : String) :
    Except String (Except String String) × Contacts :=
  (resolvePublicIp (o.surroundings made.lookups.length) hostname,
    made.append { lookups := [hostname] })

/-- The pinned address: only a host that is no address literal is looked up. -/
def pin (made : Contacts) (hostname : String) : Except String (Except String String) × Contacts :=
  match ipAddress hostname.toList with
  | some address =>
    if isGlobal address then (.ok (.ok (o.printing.str address)), made)
    else
      (.ok (.error ("Webhook URL resolves to non-routable IP: " ++ o.printing.str address)), made)
  | none => resolve o made hostname

/-- The attempts of `_post_with_retry` from number `n` on, with `left` more after it. -/
def attempts (request : Request) : ℕ → ℕ → Contacts → Except String ℕ × Contacts
  | left, n, made =>
    let made := made.append (o.transport.contacts n request)
    match answerOf (o.rest.attempt n request) with
    | .ok code => (.ok code, made)
    | .error (.other text) => (.error text, made)
    | .error (.retried className) =>
      match left with
      | 0 => (.error (retryErrorText o.rest.futureAddress className), made)
      | left + 1 => attempts request left (n + 1) made

/-- `_post_with_retry` -/
def post (url : String) (d : Destination) (eventType : String) (data : List (String × Json))
    (made : Contacts) : Except String ℕ × Contacts :=
  match o.rest.httpxUrl url with
  | .error text => (.error text, made)
  | .ok u =>
    attempts o (sentRequest o.rest u d.hostname d.resolvedIp d.secret eventType data) 2 0 made

/-- The checks before the post. -/
def checked (w : Webhook) (made : Contacts) :
    Except String (Except (String × String) Destination) × Contacts :=
  match o.rest.urlparse w.url with
  | .error text => (.error text, made)
  | .ok parsed =>
    match parsed.hostname.filter (· ≠ "") with
    | none => (.ok (.error ("invalid_url", "missing hostname")), made)
    | some hostname =>
      if ¬ (parsed.scheme = "http" ∨ parsed.scheme = "https") ∨
          (parsed.username.filter (· ≠ "")).isSome ∨ (parsed.password.filter (· ≠ "")).isSome then
        (.ok (.error ("invalid_url", "invalid webhook URL")), made)
      else
        match pin o made hostname with
        | (.error text, made) => (.error text, made)
        | (.ok (.error reason), made) => (.ok (.error ("ssrf_blocked", reason)), made)
        | (.ok (.ok resolvedIp), made) =>
          match o.rest.decryptSecret w.secretEncrypted w.secretSalt with
          | none => (.ok (.error ("decrypt_error", "secret decryption failed")), made)
          | some secret => (.ok (.ok ⟨hostname, resolvedIp, secret⟩), made)

/-- `dispatch_one` -/
def dispatchOne (w : Webhook) (eventType : String) (data : List (String × Json)) :
    Except String (Webhook × DeliveryResult) × Contacts :=
  match checked o w {} with
  | (.error text, made) => (.error text, made)
  | (.ok (.error (status, error)), made) =>
    (.ok ({ w with lastStatus := some status }, .notDelivered error), made)
  | (.ok (.ok d), made) =>
    match post o w.url d eventType data made with
    | (.ok code, made) => (.ok (recordSuccess o.rest.now code w, .delivered code), made)
    | (.error text, made) => (.ok (recordFailure text w, .notDelivered (cut 200 text)), made)

/-- What the delivery asks and opens. -/
def contacts (w : Webhook) (eventType : String) (data : List (String × Json)) : Contacts :=
  (dispatchOne o w eventType data).2

variable {o}

/-! ## The same delivery as without the contacts -/

theorem attempts_fst (request : Request) (left n : ℕ) (made : Contacts) :
    (attempts o request left n made).1 =
      retrying o.rest.futureAddress (fun n => o.rest.attempt n request) left n := by
  induction left generalizing n made with
  | zero =>
    unfold attempts retrying
    dsimp only
    rcases answerOf (o.rest.attempt n request) with (className | text) | code
    · rfl
    · rfl
    · rfl
  | succ left ih =>
    unfold attempts retrying
    dsimp only
    rcases answerOf (o.rest.attempt n request) with (className | text) | code
    · exact ih (n + 1) _
    · rfl
    · rfl

theorem post_fst (url : String) (d : Destination) (eventType : String)
    (data : List (String × Json)) (made : Contacts) :
    (post o url d eventType data made).1 =
      postWithRetry (o.surroundings 0) url d.hostname d.resolvedIp d.secret eventType data := by
  unfold post postWithRetry
  have hurl : (o.surroundings 0).httpxUrl url = o.rest.httpxUrl url := rfl
  rw [hurl]
  cases o.rest.httpxUrl url with
  | error text => rfl
  | ok u => exact attempts_fst _ 2 0 made

theorem pin_fst (hostname : String) :
    (pin o {} hostname).1 = pinnedIp (o.surroundings 0) hostname := by
  have hread : (o.surroundings 0).ipAddress hostname = ipAddress hostname.toList := rfl
  unfold pin pinnedIp
  rw [hread]
  cases ipAddress hostname.toList with
  | none => rfl
  | some a =>
    have hglobal : (o.surroundings 0).isPublicIp a = isGlobal a := rfl
    have htext : (o.surroundings 0).addressText a = o.printing.str a := rfl
    dsimp only
    rw [hglobal, htext]
    split_ifs <;> rfl

theorem checked_fst (w : Webhook) : (checked o w {}).1 = checks (o.surroundings 0) w := by
  unfold checked checks
  have hparse : (o.surroundings 0).urlparse w.url = o.rest.urlparse w.url := rfl
  have hdecrypt : (o.surroundings 0).decryptSecret = o.rest.decryptSecret := rfl
  rw [hparse]
  cases o.rest.urlparse w.url with
  | error text => rfl
  | ok parsed =>
    dsimp only
    cases parsed.hostname.filter (· ≠ "") with
    | none => rfl
    | some hostname =>
      dsimp only
      split_ifs
      · rfl
      · rw [hdecrypt, ← pin_fst]
        rcases pin o {} hostname with ⟨_ | _ | ip, made⟩
        · rfl
        · rfl
        · dsimp only
          cases o.rest.decryptSecret w.secretEncrypted w.secretSalt <;> rfl

/-- The result of a delivery is the one of the model without contacts. -/
theorem dispatchOne_fst (w : Webhook) (eventType : String) (data : List (String × Json)) :
    (dispatchOne o w eventType data).1 =
      WebhookDispatch.dispatchOne (o.surroundings 0) w eventType data := by
  unfold dispatchOne WebhookDispatch.dispatchOne
  rw [← checked_fst]
  rcases checked o w {} with ⟨_ | _ | d, made⟩
  · rfl
  · rfl
  · dsimp only
    rw [← post_fst w.url d eventType data made]
    rcases post o w.url d eventType data made with ⟨_ | code, made⟩
    · rfl
    · rfl

/-! ## What a delivery connects to -/

/-- The address that a delivery may connect to: a literal that is global, or an address of an
answer in which every address is global. -/
inductive Verified (o : Outside) (hostname : String) : String → Address → Contacts → Prop
  | literal (a : Address) (hread : ipAddress hostname.toList = some a) (hglobal : isGlobal a) :
    Verified o hostname (o.printing.str a) a {}
  | answered (ips : List String) (ip : String) (a : Address)
    (hname : ipAddress hostname.toList = none) (hanswer : o.answers 0 hostname = .ok ips)
    (hip : ip ∈ ips) (hread : ipAddress ip.toList = some a)
    (hall : ∀ ip ∈ ips, ∀ b, ipAddress ip.toList = some b → isGlobal b) :
    Verified o hostname ip a { lookups := [hostname] }

theorem Verified.read {hostname ip : String} {a : Address} {made : Contacts}
    (h : Verified o hostname ip a made) : ipAddress ip.toList = some a ∧ isGlobal a = true := by
  cases h with
  | literal a hread hglobal => exact ⟨o.printing.read_str hread, hglobal⟩
  | answered ips ip a _ _ hip hread hall => exact ⟨hread, hall _ hip _ hread⟩

/-- The loop goes through only an answer in which every address is global. -/
theorem firstPublicIp_ok {lookups : ℕ} {resolved found : Option String} {ips : List String}
    (h : firstPublicIp (o.surroundings lookups) resolved ips = .ok found) :
    (∀ ip ∈ ips, ∀ b, ipAddress ip.toList = some b → isGlobal b = true) ∧
      ∀ ip, found = some ip → resolved = some ip ∨ ip ∈ ips ∧ (ipAddress ip.toList).isSome := by
  induction ips generalizing resolved with
  | nil =>
    cases h
    exact ⟨List.forall_mem_nil _, fun ip hip => .inl hip⟩
  | cons ip ips ih =>
    have hread : (o.surroundings lookups).ipAddress ip = ipAddress ip.toList := rfl
    unfold firstPublicIp at h
    rw [hread] at h
    cases ha : ipAddress ip.toList with
    | none =>
      rw [ha] at h
      obtain ⟨hall, hfound⟩ := ih h
      constructor
      · refine List.forall_mem_cons.mpr ⟨fun b hb => ?_, hall⟩
        rw [ha] at hb
        cases hb
      · exact fun q hq => (hfound q hq).imp id fun hq => ⟨List.mem_cons_of_mem ip hq.1, hq.2⟩
    | some a =>
      have hglobal : (o.surroundings lookups).isPublicIp a = isGlobal a := rfl
      rw [ha] at h
      dsimp only at h
      rw [hglobal] at h
      split_ifs at h with hg
      obtain ⟨hall, hfound⟩ := ih h
      constructor
      · refine List.forall_mem_cons.mpr ⟨fun b hb => ?_, hall⟩
        rw [ha] at hb
        exact Option.some.inj hb ▸ hg
      · intro q hq
        rcases hfound q hq with hq | hq
        · cases resolved with
          | none =>
            obtain rfl := Option.some.inj hq
            exact .inr ⟨List.mem_cons_self, by rw [ha]; rfl⟩
          | some r => exact .inl hq
        · exact .inr ⟨List.mem_cons_of_mem ip hq.1, hq.2⟩

/-- What is asked before the post, and nothing is opened. -/
theorem pin_contacts (hostname : String) :
    (pin o {} hostname).2.lookups.length ≤ 1 ∧ (pin o {} hostname).2.connections = [] := by
  unfold pin
  split
  · split_ifs
    · exact ⟨Nat.zero_le _, rfl⟩
    · exact ⟨Nat.zero_le _, rfl⟩
  · exact ⟨Nat.le_refl 1, rfl⟩

theorem pin_verified {hostname ip : String} {made : Contacts}
    (h : pin o {} hostname = (.ok (.ok ip), made)) : ∃ a, Verified o hostname ip a made := by
  unfold pin at h
  split at h
  · rename_i a ha
    split_ifs at h with hg
    · cases h
      exact ⟨a, .literal a ha hg⟩
    · cases h
  · rename_i hname
    simp only [resolve, Prod.mk.injEq] at h
    obtain ⟨hresult, rfl⟩ := h
    unfold resolvePublicIp at hresult
    have hanswers : (o.surroundings 0).getaddrinfo hostname = o.answers 0 hostname := rfl
    rw [show ([] : List String).length = 0 from rfl, hanswers] at hresult
    split at hresult
    · cases hresult
    · cases hresult
    · rename_i ips hips
      split at hresult
      · cases hresult
      · cases hresult
      · rename_i found hfound
        cases hresult
        obtain ⟨hall, hin⟩ := firstPublicIp_ok hfound
        obtain ⟨hmem, hsome⟩ := (hin ip rfl).resolve_left (by simp)
        obtain ⟨a, ha⟩ := Option.isSome_iff_exists.mp hsome
        exact ⟨a, .answered ips ip a hname hips hmem ha hall⟩

/-- All attempts connect to the host of the request. -/
theorem attempts_contacts {request : Request} {a : Address}
    (h : ipAddress request.url.host.toList = some a) (left n : ℕ) (made : Contacts) :
    (attempts o request left n made).2.lookups = made.lookups ∧
      ∀ c ∈ (attempts o request left n made).2.connections, c ∈ made.connections ∨ c = a := by
  have hone : ∀ n (made : Contacts),
      (made.append (o.transport.contacts n request)).lookups = made.lookups ∧
        ∀ c ∈ (made.append (o.transport.contacts n request)).connections,
          c ∈ made.connections ∨ c = a := by
    intro n made
    obtain ⟨hlookups, hconnections⟩ := o.transport.literal (n := n) h
    refine ⟨by simp [Contacts.append, hlookups], fun c hc => ?_⟩
    rcases List.mem_append.mp hc with hc | hc
    · exact .inl hc
    · exact .inr (hconnections c hc)
  induction left generalizing n made with
  | zero =>
    unfold attempts
    split
    · exact hone n made
    · exact hone n made
    · exact hone n made
  | succ left ih =>
    unfold attempts
    split
    · exact hone n made
    · exact hone n made
    · obtain ⟨hlookups, hconnections⟩ := hone n made
      obtain ⟨hlookups', hconnections'⟩ := ih (n + 1) (made.append (o.transport.contacts n request))
      refine ⟨hlookups'.trans hlookups, fun c hc => ?_⟩
      exact (hconnections' c hc).elim (hconnections c) .inr

theorem post_contacts (url : String) {d : Destination} {a : Address}
    (h : ipAddress d.resolvedIp.toList = some a) (eventType : String)
    (data : List (String × Json)) {made : Contacts} (hnone : made.connections = []) :
    (post o url d eventType data made).2.lookups = made.lookups ∧
      ∀ c ∈ (post o url d eventType data made).2.connections, c = a := by
  unfold post
  split
  · refine ⟨rfl, fun c hc => ?_⟩
    rw [hnone] at hc
    cases hc
  · rename_i u hu
    obtain ⟨hlookups, hconnections⟩ := @attempts_contacts o
      (sentRequest o.rest u d.hostname d.resolvedIp d.secret eventType data) a h 2 0 made
    refine ⟨hlookups, fun c hc => (hconnections c hc).resolve_left ?_⟩
    rw [hnone]
    exact List.not_mem_nil

/-- The host that `dispatch_one` reads from the stored URL. -/
def hostOf (o : Outside) (w : Webhook) : Option String :=
  match o.rest.urlparse w.url with
  | .error _ => none
  | .ok parsed => parsed.hostname.filter (· ≠ "")

/-- The checks open nothing, and those that succeed have verified the address they pin. -/
theorem checked_contacts (w : Webhook) :
    (checked o w {}).2.lookups.length ≤ 1 ∧ (checked o w {}).2.connections = [] ∧
      ∀ d made, checked o w {} = (.ok (.ok d), made) →
        ∃ hostname a, hostOf o w = some hostname ∧ Verified o hostname d.resolvedIp a made := by
  unfold checked hostOf
  split
  · exact ⟨Nat.zero_le _, rfl, fun d made h => by cases h⟩
  · rename_i parsed hparsed
    split
    · exact ⟨Nat.zero_le _, rfl, fun d made h => by cases h⟩
    · rename_i hostname hhost
      split_ifs
      · exact ⟨Nat.zero_le _, rfl, fun d made h => by cases h⟩
      · obtain ⟨hlookups, hconnections⟩ := pin_contacts (o := o) hostname
        split
        · rename_i h
          rw [h] at hlookups hconnections
          exact ⟨hlookups, hconnections, fun d made h => by cases h⟩
        · rename_i h
          rw [h] at hlookups hconnections
          exact ⟨hlookups, hconnections, fun d made h => by cases h⟩
        · rename_i ip made h
          rw [h] at hlookups hconnections
          obtain ⟨a, hverified⟩ := pin_verified h
          split
          · exact ⟨hlookups, hconnections, fun d made h => by cases h⟩
          · refine ⟨hlookups, hconnections, fun d made' hd => ?_⟩
            cases hd
            exact ⟨hostname, a, hhost, hverified⟩

/-- What a delivery opens: nothing, or connections to one verified address. -/
theorem dispatchOne_contacts (w : Webhook) (eventType : String) (data : List (String × Json)) :
    let made := (dispatchOne o w eventType data).2
    made.lookups.length ≤ 1 ∧ (made.connections = [] ∨
      ∃ hostname ip a asked, hostOf o w = some hostname ∧ Verified o hostname ip a asked ∧
        ∀ c ∈ made.connections, c = a) := by
  obtain ⟨hlookups, hconnections, hverified⟩ := checked_contacts (o := o) w
  unfold dispatchOne
  split
  · rename_i h
    rw [h] at hlookups hconnections
    exact ⟨hlookups, .inl hconnections⟩
  · rename_i h
    rw [h] at hlookups hconnections
    exact ⟨hlookups, .inl hconnections⟩
  · rename_i d made h
    rw [h] at hlookups hconnections
    obtain ⟨hostname, a, hhost, hv⟩ := hverified d made h
    obtain ⟨hlookups', hconnections'⟩ := post_contacts w.url hv.read.1 eventType data
      hconnections
    split
    · rename_i hp
      rw [hp] at hlookups' hconnections'
      exact ⟨hlookups' ▸ hlookups, .inr ⟨hostname, _, a, made, hhost, hv, hconnections'⟩⟩
    · rename_i hp
      rw [hp] at hlookups' hconnections'
      exact ⟨hlookups' ▸ hlookups, .inr ⟨hostname, _, a, made, hhost, hv, hconnections'⟩⟩

/-- What is promised of the connections of a delivery to a host. -/
structure Pinned (o : Outside) (hostname : String) (made : Contacts) : Prop where
  same : ∀ c ∈ made.connections, ∀ d ∈ made.connections, d = c
  global : ∀ c ∈ made.connections, isGlobal c = true
  literal : ∀ a, ipAddress hostname.toList = some a → ∀ c ∈ made.connections, c = a
  answered : ipAddress hostname.toList = none → made.connections ≠ [] →
    ∃ ips, o.answers 0 hostname = .ok ips ∧
      (∀ ip ∈ ips, ∀ b, ipAddress ip.toList = some b → isGlobal b = true) ∧
      ∀ c ∈ made.connections, ∃ ip ∈ ips, ipAddress ip.toList = some c
  refused : ∀ ips, ipAddress hostname.toList = none → o.answers 0 hostname = .ok ips →
    (∃ ip ∈ ips, ∃ b, ipAddress ip.toList = some b ∧ isGlobal b = false) → made.connections = []

/-- Every delivery asks the resolver at most once. Without a host it opens no connection; with one
it connects, on every attempt, to one global address, which is the literal or belongs to an
answer of global addresses. -/
theorem dispatchOne_pinned (o : Outside) (w : Webhook) (eventType : String)
    (data : List (String × Json)) :
    let made := (dispatchOne o w eventType data).2
    made.lookups.length ≤ 1 ∧
      match hostOf o w with
      | none => made.connections = []
      | some hostname => Pinned o hostname made := by
  intro made
  obtain ⟨hlookups, hmade⟩ := dispatchOne_contacts (o := o) w eventType data
  refine ⟨hlookups, ?_⟩
  rcases hmade with hnone | ⟨hostname, ip, a, asked, hhost, hv, hall⟩
  · have hempty : made.connections = [] := hnone
    split
    · exact hempty
    · refine ⟨?_, ?_, ?_, fun _ hne => absurd hempty hne, fun _ _ _ _ => hempty⟩
      · simp [hempty]
      · simp [hempty]
      · simp [hempty]
  · have hall' : ∀ c ∈ made.connections, c = a := hall
    rw [hhost]
    dsimp only
    refine ⟨fun c hc d hd => (hall' d hd).trans (hall' c hc).symm,
      fun c hc => hall' c hc ▸ hv.read.2, fun b hb c hc => ?_, fun hname hne => ?_,
      fun ips hname hanswer hbad => ?_⟩
    · cases hv with
      | literal _ hread _ =>
        rw [hread] at hb
        exact (hall' c hc).trans (Option.some.inj hb)
      | answered ips ip _ hname _ _ _ _ =>
        rw [hname] at hb
        cases hb
    · cases hv with
      | literal _ hread _ =>
        rw [hread] at hname
        cases hname
      | answered ips ip _ _ hanswer hip hread hglobal =>
        exact ⟨ips, hanswer, hglobal, fun c hc => ⟨ip, hip, hall' c hc ▸ hread⟩⟩
    · cases hv with
      | literal _ hread _ =>
        rw [hread] at hname
        cases hname
      | answered ips' ip _ _ hanswer' hip hread hglobal =>
        obtain ⟨q, hq, b, hb, hbad⟩ := hbad
        rw [hanswer] at hanswer'
        obtain rfl : ips = ips' := by injection hanswer'
        rw [hglobal q hq b hb] at hbad
        cases hbad

/-- A host with two public addresses, whose receiver answers the third attempt. -/
def slowReceiver : Outside where
  printing := fullPrinting
  transport := plainTransport
  answers _ _ := .ok ["93.184.216.34", "2606:4700::1111"]
  rest :=
    { answering 200 with
      ipAddress := fun text => ipAddress text.toList
      isPublicIp := isGlobal
      addressText := fullPrinting.str
      attempt := fun n _ => if n < 2 then .httpError "ConnectTimeout" else .answer 200 }

/-- All three attempts connect to the first address. -/
theorem retries_pinned :
    let made := (dispatchOne slowReceiver (newWebhook 1) "alert.created" []).2
    made.lookups = ["hooks.example.test"] ∧ made.connections.length = 3 ∧
      Pinned slowReceiver "hooks.example.test" made := by
  obtain ⟨-, hpinned⟩ := dispatchOne_pinned slowReceiver (newWebhook 1) "alert.created" []
  have hhost : hostOf slowReceiver (newWebhook 1) = some "hooks.example.test" := by decide +kernel
  rw [hhost] at hpinned
  have hmade : (dispatchOne slowReceiver (newWebhook 1) "alert.created" []).2.lookups =
        ["hooks.example.test"] ∧
      (dispatchOne slowReceiver (newWebhook 1) "alert.created" []).2.connections.length = 3 := by
    decide +kernel
  exact ⟨hmade.1, hmade.2, hpinned⟩

end Kepryx.WebhookPinning
