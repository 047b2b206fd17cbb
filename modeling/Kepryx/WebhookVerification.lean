import Kepryx.CanonicalJson
import Kepryx.WebhookSignature

/-!
# What a webhook signature authenticates

A receiver that reads the body and writes it in the canonical form obtains the text that was
signed. The signature then fixes the time and the document, but not the order of its members.
-/
namespace Kepryx.WebhookDispatch
open Kepryx.JsonText

variable {Address : Type}

/-- The check of a receiver that writes the document of the body in the canonical form. -/
def Request.verifies (hmacSha256 : String → List Char → String) (secret : String) (r : Request) :
    Prop :=
  ∃ timestamp doc, r.header "X-Kepryx-Timestamp" = some timestamp ∧ read r.body = some doc ∧
    r.header "X-Kepryx-Signature" = some ("sha256=" ++ hmacSha256 secret
      (signedString timestamp doc))

theorem timestamp_inj {t t' : ℤ} (h : (toString t).toList = (toString t').toList) : t = t' := by
  have hread := (numeral_int t).2
  rw [h, (numeral_int t').2] at hread
  exact (Json.int.inj (Option.some.inj hread)).symm

theorem dot_notMem_toString (t : ℤ) : '.' ∉ (toString t).toList := by
  have hdigits : ∀ n : ℕ, '.' ∉ Nat.toDigits 10 n := by
    intro n hmem
    have hdigit := Nat.isDigit_of_mem_toDigits (by decide) (by decide) hmem
    cases hdigit
  cases t with
  | ofNat n =>
    change '.' ∉ (Nat.repr n).toList
    rw [Nat.toList_repr]
    exact hdigits n
  | negSucc n =>
    change '.' ∉ ("-" ++ Nat.repr (n + 1)).toList
    rw [String.toList_append, Nat.toList_repr]
    intro hmem
    rcases List.mem_append.mp hmem with hsign | hmem
    · revert hsign
      decide
    · exact hdigits (n + 1) hmem

/-- The first dot ends the timestamp. -/
theorem append_dot_inj {xs xs' ys ys' : List Char} (hxs : '.' ∉ xs) (hxs' : '.' ∉ xs')
    (h : xs ++ '.' :: ys = xs' ++ '.' :: ys') : xs = xs' ∧ ys = ys' := by
  have hstop : ∀ {xs : List Char}, '.' ∉ xs → ∀ ys,
      (xs ++ '.' :: ys).takeWhile (· ≠ '.') = xs := by
    intro xs hxs ys
    have hall : ∀ c ∈ xs, decide (c ≠ '.') = true := fun c hc =>
      decide_eq_true fun hdot => hxs (hdot ▸ hc)
    rw [List.takeWhile_append_of_pos hall]
    simp
  have heq : xs = xs' := by rw [← hstop hxs ys, h, hstop hxs' ys']
  subst heq
  exact ⟨rfl, (List.cons.inj (List.append_cancel_left h)).2⟩

/-- One text is signed for one time and one document, up to the order of its members. -/
theorem signedString_eq_iff {t t' : ℤ} {doc doc' : Json} (hdoc : WellFormed doc)
    (hdoc' : WellFormed doc') :
    signedString (toString t) doc = signedString (toString t') doc' ↔
      t = t' ∧ doc.sorted = doc'.sorted := by
  have hcanonical : doc.dumps signingOptions = doc'.dumps signingOptions ↔
      doc.sorted = doc'.sorted :=
    dumps_eq_iff ⟨⟨[], [], rfl, white_nil, white_nil⟩, ⟨[], [], rfl, white_nil, white_nil⟩⟩ rfl
      hdoc hdoc'
  constructor
  · intro h
    obtain ⟨htime, htext⟩ := append_dot_inj (dot_notMem_toString t) (dot_notMem_toString t') h
    exact ⟨timestamp_inj htime, hcanonical.mp htext⟩
  · rintro ⟨rfl, hsorted⟩
    rw [signedString, signedString, hcanonical.mpr hsorted]

section Received
variable (env : Surroundings Address) (url : Url) (hostname resolvedIp secret eventType : String)
  (data : List (String × Json))

theorem wellFormed_payload (hdata : WellFormed (.obj data)) :
    WellFormed (payload env eventType data) := by
  refine .obj _ (by simp) fun m hm => ?_
  simp only [List.mem_cons, List.not_mem_nil, or_false] at hm
  rcases hm with rfl | rfl | rfl
  · exact .str _
  · exact .str _
  · exact hdata

/-- The body is read back as the payload. -/
theorem read_sentRequest (hjson : env.httpxJson.options.Readable)
    (hdata : WellFormed (.obj data)) :
    read (sentRequest env url hostname resolvedIp secret eventType data).body =
      some (payload env eventType data) := by
  rw [sentRequest_body]
  exact read_dumps hjson rfl (wellFormed_payload env eventType data hdata)

/-- With a signature of this server a request passes if and only if it has the time and the
document that were signed, or its text and the signed one have one HMAC. -/
theorem verifies_iff_signed (hdata : WellFormed (.obj data)) {r : Request} {t : ℤ} {doc : Json}
    (hsignature : r.header "X-Kepryx-Signature" = (sentRequest env url hostname resolvedIp secret
      eventType data).header "X-Kepryx-Signature")
    (htime : r.header "X-Kepryx-Timestamp" = some (toString t)) (hread : read r.body = some doc)
    (hdoc : WellFormed doc) :
    r.verifies env.hmacSha256 secret ↔
      (t = env.unixTime ∧ doc.sorted = (payload env eventType data).sorted) ∨
        Collides (env.hmacSha256 secret) (signedString (toString t) doc)
          (signedString (toString env.unixTime) (payload env eventType data)) := by
  rw [sentRequest_signature] at hsignature
  rw [← signedString_eq_iff hdoc (wellFormed_payload env eventType data hdata), ← digest_eq_iff]
  constructor
  · rintro ⟨timestamp, doc', htimestamp, hread', hsigned⟩
    obtain rfl : toString t = timestamp := Option.some.inj (htime.symm.trans htimestamp)
    obtain rfl : doc = doc' := Option.some.inj (hread.symm.trans hread')
    rw [hsignature] at hsigned
    exact (String.append_right_inj "sha256=" |>.mp (Option.some.inj hsigned)).symm
  · intro h
    exact ⟨toString t, doc, htime, hread, by rw [hsignature, h]⟩

/-- What the receiver gets passes its check. Under a signature of this server nothing else passes
but the same document at the same time, whichever order and separators it is written with, unless
two texts have one HMAC. -/
theorem signature_authenticates (hjson : env.httpxJson.options.Readable)
    (hdata : WellFormed (.obj data)) :
    let sent := sentRequest env url hostname resolvedIp secret eventType data
    sent.verifies env.hmacSha256 secret ∧
      (∀ (r : Request) (t : ℤ) (doc : Json),
        r.header "X-Kepryx-Signature" = sent.header "X-Kepryx-Signature" →
        r.header "X-Kepryx-Timestamp" = some (toString t) → read r.body = some doc →
        WellFormed doc → (r.verifies env.hmacSha256 secret ↔
          (t = env.unixTime ∧ doc.sorted = (payload env eventType data).sorted) ∨
            Collides (env.hmacSha256 secret) (signedString (toString t) doc)
              (signedString (toString env.unixTime) (payload env eventType data)))) ∧
      ∀ (doc : Json) (o : DumpOptions), Reordered (payload env eventType data) doc → o.Readable →
        o.sortKeys = false →
        ({ sent with body := doc.dumps o } : Request).verifies env.hmacSha256 secret := by
  intro sent
  have hpayload := wellFormed_payload env eventType data hdata
  have htime : sent.header "X-Kepryx-Timestamp" = some (toString env.unixTime) :=
    sentRequest_timestamp env url hostname resolvedIp secret eventType data
  refine ⟨?_, fun r t doc hsignature htime' hread hdoc => ?_, fun doc o hdoc ho hsort => ?_⟩
  · have hread := read_sentRequest env url hostname resolvedIp secret eventType data hjson hdata
    exact (verifies_iff_signed env url hostname resolvedIp secret eventType data hdata rfl htime
      hread hpayload).mpr (.inl ⟨rfl, rfl⟩)
  · exact verifies_iff_signed env url hostname resolvedIp secret eventType data hdata hsignature
      htime' hread hdoc
  · have hwell := wellFormed_of_reordered hdoc hpayload
    exact (verifies_iff_signed env url hostname resolvedIp secret eventType data hdata
      (r := { sent with body := doc.dumps o }) rfl htime (read_dumps ho hsort hwell) hwell).mpr
      (.inl ⟨rfl, (sorted_eq_of_reordered hdoc hpayload).symm⟩)

end Received

/-- The data of an event, with a list inside of an object. -/
def alertData : List (String × Json) :=
  [("severity", .str "high"),
    ("alert", .obj [("title", .str "Servicio \"db\" caído"), ("id", .int 7),
      ("cvss", .float "9.8"), ("tags", .arr [.str "edr_gap", .null, .bool true])])]

theorem wellFormed_alertData : WellFormed (.obj alertData) := by
  have htags : WellFormed (.arr [.str "edr_gap", .null, .bool true]) := by
    refine .arr _ ?_
    simp only [List.forall_mem_cons]
    exact ⟨.str _, .null, .bool _, List.forall_mem_nil _⟩
  refine .obj _ (by decide) ?_
  simp only [alertData, List.forall_mem_cons]
  refine ⟨.str _, .obj _ (by decide) ?_, List.forall_mem_nil _⟩
  simp only [List.forall_mem_cons]
  exact ⟨.str _, .int _, .float _ (by decide +kernel), htags, List.forall_mem_nil _⟩

/-- An event as `answering` sends it. -/
def alertEvent : Request :=
  sentRequest (answering 200) ⟨"https", "hooks.example.test", none, "/events"⟩
    "hooks.example.test" "93.184.216.34" "secret" "alert.created" alertData

/-- It passes its check. -/
theorem event_authenticated : alertEvent.verifies (answering 200).hmacSha256 "secret" :=
  (signature_authenticates (answering 200) ⟨"https", "hooks.example.test", none, "/events"⟩
    "hooks.example.test" "93.184.216.34" "secret" "alert.created" alertData
    ⟨⟨[], [], rfl, white_nil, white_nil⟩, ⟨[], [], rfl, white_nil, white_nil⟩⟩
    wellFormed_alertData).1

end Kepryx.WebhookDispatch
