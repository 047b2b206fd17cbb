import Kepryx.WebhookDispatch

/-!
# What a webhook signature covers

The pinned transport forwards the body unchanged, but the signed text and the body come from
two serialisations. The signed one sorts the members of the payload, whose first key is then
`data`; the body keeps their order and starts with `event`. So the signature never covers the
bytes that are sent.
-/
namespace Kepryx.WebhookDispatch
open Kepryx.JsonText

variable {Address : Type}

/-- The value of a header as the receiver reads it. -/
def Request.header (r : Request) (name : String) : Option String := r.headers.lookup name

/-- The text over which a receiver computes the signature: the timestamp header, a dot and the
raw body. -/
def Request.coveredText (r : Request) : List Char :=
  ((r.header "X-Kepryx-Timestamp").getD "").toList ++ '.' :: r.body

section Sent
variable (env : Surroundings Address) (url : Url) (hostname resolvedIp secret eventType : String)
  (data : List (String × Json))

/-- The transport pins the address and keeps the body. -/
theorem sentRequest_body :
    (sentRequest env url hostname resolvedIp secret eventType data).body =
      (payload env eventType data).dumps env.httpxJson.options := rfl

theorem sentRequest_timestamp :
    (sentRequest env url hostname resolvedIp secret eventType data).header
      "X-Kepryx-Timestamp" = some (toString env.unixTime) := by
  simp [Request.header, sentRequest, handleAsyncRequest, buildRequest, setHeader, headers,
    signPayload, List.lookup_cons]

theorem sentRequest_signature :
    (sentRequest env url hostname resolvedIp secret eventType data).header
      "X-Kepryx-Signature" = some ("sha256=" ++ env.hmacSha256 secret
        (signedString (toString env.unixTime) (payload env eventType data))) := by
  simp [Request.header, sentRequest, handleAsyncRequest, buildRequest, setHeader, headers,
    signPayload, List.lookup_cons]

/-- Sorted by key, the payload starts with `data`. -/
theorem signed_payload_head :
    ∃ tail, (payload env eventType data).dumps signingOptions =
      '{' :: (quote signingOptions "data" ++ tail) := by
  have hsorted : orderMembers signingOptions (dumpsMembers signingOptions
      [("event", .str eventType), ("timestamp", .str env.isoTime), ("data", .obj data)]) =
      [("data", (Json.obj data).dumps signingOptions),
        ("event", (Json.str eventType).dumps signingOptions),
        ("timestamp", (Json.str env.isoTime).dumps signingOptions)] := by
    simp [orderMembers, signingOptions, dumpsMembers, List.insertionSort]
  exact dumps_obj_head signingOptions hsorted

/-- In the order of the dictionary it starts with `event`. -/
theorem sent_payload_head (h : HttpxJson) :
    ∃ tail, (payload env eventType data).dumps h.options =
      '{' :: (quote h.options "event" ++ tail) :=
  dumps_obj_head h.options rfl

theorem signed_payload_ne_sent (h : HttpxJson) :
    (payload env eventType data).dumps signingOptions ≠
      (payload env eventType data).dumps h.options := by
  obtain ⟨tail, hsigned⟩ := signed_payload_head env eventType data
  obtain ⟨tail', hsent⟩ := sent_payload_head env eventType data h
  have hdata : "data".toList.flatMap (escape signingOptions.ensureAscii) = 'd' :: "ata".toList := by
    decide +kernel
  have hevent : "event".toList.flatMap (escape h.options.ensureAscii) = 'e' :: "vent".toList := by
    cases h.options.ensureAscii <;> decide +kernel
  rw [hsigned, hsent]
  intro heq
  exact quote_ne_of_head hdata hevent (by decide) tail tail' (List.cons_inj_right _ |>.mp heq)

/-- For no event does the signature cover what is sent: the signed text differs from the
timestamp, a dot and the raw body, and a receiver obtains the signature only when two texts
have one HMAC. -/
theorem signature_never_covers_body :
    signedString (toString env.unixTime) (payload env eventType data) ≠
      (sentRequest env url hostname resolvedIp secret eventType data).coveredText ∧
    ¬ (Function.Injective (env.hmacSha256 secret) ∧
      env.hmacSha256 secret (sentRequest env url hostname resolvedIp secret eventType
        data).coveredText = (signPayload env secret (payload env eventType data)).2) := by
  have hne : signedString (toString env.unixTime) (payload env eventType data) ≠
      (sentRequest env url hostname resolvedIp secret eventType data).coveredText := by
    intro h
    rw [Request.coveredText, sentRequest_timestamp, sentRequest_body, Option.getD_some,
      signedString] at h
    have htext := List.append_cancel_left h
    exact signed_payload_ne_sent env eventType data env.httpxJson (List.cons.inj htext).2
  exact ⟨hne, fun ⟨hinj, heq⟩ => hne (hinj heq.symm)⟩

end Sent

/-- Already for an event without data the receiver computes another value. -/
theorem signature_differs_for_ping :
    ¬ ∀ (env : Surroundings String) (url : Url) (hostname resolvedIp secret eventType : String)
      (data : List (String × Json)),
      env.hmacSha256 secret (sentRequest env url hostname resolvedIp secret eventType
          data).coveredText =
        (signPayload env secret (payload env eventType data)).2 := by
  intro h
  have hping := h (answering 200) ⟨"https", "hooks.example.test", none, "/events"⟩
    "hooks.example.test" "93.184.216.34" "secret" "test.ping" []
  revert hping
  decide +kernel

end Kepryx.WebhookDispatch
