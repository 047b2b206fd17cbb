import Kepryx.SecretPatterns

/-!
# Declared personal fields

`PII_FIELDS` declares which names hold personal data, and `_redact_field` decides by a chain of
names of its own. What becomes of a text at some place of a document depends only on the names
on the way to it.
-/
namespace Kepryx.PiiFields

open Kepryx.Redaction Kepryx.SecretPatterns

/-- `PII_FIELDS` -/
def piiFields : List String :=
  ["email", "Email", "EMAIL", "phone", "Phone", "phone_number", "ssn", "SSN",
    "social_security_number", "ip", "ip_address", "remote_addr", "mac", "mac_address",
    "user_agent", "useragent", "User-Agent", "first_name", "last_name", "full_name", "address",
    "street", "postal_code", "credit_card", "card_number", "cvv", "password", "passwd", "secret",
    "token", "api_key"]

/-! ## Texts that a mask leaves as they are -/

section Masks
variable (P : Primitives)

/-- One character, three asterisks and the domain, or a text that is its own digest. -/
def MaskedEmail (email : String) : Prop :=
  (∃ c domain, '@' ∉ domain ∧ email.toList = c :: "***@".toList ++ domain) ∨
    '@' ∉ email.toList ∧ email = hashValue P email "kepryx"

/-- `a.b.c.x`, `a:b:c::x`, or a text that is its own digest. -/
def MaskedIp (ip : String) : Prop :=
  let octets := ip.toList.splitOn '.'
  let groups := ip.toList.splitOn ':'
  (∃ a b c, octets = [a, b, c, ['x']]) ∨
    octets.length ≠ 4 ∧ (∃ a b c, groups = [a, b, c, [], ['x']]) ∨
    octets.length ≠ 4 ∧ groups.length ≤ 3 ∧ ip = hashValue P ip "kepryx"

/-- Each browser family with each family of systems. -/
def userAgents (osFamilies : List String) : List String :=
  ["Firefox", "Edge", "Chrome", "Safari", "curl", "python", "Unknown"].flatMap fun family =>
    osFamilies.map fun osFamily => family ++ "/" ++ osFamily

/-- The systems that are still recognised in the masked text. -/
def maskedUserAgents : List String := userAgents ["Windows", "Linux", "Android", "Unknown"]

/-- A text that the mask of a name does not change. -/
def AlreadyMasked (name text : String) : Prop :=
  if name ∈ ["email"] then MaskedEmail P text
  else if name ∈ ["ip", "ip_address", "remote_addr", "x-forwarded-for"] then MaskedIp P text
  else if name ∈ ["user_agent", "user-agent", "useragent"] then text ∈ maskedUserAgents
  else text = hashValue P text "mac"

variable {P}

theorem not_mem_of_mem_splitOn {sep : Char} {text part : List Char}
    (h : part ∈ text.splitOn sep) : sep ∉ part := by
  induction text generalizing part with
  | nil =>
    rw [List.splitOn_nil, List.mem_singleton] at h
    rw [h]
    exact List.not_mem_nil
  | cons c text ih =>
    rw [List.splitOn_cons_eq_if_modifyHead] at h
    split_ifs at h with hc
    · obtain rfl | h := List.mem_cons.mp h
      · exact List.not_mem_nil
      · exact ih h
    · obtain ⟨first, parts, hparts⟩ := List.exists_cons_of_ne_nil (List.splitOn_ne_nil sep text)
      rw [hparts] at h ih
      obtain rfl | h := List.mem_cons.mp h
      · have hne : sep ≠ c := fun he => hc (by simp [he])
        simpa [hne] using ih List.mem_cons_self
      · exact ih (List.mem_cons_of_mem first h)

theorem maskEmail_of_not_mem {email : String} (h : '@' ∉ email.toList) :
    maskEmail P email = hashValue P email "kepryx" := by
  simp [maskEmail, splitAt, List.splitOn_eq_singleton h]

theorem maskEmail_of_at {email : String} {loc domain : List Char} (hdomain : '@' ∉ domain)
    (h : email.toList = loc ++ '@' :: domain) :
    (maskEmail P email).toList = loc.take 1 ++ "***@".toList ++ domain := by
  have hsplit : (splitAt '@' email).reverse =
      String.ofList domain :: ((loc.splitOn '@').map String.ofList).reverse := by
    rw [splitAt, h, List.splitOn_append_cons_self, List.splitOn_eq_singleton hdomain]
    simp
  obtain ⟨before, rest, hrest⟩ : ∃ before rest,
      ((loc.splitOn '@').map String.ofList).reverse = before :: rest :=
    List.exists_cons_of_ne_nil (by simp [List.splitOn_ne_nil])
  have hloc : ("@".intercalate (before :: rest).reverse).toList = loc := by
    rw [← hrest, List.reverse_reverse, String.toList_intercalate, List.map_map]
    simp [Function.comp_def]
  simp only [maskEmail, hsplit, hrest, hloc, String.toList_append, String.toList_ofList]

/-- The last at sign of a text. -/
theorem exists_last_at {email : List Char} (h : '@' ∈ email) :
    ∃ loc domain, '@' ∉ domain ∧ email = loc ++ '@' :: domain := by
  obtain ⟨domain, loc, hemail, hdomain⟩ := List.eq_append_cons_of_mem (List.mem_reverse.mpr h)
  refine ⟨loc.reverse, domain.reverse, by simpa using hdomain, ?_⟩
  rw [← List.reverse_reverse email, hemail]
  simp

theorem maskEmail_eq_self {email : String} : maskEmail P email = email ↔ MaskedEmail P email := by
  have hstars : "***@".toList = "***".toList ++ ['@'] := by decide
  constructor
  · intro he
    by_cases hat : '@' ∈ email.toList
    · obtain ⟨loc, domain, hdomain, h⟩ := exists_last_at hat
      have hmask := maskEmail_of_at (P := P) hdomain h
      rw [he, h, hstars, List.append_assoc, List.append_assoc, ← List.append_assoc] at hmask
      have hloc : loc = loc.take 1 ++ "***".toList := List.append_cancel_right hmask
      cases loc with
      | nil => cases hloc
      | cons c rest =>
        refine .inl ⟨c, domain, hdomain, ?_⟩
        rw [h, hloc, hstars]
        simp
    · rw [maskEmail_of_not_mem hat] at he
      exact .inr ⟨hat, he.symm⟩
  · rintro (⟨c, domain, hdomain, h⟩ | ⟨hat, he⟩)
    · have hsplit : email.toList = (c :: "***".toList) ++ '@' :: domain := by
        rw [h, hstars]
        simp
      rw [← String.toList_inj, maskEmail_of_at hdomain hsplit, h]
      rfl
    · rw [maskEmail_of_not_mem hat, ← he]

theorem splitAt_length (c : Char) (text : String) :
    (splitAt c text).length = (text.toList.splitOn c).length := List.length_map ..

theorem occursIn_of_split {c : Char} {sep text : String} (hsep : sep.toList = [c])
    (h : 1 < (text.toList.splitOn c).length) : occursIn sep text = true := by
  have hmem : c ∈ text.toList := by
    by_contra hnot
    rw [List.splitOn_eq_singleton hnot] at h
    exact absurd h (Nat.lt_irrefl 1)
  rw [occursIn, hsep, decide_eq_true_eq]
  exact (List.singleton_infix_iff c text.toList).mpr hmem

theorem intercalate_splitAt {c : Char} {sep : String} (hsep : sep.toList = [c])
    (text tail : String) :
    sep.intercalate ((splitAt c text).take 3) ++ tail =
      String.ofList ([c].intercalate ((text.toList.splitOn c).take 3) ++ tail.toList) := by
  rw [← String.toList_inj, String.toList_append, String.toList_ofList, String.toList_intercalate,
    hsep, splitAt, ← List.map_take, List.map_map]
  simp [Function.comp_def]

/-- What the mask makes of an address. -/
theorem maskIp_eq (ip : String) :
    maskIp P ip =
      if (ip.toList.splitOn '.').length = 4 then
        String.ofList (['.'].intercalate ((ip.toList.splitOn '.').take 3) ++ ".x".toList)
      else if 3 < (ip.toList.splitOn ':').length then
        String.ofList ([':'].intercalate ((ip.toList.splitOn ':').take 3) ++ "::x".toList)
      else hashValue P ip "kepryx" := by
  have hdot : ".".toList = ['.'] := by decide
  have hcolon : ":".toList = [':'] := by decide
  unfold maskIp
  rw [splitAt_length, splitAt_length, intercalate_splitAt hdot, intercalate_splitAt hcolon]
  by_cases hfour : (ip.toList.splitOn '.').length = 4
  · rw [if_pos hfour, occursIn_of_split hdot (by omega)]
    simp [hfour]
  · rw [if_neg hfour]
    by_cases hthree : 3 < (ip.toList.splitOn ':').length
    · rw [if_pos hthree, occursIn_of_split hcolon (by omega)]
      simp [hfour, hthree]
    · simp [hfour, hthree]

/-- The part of an address that a mask keeps, and what it puts after that. -/
theorem intercalate_three (c : Char) (p q r tail : List Char) (rest : List (List Char))
    (h : rest ≠ []) :
    [c].intercalate [p, q, r] ++ c :: tail = [c].intercalate (p :: q :: r :: rest) ↔
      tail = [c].intercalate rest := by
  simp [List.intercalate_cons_of_ne_nil, h]

theorem maskIp_eq_self {ip : String} : maskIp P ip = ip ↔ MaskedIp P ip := by
  have hdot : ".x".toList = '.' :: ['x'] := by decide
  have hcolon : "::x".toList = ':' :: [':', 'x'] := by decide
  rw [maskIp_eq, MaskedIp, hdot, hcolon]
  by_cases hfour : (ip.toList.splitOn '.').length = 4
  · simp only [hfour, if_true, ne_eq, not_true, false_and, or_false]
    obtain ⟨a, b, c, d, hoctets⟩ := List.length_eq_four.mp hfour
    have hip : ip.toList = ['.'].intercalate [a, b, c, d] := by
      rw [← hoctets, List.intercalate_splitOn]
    rw [← String.toList_inj, String.toList_ofList, hoctets, hip]
    refine (intercalate_three '.' a b c ['x'] [d] (by simp)).trans ?_
    simp [eq_comm]
  · simp only [hfour, if_false, ne_eq, not_false_eq_true, true_and]
    rw [or_iff_right (fun ⟨a, b, c, h⟩ => hfour (by rw [h]; rfl))]
    by_cases hgroups : 3 < (ip.toList.splitOn ':').length
    · rw [if_pos hgroups, or_iff_left (fun h => by omega)]
      obtain ⟨a, b, c, rest, hsplit, hrest⟩ : ∃ a b c rest, ip.toList.splitOn ':' =
          a :: b :: c :: rest ∧ rest ≠ [] := by
        match h : ip.toList.splitOn ':' with
        | a :: b :: c :: d :: rest => exact ⟨a, b, c, d :: rest, rfl, List.cons_ne_nil d rest⟩
        | [] | [_] | [_, _] | [_, _, _] => simp [h] at hgroups
      have hip : ip.toList = [':'].intercalate (a :: b :: c :: rest) := by
        rw [← hsplit, List.intercalate_splitOn]
      have hparts : ∀ part ∈ rest, ':' ∉ part := fun part hpart =>
        not_mem_of_mem_splitOn (by rw [hsplit]; simp [hpart])
      rw [← String.toList_inj, String.toList_ofList, hsplit, hip]
      refine (intercalate_three ':' a b c [':', 'x'] rest hrest).trans ?_
      constructor
      · intro h
        have hx : [':', 'x'].splitOn ':' = [[], ['x']] := by decide
        rw [h, List.splitOn_intercalate ':' hparts hrest] at hx
        exact ⟨a, b, c, by rw [hx]⟩
      · rintro ⟨a', b', c', h⟩
        simp only [List.cons.injEq] at h
        rw [h.2.2.2]
        decide
    · rw [if_neg hgroups, or_iff_right]
      · rw [eq_comm, and_iff_right (by omega)]
      · rintro ⟨a, b, c, h⟩
        rw [h] at hgroups
        exact hgroups (by simp)

theorem maskUserAgent_mem {ua : String} (h : ua ≠ "") :
    maskUserAgent ua ∈ userAgents ["Windows", "macOS", "Linux", "Android", "iOS", "Unknown"] := by
  unfold maskUserAgent
  rw [if_neg h]
  refine List.mem_flatMap.mpr ⟨_, ?_, List.mem_map.mpr ⟨_, ?_, rfl⟩⟩
  · split_ifs <;> decide
  · split_ifs <;> decide

theorem maskUserAgent_eq_self {ua : String} (h : ua ≠ "") :
    maskUserAgent ua = ua ↔ ua ∈ maskedUserAgents := by
  have hall : ∀ text ∈ userAgents ["Windows", "macOS", "Linux", "Android", "iOS", "Unknown"],
      maskUserAgent text = text → text ∈ maskedUserAgents := by decide +kernel
  have hmasked : ∀ text ∈ maskedUserAgents, maskUserAgent text = text := by decide +kernel
  refine ⟨fun he => hall ua ?_ he, hmasked ua⟩
  have hmem := maskUserAgent_mem h
  rwa [he] at hmem

/-- The names that have a mask. -/
def maskedNames : List String :=
  ["email", "ip", "ip_address", "remote_addr", "x-forwarded-for", "user_agent", "user-agent",
    "useragent", "mac", "mac_address"]

theorem isSome_maskOf {name : String} : (maskOf P name).isSome ↔ name ∈ maskedNames := by
  constructor
  · intro h
    by_contra hnot
    rw [maskOf_eq_none hnot] at h
    cases h
  · intro h
    unfold maskOf
    split_ifs with hemail hip hua hmac
    · rfl
    · rfl
    · rfl
    · rfl
    · simp only [maskedNames, List.mem_cons, List.not_mem_nil, or_false] at h
      simp only [List.mem_cons, List.not_mem_nil, or_false] at hemail hip hua hmac
      tauto

/-- A text is its own mask exactly if it is in the form that the mask produces. -/
theorem mask_eq_self {name : String} {mask : String → String} (hmask : maskOf P name = some mask)
    {text : String} (h : text ≠ "") : mask text = text ↔ AlreadyMasked P name text := by
  unfold maskOf at hmask
  unfold AlreadyMasked
  split_ifs at hmask with hemail hip hua hmac
  · obtain rfl := Option.some.inj hmask
    rw [if_pos hemail]
    exact maskEmail_eq_self
  · obtain rfl := Option.some.inj hmask
    rw [if_neg hemail, if_pos hip]
    exact maskIp_eq_self
  · obtain rfl := Option.some.inj hmask
    rw [if_neg hemail, if_neg hip, if_pos hua]
    exact maskUserAgent_eq_self h
  · obtain rfl := Option.some.inj hmask
    rw [if_neg hemail, if_neg hip, if_neg hua]
    exact eq_comm

end Masks

/-! ## Places in a document -/

inductive Step where
  | key (name : String)
  | item (index : ℕ)
  deriving DecidableEq, Repr

/-- The value under a name or at an index. -/
def child : Json → Step → Option Json
  | .obj fields, .key name => fields.lookup name
  | .arr items, .item index => items[index]?
  | _, _ => none

/-- The value at a place. -/
def at? : Json → List Step → Option Json
  | value, [] => some value
  | value, step :: place => (child value step).bind (at? · place)

variable (sha256 : String → String)

/-- `redact_pii` with the patterns of the source. -/
abbrev redact (document : Json) : Json := redactPii (primitives sha256) document

/-- What the name next to a text makes of it. -/
def redactText (name text : String) : String :=
  if lower name ∈ replacedNames then "***REDACTED***"
  else match maskOf (primitives sha256) (lower name) with
    | some mask => mask text
    | none => redactString (primitives sha256) text

/-- What stands in the result at the place of a text. -/
def resultAt : List Step → String → Option Json
  | [], text => some (.str (redactString (primitives sha256) text))
  | .item _ :: place, text => resultAt place text
  | .key name :: [], text => some (.str (redactText sha256 name text))
  | .key name :: step :: place, text =>
    if lower name ∈ replacedNames then none else resultAt (step :: place) text

/-! ## A text in the result -/

variable {sha256}

theorem lookup_redactFields {P : Primitives} (fields : List (String × Json)) (name : String) :
    (redactFields P fields).lookup name = (fields.lookup name).map fun value =>
      (namedField P name value).getD (redactPii P value) := by
  induction fields with
  | nil => rfl
  | cons field fields ih =>
    obtain ⟨key, value⟩ := field
    rw [redactFields]
    by_cases hkey : name = key
    · subst hkey
      simp
    · have hne : (name == key) = false := by simpa using hkey
      rw [List.lookup_cons, List.lookup_cons, hne]
      exact ih

theorem getElem?_redactItems {P : Primitives} (items : List Json) (index : ℕ) :
    (redactItems P items)[index]? = items[index]?.map (redactPii P) := by
  induction items generalizing index with
  | nil => rfl
  | cons item items ih =>
    cases index with
    | zero => rfl
    | succ index => simpa [redactItems] using ih index

/-- A name that is not replaced leaves lists and dictionaries to `redact_pii`. -/
theorem namedField_of_not_str {P : Primitives} {name : String} {value : Json}
    (hname : lower name ∉ replacedNames) (hvalue : ∀ text, value ≠ .str text) :
    namedField P name value = none := by
  unfold namedField
  rw [if_neg hname]
  split
  · exact absurd rfl (hvalue _)
  · rfl

theorem namedField_str (name text : String) :
    (namedField (primitives sha256) name (.str text)).getD (redactPii (primitives sha256)
      (.str text)) = .str (redactText sha256 name text) := by
  unfold namedField redactText
  split_ifs
  · rfl
  · cases maskOf (primitives sha256) (lower name) <;> rfl

theorem at?_redact {document : Json} {place : List Step} {text : String}
    (h : at? document place = some (.str text)) :
    at? (redact sha256 document) place = resultAt sha256 place text := by
  induction place generalizing document with
  | nil =>
    obtain rfl : document = .str text := Option.some.inj h
    rfl
  | cons step place ih =>
    obtain ⟨value, hchild, hvalue⟩ := Option.bind_eq_some_iff.mp h
    rw [at?]
    cases step with
    | item index =>
      cases document with
      | arr items =>
        rw [child] at hchild
        rw [redact, redactPii, child, getElem?_redactItems, hchild, Option.map_some,
          Option.bind_some, resultAt]
        exact ih hvalue
      | _ => cases hchild
    | key name =>
      cases document with
      | obj fields =>
        rw [child] at hchild
        rw [redact, redactPii, child, lookup_redactFields, hchild, Option.map_some,
          Option.bind_some]
        cases place with
        | nil =>
          obtain rfl : value = .str text := Option.some.inj hvalue
          rw [namedField_str]
          rfl
        | cons next place =>
          have hnot : ∀ t, value ≠ .str t := by
            rintro t rfl
            obtain ⟨w, hw, -⟩ := Option.bind_eq_some_iff.mp hvalue
            cases hw
          rw [resultAt]
          split_ifs with hname
          · have hnamed : namedField (primitives sha256) name value =
                some (.str "***REDACTED***") := if_pos hname
            rw [hnamed]
            rfl
          · rw [namedField_of_not_str hname hnot]
            exact ih hvalue
      | _ => cases hchild

/-! ## Which texts are hidden -/

variable (sha256)

/-- The name directly over a text changes it: it is replaced, or masked and was not yet, or the
name is not known to the chain and there is a secret in the text. -/
def HiddenBy (name text : String) : Prop :=
  if lower name ∈ replacedNames then text ≠ "***REDACTED***"
  else if (maskOf (primitives sha256) (lower name)).isSome then
    ¬ AlreadyMasked (primitives sha256) (lower name) text
  else HasSecret text.toList

/-- A text is hidden under a replaced name further up, by the name directly over it, or in a list
because of a secret in it. -/
def Hidden : List Step → String → Prop
  | [], text => HasSecret text.toList
  | .item _ :: place, text => Hidden place text
  | .key name :: [], text => HiddenBy sha256 name text
  | .key name :: step :: place, text => lower name ∈ replacedNames ∨ Hidden (step :: place) text

variable {sha256}

theorem redactString_ne {text : String} :
    redactString (primitives sha256) text ≠ text ↔ HasSecret text.toList := by
  constructor
  · intro h
    by_contra hno
    exact h (redactString_of_not_hasSecret sha256 hno)
  · intro h he
    exact not_hasSecret_redactString sha256 text (he.symm ▸ h)

theorem redactText_ne {name text : String} (h : text ≠ "") :
    redactText sha256 name text ≠ text ↔ HiddenBy sha256 name text := by
  unfold redactText HiddenBy
  split_ifs with hname hmask
  · exact ne_comm
  · obtain ⟨mask, hmask⟩ := Option.isSome_iff_exists.mp hmask
    rw [hmask]
    exact not_congr (mask_eq_self hmask h)
  · rw [Option.not_isSome_iff_eq_none.mp hmask]
    exact redactString_ne

theorem resultAt_ne {place : List Step} {text : String} (h : text ≠ "") :
    resultAt sha256 place text ≠ some (.str text) ↔ Hidden sha256 place text := by
  induction place with
  | nil => simpa [resultAt, Hidden] using redactString_ne
  | cons step place ih =>
    cases step with
    | item index => exact ih
    | key name =>
      cases place with
      | nil => simpa [resultAt, Hidden] using redactText_ne h
      | cons next place =>
        rw [resultAt, Hidden]
        split_ifs with hname
        · simp [hname]
        · rw [ih, or_iff_right hname]

/-- No text under a declared name stands in the result where it stood in the document. -/
def Protected (sha256 : String → String) (document : Json) : Prop :=
  ∀ before name after text, name ∈ piiFields →
    at? document (before ++ .key name :: after) = some (.str text) → text ≠ "" →
      at? (redact sha256 document) (before ++ .key name :: after) ≠ some (.str text)

/-- The declared fields of a document are protected exactly if every text under one of them is
hidden by the names on the way to it or for a secret in it. -/
theorem redact_protects_iff (sha256 : String → String) (document : Json) :
    Protected sha256 document ↔ ∀ before name after text, name ∈ piiFields →
      at? document (before ++ .key name :: after) = some (.str text) → text ≠ "" →
        Hidden sha256 (before ++ .key name :: after) text := by
  refine forall₄_congr fun before name after text => ?_
  refine forall₃_congr fun _ hat hne => ?_
  rw [at?_redact hat]
  exact resultAt_ne hne

/-- The declared names that the chain of `_redact_field` does not know, in lower case. -/
def unhandledNames : List String :=
  ["phone", "phone_number", "first_name", "last_name", "full_name", "address", "street",
    "postal_code"]

/-- A declared name is replaced or masked, or is one of these. -/
theorem piiFields_cases {name : String} (h : name ∈ piiFields) : lower name ∈ replacedNames ∨
    (maskOf (primitives sha256) (lower name)).isSome ∨ lower name ∈ unhandledNames := by
  have hcases : ∀ name ∈ piiFields, lower name ∈ replacedNames ∨ lower name ∈ maskedNames ∨
      lower name ∈ unhandledNames := by decide +kernel
  exact (hcases name h).imp_right fun h => h.imp_left isSome_maskOf.mpr

theorem hiddenBy_unhandled {name : String} (h : lower name ∈ unhandledNames) (text : String) :
    HiddenBy sha256 name text ↔ HasSecret text.toList := by
  have hnames : ∀ n ∈ unhandledNames, n ∉ replacedNames ∧ n ∉ maskedNames := by decide
  obtain ⟨hreplaced, hmask⟩ := hnames _ h
  rw [HiddenBy, if_neg hreplaced, if_neg (mt isSome_maskOf.mp hmask)]

/-- A telephone number stands in the result as it is. -/
theorem phone_in_clear : ∃ document, ∀ sha256, ¬ Protected sha256 document := by
  refine ⟨.obj [("phone", .str "+1 555 0100")], fun sha256 h => ?_⟩
  refine h [] "phone" [] "+1 555 0100" (by decide) rfl (by decide) ?_
  have hclear : ¬ HiddenBy sha256 "phone" "+1 555 0100" := by
    rw [hiddenBy_unhandled (by decide +kernel)]
    decide +kernel
  rw [at?_redact rfl]
  by_contra hne
  have hiff : resultAt sha256 [.key "phone"] "+1 555 0100" ≠ some (.str "+1 555 0100") ↔
      Hidden sha256 [.key "phone"] "+1 555 0100" := resultAt_ne (by decide)
  exact hclear (hiff.mp hne)

end Kepryx.PiiFields
