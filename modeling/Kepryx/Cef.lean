import Mathlib.Data.List.Basic
import Mathlib.Data.List.Forall2

/-!
# The Common Event Format

An event is one line: seven header fields, each ended by a pipe, and an extension of pairs
`key=value` with a space between them. In the header a pipe and a backslash are escaped, in the
values of the extension an equals sign, a backslash and a line break. The reader is strict: what
the format does not allow is no event.
-/
namespace Kepryx.Cef

/-! ## Splitting -/

section Chunks
variable {α β : Type*}

/-- The parts of a list between the elements without a value. -/
def chunks (f : α → Option β) : List α → List (List β)
  | [] => [[]]
  | a :: as =>
    match f a, chunks f as with
    | none, parts => [] :: parts
    | some b, [] => [[b]]
    | some b, part :: parts => (b :: part) :: parts

variable {f : α → Option β}

theorem chunks_cons_none {a : α} (h : f a = none) (as : List α) :
    chunks f (a :: as) = [] :: chunks f as := by
  simp only [chunks, h]

theorem chunks_cons_some {a : α} {b : β} (h : f a = some b) {as : List α} {part : List β}
    {parts : List (List β)} (hparts : chunks f as = part :: parts) :
    chunks f (a :: as) = (b :: part) :: parts := by
  simp only [chunks, h, hparts]

theorem length_chunks (as : List α) :
    (chunks f as).length = as.countP (fun a => (f a).isNone) + 1 := by
  induction as with
  | nil => rfl
  | cons a as ih =>
    cases h : f a with
    | none => rw [chunks_cons_none h, List.length_cons, ih, List.countP_cons_of_pos (by simp [h])]
    | some b =>
      rw [List.countP_cons_of_neg (by simp [h]), ← ih]
      cases hparts : chunks f as with
      | nil =>
        rw [hparts] at ih
        cases ih
      | cons part parts =>
        rw [chunks_cons_some h hparts]
        rfl

theorem chunks_ne_nil (as : List α) : chunks f as ≠ [] := by
  intro h
  have hlength := length_chunks (f := f) as
  rw [h] at hlength
  cases hlength

theorem chunks_append {a : α} (h : f a = none) (as bs : List α) :
    chunks f (as ++ a :: bs) = chunks f as ++ chunks f bs := by
  induction as with
  | nil => exact chunks_cons_none h bs
  | cons c as ih =>
    obtain ⟨part, parts, hparts⟩ := List.exists_cons_of_ne_nil (chunks_ne_nil (f := f) as)
    rw [hparts] at ih
    cases hc : f c with
    | none => rw [List.cons_append, chunks_cons_none hc, chunks_cons_none hc, ih, hparts]; rfl
    | some b =>
      rw [List.cons_append, chunks_cons_some hc ih, chunks_cons_some hc hparts]
      rfl

theorem chunks_of_map {as : List α} {bs : List β} (h : as.map f = bs.map some) :
    chunks f as = [bs] := by
  induction as generalizing bs with
  | nil =>
    obtain rfl : bs = [] := by simpa using h.symm
    rfl
  | cons a as ih =>
    cases bs with
    | nil => simp at h
    | cons b bs =>
      rw [List.map_cons, List.map_cons, List.cons.injEq] at h
      exact chunks_cons_some h.1 (ih h.2)

end Chunks

/-! ## The reader -/

def isBreak (c : Char) : Bool := c = '\n' || c = '\r'

/-- The lines of a text. -/
def lines (text : List Char) : List (List Char) :=
  chunks (fun c => if isBreak c then none else some c) text

/-- A header field up to its pipe, and the rest. -/
def field : List Char → Option (List Char × List Char)
  | [] => none
  | '|' :: rest => some ([], rest)
  | '\\' :: [] => none
  | '\\' :: c :: rest =>
    if c = '|' ∨ c = '\\' then (field rest).map fun r => (c :: r.1, r.2) else none
  | c :: rest => (field rest).map fun r => (c :: r.1, r.2)

/-- A character of the extension, or an equals sign that is not escaped. -/
inductive Token where
  | char (c : Char)
  | equals
  deriving DecidableEq, Repr

def Token.value : Token → Option Char
  | .char c => some c
  | .equals => none

/-- What a backslash and a character stand for. -/
def unescape : Char → Option Char
  | '=' => some '='
  | '\\' => some '\\'
  | 'n' => some '\n'
  | 'r' => some '\r'
  | _ => none

@[grind =] def tokens : List Char → Option (List Token)
  | [] => some []
  | '\\' :: [] => none
  | '\\' :: c :: rest => (unescape c).bind fun d => (tokens rest).map (.char d :: ·)
  | '=' :: rest => (tokens rest).map (.equals :: ·)
  | c :: rest => (tokens rest).map (.char c :: ·)

def isKey (key : List Char) : Bool := key ≠ [] && key.all Char.isAlphanum

/-- A value, and the key that follows its last space. -/
def splitKey (part : List Char) : Option (List Char × List Char) :=
  let key := (part.reverse.takeWhile (· ≠ ' ')).reverse
  if ' ' ∈ part ∧ isKey key then some (part.take (part.length - (key.length + 1)), key) else none

/-- The pairs, from the key of the first one and what stands between the equals signs. -/
def pairs (key : List Char) : List (List Char) → Option (List (List Char × List Char))
  | [] => none
  | [value] => some [(key, value)]
  | part :: next :: parts =>
    (splitKey part).bind fun r => (pairs r.2 (next :: parts)).map ((key, r.1) :: ·)

def extension (text : List Char) : Option (List (List Char × List Char)) :=
  (tokens text).bind fun ts =>
    match chunks Token.value ts with
    | [] => none
    | [part] => if part = [] then some [] else none
    | key :: parts => if isKey key then pairs key parts else none

structure Event where
  version : List Char
  vendor : List Char
  product : List Char
  deviceVersion : List Char
  signatureId : List Char
  name : List Char
  severity : List Char
  extension : List (List Char × List Char)
  deriving DecidableEq, Repr

def event : List Char → Option Event
  | 'C' :: 'E' :: 'F' :: ':' :: rest => do
    let (version, rest) ← field rest
    let (vendor, rest) ← field rest
    let (product, rest) ← field rest
    let (deviceVersion, rest) ← field rest
    let (signatureId, rest) ← field rest
    let (name, rest) ← field rest
    let (severity, rest) ← field rest
    let extension ← extension rest
    some ⟨version, vendor, product, deviceVersion, signatureId, name, severity, extension⟩
  | _ => none

/-- What each line of a datagram reads as. -/
def parse (datagram : List Char) : List (Option Event) := (lines datagram).map event

/-! ## Lines -/

/-- Without line breaks. -/
def OneLine (text : List Char) : Prop := ∀ c ∈ text, isBreak c = false

instance (text : List Char) : Decidable (OneLine text) := List.decidableBAll _ text

theorem lines_of_oneLine {text : List Char} (h : OneLine text) : lines text = [text] := by
  refine chunks_of_map (List.map_congr_left fun c hc => ?_)
  rw [h c hc]
  rfl

/-- A text of one line has no line break. -/
theorem oneLine_of_lines {text line : List Char} (h : lines text = [line]) : OneLine text := by
  have hlength := length_chunks (f := fun c => if isBreak c then none else some c) text
  rw [show chunks _ text = [line] from h, List.length_singleton] at hlength
  intro c hc
  have hzero : text.countP
      (fun c => (if isBreak c then none else some c : Option Char).isNone) = 0 := by omega
  have hnot := List.countP_eq_zero.mp hzero c hc
  cases hb : isBreak c with
  | false => rfl
  | true => simp [hb] at hnot

/-! ## Header fields -/

/-- A header text that needs no escapes. -/
def PlainField (text : List Char) : Prop := ∀ c ∈ text, c ≠ '|' ∧ c ≠ '\\'

instance (text : List Char) : Decidable (PlainField text) := List.decidableBAll _ text

def escapeField (c : Char) : List Char := if c = '|' ∨ c = '\\' then ['\\', c] else [c]

theorem field_plain {text : List Char} (h : PlainField text) (rest : List Char) :
    field (text ++ '|' :: rest) = some (text, rest) := by
  induction text with
  | nil => simp [field]
  | cons c text ih =>
    obtain ⟨hpipe, hslash⟩ := h c List.mem_cons_self
    have ih := ih fun d hd => h d (List.mem_cons_of_mem c hd)
    rw [List.cons_append, field]
    · simp [ih]
    · exact hpipe
    · exact fun h _ => hslash h
    · exact fun d rest h _ => hslash h

/-- What is read was written with escapes. -/
theorem field_eq_some {text value rest : List Char} (h : field text = some (value, rest)) :
    text = value.flatMap escapeField ++ '|' :: rest := by
  induction text using field.induct generalizing value with
  | case1 => simp [field] at h
  | case2 rest' =>
    simp only [field, Option.some.injEq, Prod.mk.injEq] at h
    obtain ⟨rfl, rfl⟩ := h
    rfl
  | case3 => simp [field] at h
  | case4 c text hc ih =>
    simp only [field, if_pos hc, Option.map_eq_some_iff] at h
    obtain ⟨⟨v, r⟩, hv, he⟩ := h
    cases he
    rw [ih hv]
    simp [escapeField, hc]
  | case5 c text hc => simp [field, hc] at h
  | case6 c text hpipe hend hslash ih =>
    rw [field] at h
    · obtain ⟨⟨v, r⟩, hv, he⟩ := Option.map_eq_some_iff.mp h
      cases he
      have hplain : ¬ (c = '|' ∨ c = '\\') := by
        rintro (rfl | rfl)
        · exact hpipe rfl
        · cases text with
          | nil => exact hend rfl rfl
          | cons d text => exact hslash d text rfl rfl
      rw [ih hv]
      simp [escapeField, hplain]
    · exact hpipe
    · exact hend
    · exact hslash

/-- A text whose escapes are shifted by backslashes never ends at the same pipe. -/
theorem append_ne_escaped (text rest rest' : List Char) (n : ℕ) :
    text ++ '|' :: rest ≠
      List.replicate (n + 1) '\\' ++ (text.flatMap escapeField ++ '|' :: rest') := by
  induction text generalizing n with
  | nil =>
    intro h
    rw [List.replicate_succ] at h
    cases h
  | cons c text ih =>
    intro h
    rw [List.replicate_succ, List.cons_append, List.cons_append, List.cons.injEq] at h
    obtain ⟨rfl, h⟩ := h
    apply ih (n + 1)
    rw [h, List.flatMap_cons, List.replicate_add n 2]
    simp [escapeField, List.replicate_succ]

/-- A text that is its own written form needs no escapes. -/
theorem plain_of_escaped {text rest rest' : List Char}
    (h : text ++ '|' :: rest = text.flatMap escapeField ++ '|' :: rest') : PlainField text := by
  induction text with
  | nil => exact List.forall_mem_nil _
  | cons c text ih =>
    by_cases hc : c = '|' ∨ c = '\\'
    · simp only [List.flatMap_cons, escapeField, if_pos hc, List.cons_append, List.nil_append,
        List.cons.injEq] at h
      obtain ⟨rfl, h⟩ := h
      exact absurd h (append_ne_escaped text rest rest' 0)
    · simp only [List.flatMap_cons, escapeField, if_neg hc, List.cons_append, List.nil_append,
        List.cons.injEq, true_and] at h
      exact List.forall_mem_cons.mpr ⟨not_or.mp hc, ih h⟩

/-- A text in the place of a field is read as itself only if it needs no escapes. -/
theorem field_self {text rest rest' : List Char}
    (h : field (text ++ '|' :: rest) = some (text, rest')) : PlainField text ∧ rest' = rest := by
  have hplain := plain_of_escaped (field_eq_some h)
  rw [field_plain hplain] at h
  exact ⟨hplain, (congrArg Prod.snd (Option.some.inj h)).symm⟩

/-! ## The extension -/

/-- A text of the extension that needs no escapes. -/
def PlainValue (text : List Char) : Prop := ∀ c ∈ text, c ≠ '=' ∧ c ≠ '\\'

instance (text : List Char) : Decidable (PlainValue text) := List.decidableBAll _ text

/-- A text that is read as a value: every equals sign and backslash in it is escaped. -/
def Reads (text value : List Char) : Prop := tokens text = some (value.map .char)

theorem Reads.unique {text v w : List Char} (hv : Reads text v) (hw : Reads text w) : v = w := by
  have hchars := Option.some.inj (hv.symm.trans hw)
  exact List.map_injective_iff.mpr (fun _ _ h => Token.char.inj h) hchars

theorem tokens_cons {c : Char} (hequals : c ≠ '=') (hslash : c ≠ '\\') (rest : List Char) :
    tokens (c :: rest) = (tokens rest).map (.char c :: ·) := by
  rw [tokens]
  · exact fun h _ => hslash h
  · exact fun d rest h _ => hslash h
  · exact hequals

/-- The last branch of the reader is not for a backslash. -/
theorem ne_slash {c : Char} {text : List Char} (hend : c = '\\' → text = [] → False)
    (hslash : ∀ d rest, c = '\\' → text = d :: rest → False) : c ≠ '\\' := by
  intro hc
  cases text with
  | nil => exact hend hc rfl
  | cons d text => exact hslash d text hc rfl

theorem tokens_plain_append {text : List Char} (h : PlainValue text) (rest : List Char) :
    tokens (text ++ rest) = (tokens rest).map (text.map Token.char ++ ·) := by
  induction text with
  | nil => simp
  | cons c text ih =>
    obtain ⟨hequals, hslash⟩ := h c List.mem_cons_self
    have ih := ih fun d hd => h d (List.mem_cons_of_mem c hd)
    rw [List.cons_append, tokens_cons hequals hslash, ih, Option.map_map]
    rfl

theorem reads_self {text : List Char} (h : PlainValue text) : Reads text text := by
  have htokens := tokens_plain_append h []
  rw [List.append_nil] at htokens
  rw [Reads, htokens]
  simp [tokens]

/-- A space ends no escape. -/
theorem tokens_append_space {text rest : List Char} {ts : List Token}
    (h : tokens (text ++ ' ' :: rest) = some ts) :
    ∃ us vs, tokens text = some us ∧ tokens rest = some vs ∧ ts = us ++ .char ' ' :: vs := by
  induction text using tokens.induct generalizing ts with
  | case1 =>
    rw [List.nil_append, tokens_cons (by decide) (by decide)] at h
    obtain ⟨vs, hvs, rfl⟩ := Option.map_eq_some_iff.mp h
    exact ⟨[], vs, rfl, hvs, rfl⟩
  | case2 => simp [tokens, unescape] at h
  | case3 c text ih =>
    simp only [List.cons_append, tokens, Option.bind_eq_some_iff, Option.map_eq_some_iff] at h
    obtain ⟨d, hd, ts', hts, rfl⟩ := h
    obtain ⟨us, vs, hus, hvs, rfl⟩ := ih hts
    exact ⟨.char d :: us, vs, by simp [tokens, hd, hus], hvs, rfl⟩
  | case4 text ih =>
    simp only [List.cons_append, tokens, Option.map_eq_some_iff] at h
    obtain ⟨ts', hts, rfl⟩ := h
    obtain ⟨us, vs, hus, hvs, rfl⟩ := ih hts
    exact ⟨.equals :: us, vs, by simp [tokens, hus], hvs, rfl⟩
  | case5 c text hend hslash hequals ih =>
    have hc := ne_slash hend hslash
    rw [List.cons_append, tokens_cons hequals hc] at h
    obtain ⟨ts', hts, rfl⟩ := Option.map_eq_some_iff.mp h
    obtain ⟨us, vs, hus, hvs, rfl⟩ := ih hts
    exact ⟨.char c :: us, vs, by rw [tokens_cons hequals hc, hus]; rfl, hvs, rfl⟩

/-- Behind a text that is read, the reader goes on as from the start. -/
theorem tokens_append {text : List Char} {us : List Token} (h : tokens text = some us)
    (rest : List Char) : tokens (text ++ rest) = (tokens rest).map (us ++ ·) := by
  induction text using tokens.induct generalizing us with
  | case1 =>
    obtain rfl : [] = us := Option.some.inj h
    simp
  | case2 => simp [tokens] at h
  | case3 c text ih =>
    simp only [tokens, Option.bind_eq_some_iff, Option.map_eq_some_iff] at h
    obtain ⟨d, hd, us', hus, rfl⟩ := h
    simp only [List.cons_append, tokens, hd, Option.bind_some, ih hus, Option.map_map]
    rfl
  | case4 text ih =>
    simp only [tokens, Option.map_eq_some_iff] at h
    obtain ⟨us', hus, rfl⟩ := h
    simp only [List.cons_append, tokens, ih hus, Option.map_map]
    rfl
  | case5 c text hend hslash hequals ih =>
    have hc := ne_slash hend hslash
    rw [tokens_cons hequals hc] at h
    obtain ⟨us', hus, rfl⟩ := Option.map_eq_some_iff.mp h
    rw [List.cons_append, tokens_cons hequals hc, ih hus, Option.map_map]
    rfl

/-- An escape is longer than what it stands for. -/
theorem length_tokens {text : List Char} {ts : List Token} (h : tokens text = some ts) :
    ts.length ≤ text.length ∧ ('\\' ∈ text → ts.length < text.length) := by
  induction text using tokens.induct generalizing ts with
  | case1 =>
    obtain rfl : [] = ts := Option.some.inj h
    simp
  | case2 => simp [tokens] at h
  | case3 c text ih =>
    simp only [tokens, Option.bind_eq_some_iff, Option.map_eq_some_iff] at h
    obtain ⟨d, hd, ts', hts, rfl⟩ := h
    have hle := (ih hts).1
    simp only [List.length_cons]
    omega
  | case4 text ih =>
    simp only [tokens, Option.map_eq_some_iff] at h
    obtain ⟨ts', hts, rfl⟩ := h
    obtain ⟨hle, hlt⟩ := ih hts
    simp only [List.length_cons, List.mem_cons]
    refine ⟨by omega, ?_⟩
    rintro (he | hmem)
    · cases he
    · have hshort := hlt hmem
      omega
  | case5 c text hend hslash hequals ih =>
    have hc := ne_slash hend hslash
    rw [tokens_cons hequals hc] at h
    obtain ⟨ts', hts, rfl⟩ := Option.map_eq_some_iff.mp h
    obtain ⟨hle, hlt⟩ := ih hts
    simp only [List.length_cons, List.mem_cons]
    refine ⟨by omega, ?_⟩
    rintro (he | hmem)
    · exact absurd he.symm hc
    · have hshort := hlt hmem
      omega

theorem tokens_of_no_slash {text : List Char} (h : '\\' ∉ text) :
    tokens text = some (text.map fun c => if c = '=' then .equals else .char c) := by
  induction text with
  | nil => rfl
  | cons c text ih =>
    rw [List.mem_cons, not_or] at h
    by_cases hc : c = '='
    · subst hc
      simp [tokens, ih h.2]
    · rw [tokens_cons hc (Ne.symm h.1), ih h.2]
      simp [hc]

/-- A text that reads as itself needs no escapes. -/
theorem reads_self_iff {text : List Char} : Reads text text ↔ PlainValue text := by
  refine ⟨fun h c hc => ?_, reads_self⟩
  have hslash : '\\' ∉ text := by
    intro hmem
    have hlt := (length_tokens h).2 hmem
    simp at hlt
  refine ⟨?_, fun he => hslash (he ▸ hc)⟩
  rintro rfl
  rw [Reads, tokens_of_no_slash hslash] at h
  have hmap := List.map_inj_left.mp (Option.some.inj h) '=' hc
  simp at hmap

/-- A value, and pairs after it. -/
def written (value : List Char) : List (List Char × List Char) → List Char
  | [] => value
  | (key, next) :: rest => value ++ ' ' :: (key ++ '=' :: written next rest)

theorem plain_of_isKey {key : List Char} (h : isKey key = true) :
    PlainValue key ∧ ' ' ∉ key := by
  unfold isKey at h
  have hall := List.all_eq_true.mp (Bool.and_eq_true_iff.mp h).2
  refine ⟨fun c hc => ⟨?_, ?_⟩, fun hc => ?_⟩
  · rintro rfl
    exact absurd (hall _ hc) (by decide)
  · rintro rfl
    exact absurd (hall _ hc) (by decide)
  · exact absurd (hall _ hc) (by decide)

theorem tokens_key {key : List Char} (h : isKey key = true) (rest : List Char) :
    tokens (key ++ '=' :: rest) =
      (tokens rest).map fun ts => key.map Token.char ++ .equals :: ts := by
  rw [tokens_plain_append (plain_of_isKey h).1, tokens, Option.map_map]
  rfl

theorem splitKey_append {key : List Char} (h : isKey key = true) (value : List Char) :
    splitKey (value ++ ' ' :: key) = some (value, key) := by
  have hspace := (plain_of_isKey h).2
  have htake : (value ++ ' ' :: key).reverse.takeWhile (· ≠ ' ') = key.reverse := by
    simp only [List.reverse_append, List.reverse_cons, List.append_assoc, List.singleton_append]
    rw [List.takeWhile_append_of_pos]
    · simp
    · intro c hc
      have hc' : c ∈ key := by simpa using hc
      simpa using fun he : c = ' ' => hspace (he ▸ hc')
  simp only [splitKey, htake, List.reverse_reverse]
  rw [if_pos ⟨by simp, h⟩]
  simp

theorem chunks_chars (value : List Char) :
    chunks Token.value (value.map Token.char) = [value] :=
  chunks_of_map (by simp [Token.value, Function.comp_def])

theorem chars_of_chunks {ts : List Token} (h : (chunks Token.value ts).length = 1) :
    ∃ value : List Char, ts = value.map .char := by
  rw [length_chunks] at h
  have hzero : ts.countP (fun t => t.value.isNone) = 0 := by omega
  induction ts with
  | nil => exact ⟨[], rfl⟩
  | cons t ts ih =>
    cases t with
    | char c =>
      rw [List.countP_cons_of_neg (by simp [Token.value])] at h hzero
      obtain ⟨value, rfl⟩ := ih h hzero
      exact ⟨c :: value, rfl⟩
    | equals => simp [Token.value] at hzero

/-- The parts of a value with a pair after it. -/
theorem chunks_written {value key next : List Char} {rest : List (List Char × List Char)}
    {ts : List Token} (hkey : isKey key = true)
    (h : tokens (written value ((key, next) :: rest)) = some ts) :
    ∃ us vs, tokens value = some us ∧ tokens (written next rest) = some vs ∧
      chunks Token.value ts = chunks Token.value (us ++ .char ' ' :: key.map Token.char) ++
        chunks Token.value vs := by
  obtain ⟨us, ts', hus, hts', rfl⟩ := tokens_append_space h
  rw [tokens_key hkey] at hts'
  obtain ⟨vs, hvs, rfl⟩ := Option.map_eq_some_iff.mp hts'
  refine ⟨us, vs, hus, hvs, ?_⟩
  rw [← chunks_append (a := Token.equals) rfl]
  simp

theorem length_le_chunks {value : List Char} {rest : List (List Char × List Char)}
    {ts : List Token} (hkeys : ∀ p ∈ rest, isKey p.1 = true)
    (h : tokens (written value rest) = some ts) :
    rest.length + 1 ≤ (chunks Token.value ts).length := by
  induction rest generalizing value ts with
  | nil =>
    rw [length_chunks]
    simp
  | cons p rest ih =>
    obtain ⟨us, vs, -, hvs, hchunks⟩ := chunks_written (hkeys p List.mem_cons_self) h
    have hle := ih (fun q hq => hkeys q (List.mem_cons_of_mem p hq)) hvs
    rw [hchunks, List.length_append, length_chunks]
    simp only [List.length_cons]
    omega

theorem length_pairs {key : List Char} {parts : List (List Char)}
    {qs : List (List Char × List Char)} (h : pairs key parts = some qs) :
    qs.length = parts.length := by
  induction parts generalizing key qs with
  | nil => cases h
  | cons part parts ih =>
    cases parts with
    | nil =>
      cases h
      rfl
    | cons next parts =>
      simp only [pairs, Option.bind_eq_some_iff, Option.map_eq_some_iff] at h
      obtain ⟨r, -, qs', hqs, rfl⟩ := h
      rw [List.length_cons, ih hqs]
      rfl

/-- What a written pair is read as. -/
def ReadsPair (p q : List Char × List Char) : Prop := q.1 = p.1 ∧ Reads p.2 q.2

/-- If as many pairs are read as were written, each is read under its own key. -/
theorem pairs_written {key value : List Char} {rest qs : List (List Char × List Char)}
    {ts : List Token} (hkeys : ∀ p ∈ rest, isKey p.1 = true)
    (h : tokens (written value rest) = some ts)
    (hqs : pairs key (chunks Token.value ts) = some qs) (hlength : qs.length ≤ rest.length + 1) :
    ∃ w ws, Reads value w ∧ List.Forall₂ ReadsPair rest ws ∧ qs = (key, w) :: ws := by
  have hparts := length_pairs hqs
  induction rest generalizing key value ts qs with
  | nil =>
    have hpos := length_le_chunks hkeys h
    simp only [List.length_nil] at hlength hpos
    have hone : (chunks Token.value ts).length = 1 := by omega
    obtain ⟨w, rfl⟩ := chars_of_chunks hone
    rw [chunks_chars] at hqs
    exact ⟨w, [], h, .nil, (Option.some.inj hqs).symm⟩
  | cons p rest ih =>
    have hkeys' : ∀ q ∈ rest, isKey q.1 = true := fun q hq => hkeys q (List.mem_cons_of_mem p hq)
    obtain ⟨us, vs, hus, hvs, hchunks⟩ := chunks_written (hkeys p List.mem_cons_self) h
    have hle := length_le_chunks hkeys' hvs
    -- no room for an equals sign of its own in the first value
    have hone : (chunks Token.value us).length = 1 := by
      have hfirst := length_chunks (f := Token.value) us
      have hboth := length_chunks (f := Token.value) (us ++ .char ' ' :: p.1.map Token.char)
      have hcount : (us ++ .char ' ' :: p.1.map Token.char).countP (fun t => t.value.isNone) =
          us.countP fun t => t.value.isNone := by
        rw [List.countP_append, List.countP_cons_of_neg (by simp [Token.value]), List.countP_map]
        simp [Token.value, Function.comp_def]
      rw [hchunks, List.length_append, hboth, hcount] at hparts
      simp only [List.length_cons] at hlength
      omega
    obtain ⟨w, rfl⟩ := chars_of_chunks hone
    have hchars : (w.map Token.char ++ .char ' ' :: p.1.map Token.char) =
        (w ++ ' ' :: p.1).map Token.char := by simp
    obtain ⟨part, parts, hvparts⟩ :=
      List.exists_cons_of_ne_nil (chunks_ne_nil (f := Token.value) vs)
    rw [hchunks, hchars, chunks_chars, List.singleton_append, hvparts, pairs,
      splitKey_append (hkeys p List.mem_cons_self), Option.bind_some] at hqs
    obtain ⟨qs', hqs', rfl⟩ := Option.map_eq_some_iff.mp hqs
    rw [← hvparts] at hqs'
    have hlength' : qs'.length ≤ rest.length + 1 := by simpa using hlength
    obtain ⟨x, xs, hx, hxs, rfl⟩ := ih hkeys' hvs hqs' hlength' (length_pairs hqs')
    exact ⟨w, (p.1, x) :: xs, hus, .cons ⟨rfl, hx⟩ hxs, rfl⟩

/-- Values that are read under their own keys. -/
theorem pairs_of_reads (key : List Char) {value w : List Char}
    {rest ws : List (List Char × List Char)}
    (hkeys : ∀ p ∈ rest, isKey p.1 = true) (hvalue : Reads value w)
    (hrest : List.Forall₂ ReadsPair rest ws) :
    ∃ ts, tokens (written value rest) = some ts ∧
      pairs key (chunks Token.value ts) = some ((key, w) :: ws) := by
  induction hrest generalizing key value w with
  | nil => exact ⟨w.map .char, hvalue, by rw [chunks_chars]; rfl⟩
  | @cons p q rest ws hpair hrest ih =>
    obtain ⟨hq, hreads⟩ := hpair
    have hkey := hkeys p List.mem_cons_self
    have hkeys' : ∀ q ∈ rest, isKey q.1 = true := fun q hq => hkeys q (List.mem_cons_of_mem p hq)
    obtain ⟨ts, hts, hpairs⟩ := ih p.1 hkeys' hreads
    obtain ⟨part, parts, hparts⟩ := List.exists_cons_of_ne_nil (chunks_ne_nil (f := Token.value) ts)
    have hchars : (w.map Token.char ++ .char ' ' :: p.1.map Token.char) =
        (w ++ ' ' :: p.1).map Token.char := by simp
    refine ⟨(w ++ ' ' :: p.1).map Token.char ++ .equals :: ts, ?_, ?_⟩
    · rw [written, tokens_append hvalue, tokens_cons (by decide) (by decide), tokens_key hkey,
        hts, ← hchars]
      simp
    · rw [chunks_append (a := Token.equals) rfl, chunks_chars, hparts, List.singleton_append, pairs,
        splitKey_append hkey, Option.bind_some, ← hparts, hpairs, ← hq]
      rfl

/-- The extension of pairs that are written one after the other: as many pairs are read exactly
if every value is read under its own key. -/
theorem extension_written {key value : List Char} {rest qs : List (List Char × List Char)}
    (hkey : isKey key = true) (hkeys : ∀ p ∈ rest, isKey p.1 = true) :
    extension (key ++ '=' :: written value rest) = some qs ∧ qs.length ≤ rest.length + 1 ↔
      ∃ w ws, Reads value w ∧ List.Forall₂ ReadsPair rest ws ∧ qs = (key, w) :: ws := by
  have hchunks : ∀ ts, chunks Token.value (key.map Token.char ++ .equals :: ts) =
      key :: chunks Token.value ts := by
    intro ts
    rw [chunks_append (a := Token.equals) rfl, chunks_chars, List.singleton_append]
  have hread : ∀ ts, tokens (written value rest) = some ts →
      extension (key ++ '=' :: written value rest) = pairs key (chunks Token.value ts) := by
    intro ts hts
    obtain ⟨part, parts, hparts⟩ := List.exists_cons_of_ne_nil (chunks_ne_nil (f := Token.value) ts)
    rw [extension, tokens_key hkey, hts, Option.map_some, Option.bind_some, hchunks, hparts]
    exact if_pos hkey
  constructor
  · rintro ⟨h, hlength⟩
    cases hts : tokens (written value rest) with
    | none =>
      rw [extension, tokens_key hkey, hts] at h
      cases h
    | some ts =>
      rw [hread ts hts] at h
      exact pairs_written hkeys hts h hlength
  · rintro ⟨w, ws, hvalue, hrest, rfl⟩
    obtain ⟨ts, hts, hpairs⟩ := pairs_of_reads key hkeys hvalue hrest
    refine ⟨by rw [hread ts hts, hpairs], ?_⟩
    have hlen := hrest.length_eq
    rw [List.length_cons]
    omega

end Kepryx.Cef
