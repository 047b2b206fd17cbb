import Mathlib.Data.List.Forall2
import Mathlib.Data.List.TakeWhile
import Kepryx.JsonText

/-!
# Reading JSON

A reader takes a document off the front of a text and leaves the rest. It skips whitespace between
the tokens, decodes the escapes of strings, with surrogate pairs, and keeps the members of objects
in their order. What was dumped is read back, under any separators and with or without escaped
characters.
-/
namespace Kepryx.JsonText

/-! ## Whitespace and strings -/

def whitespace : List Char := [' ', '\t', '\n', '\r']

def skip (text : List Char) : List Char := text.dropWhile (· ∈ whitespace)

def hexValue (c : Char) : Option ℕ :=
  if '0' ≤ c ∧ c ≤ '9' then some (c.toNat - '0'.toNat)
  else if 'a' ≤ c ∧ c ≤ 'f' then some (c.toNat - 'a'.toNat + 10)
  else if 'A' ≤ c ∧ c ≤ 'F' then some (c.toNat - 'A'.toNat + 10)
  else none

/-- The number of four hexadecimal digits. -/
def readHex : List Char → Option (ℕ × List Char)
  | a :: b :: c :: d :: rest => do
    let n := ((← hexValue a) * 16 + (← hexValue b)) * 256 + (← hexValue c) * 16 + (← hexValue d)
    return (n, rest)
  | _ => none

/-- The character of a code point; a surrogate has none. -/
def charOf (n : ℕ) : Option Char := if n.isValidChar then some (Char.ofNat n) else none

/-- What follows `\u`: a character of the basic plane, or the first half of a pair. -/
def readUnicode (text : List Char) : Option (Char × List Char) :=
  match readHex text with
  | none => none
  | some (n, rest) =>
    if 55296 ≤ n ∧ n < 56320 then
      match rest with
      | '\\' :: 'u' :: rest =>
        match readHex rest with
        | some (m, rest) =>
          if 56320 ≤ m ∧ m < 57344 then
            (charOf (65536 + (n - 55296) * 1024 + (m - 56320))).map (·, rest)
          else none
        | none => none
      | _ => none
    else (charOf n).map (·, rest)

/-- The character that stands for another after a backslash. -/
def unescape (c : Char) : Option Char :=
  if c = '"' ∨ c = '\\' ∨ c = '/' then some c
  else if c = 'n' then some '\n'
  else if c = 'r' then some '\r'
  else if c = 't' then some '\t'
  else if c = 'b' then some (Char.ofNat 8)
  else if c = 'f' then some (Char.ofNat 12)
  else none

/-- A character of a string, escaped or not. -/
def readChar : List Char → Option (Char × List Char)
  | [] => none
  | c :: rest =>
    if c = '\\' then
      match rest with
      | [] => none
      | d :: rest => if d = 'u' then readUnicode rest else (unescape d).map (·, rest)
    else if c = '"' ∨ c.toNat < 32 then none
    else some (c, rest)

/-- The characters up to the closing quote. -/
def readChars : ℕ → List Char → Option (List Char × List Char)
  | 0, _ => none
  | n + 1, text =>
    match text with
    | [] => none
    | c :: rest =>
      if c = '"' then some ([], rest)
      else match readChar text with
        | none => none
        | some (c, rest) => (readChars n rest).map fun r => (c :: r.1, r.2)

/-- What follows an opening quote. -/
def readString (text : List Char) : Option (String × List Char) :=
  (readChars (text.length + 1) text).map fun r => (String.ofList r.1, r.2)

theorem hexValue_digits : ∀ n : Fin 16, hexValue n.val.digitChar = some n.val := by decide

theorem hexValue_digitChar {n : ℕ} (h : n < 16) : hexValue n.digitChar = some n := by
  exact hexValue_digits ⟨n, h⟩

theorem readHex_digits {n : ℕ} (h : n < 65536) (rest : List Char) :
    readHex ((n / 4096 % 16).digitChar :: (n / 256 % 16).digitChar :: (n / 16 % 16).digitChar ::
      (n % 16).digitChar :: rest) = some (n, rest) := by
  have hdigit : ∀ m : ℕ, hexValue (m % 16).digitChar = some (m % 16) :=
    fun m => hexValue_digitChar (Nat.mod_lt m (by decide))
  have hsum : ((n / 4096 % 16) * 16 + n / 256 % 16) * 256 + n / 16 % 16 * 16 + n % 16 = n := by
    omega
  simp only [readHex, hdigit, Option.bind_eq_bind, Option.bind_some, Option.pure_def, hsum]

theorem charOf_toNat (c : Char) : charOf c.toNat = some c := by
  have hvalid : c.toNat.isValidChar := c.valid
  rw [charOf, if_pos hvalid, Char.ofNat_toNat]

/-- Code points are no surrogates. -/
theorem toNat_lt_or (c : Char) : c.toNat < 55296 ∨ 57344 ≤ c.toNat ∧ c.toNat < 1114112 := by
  rcases c.valid with h | ⟨hlow, hhigh⟩
  · exact .inl h
  · exact .inr ⟨hlow, hhigh⟩

theorem unicodeEscape_cons (n : ℕ) (rest : List Char) : unicodeEscape n ++ rest =
    '\\' :: 'u' :: (n / 4096 % 16).digitChar :: (n / 256 % 16).digitChar ::
      (n / 16 % 16).digitChar :: (n % 16).digitChar :: rest := rfl

theorem readUnicode_of_lt {c : Char} (h : c.toNat < 65536) (rest : List Char) :
    readChar (unicodeEscape c.toNat ++ rest) = some (c, rest) := by
  have hnone : ¬ (55296 ≤ c.toNat ∧ c.toNat < 56320) := by
    rcases toNat_lt_or c with hlow | ⟨hhigh, -⟩ <;> omega
  rw [unicodeEscape_cons]
  simp only [readChar, if_true, readUnicode, readHex_digits h, if_neg hnone, charOf_toNat,
    Option.map_some]

/-- A surrogate pair is read as its character. -/
theorem readChar_pair {n m : ℕ} {c : Char} (hn : 55296 ≤ n ∧ n < 56320)
    (hm : 56320 ≤ m ∧ m < 57344) (hc : 65536 + (n - 55296) * 1024 + (m - 56320) = c.toNat)
    (rest : List Char) :
    readChar (unicodeEscape n ++ (unicodeEscape m ++ rest)) = some (c, rest) := by
  have hfirst : n < 65536 := by omega
  have hsecond : m < 65536 := by omega
  rw [unicodeEscape_cons, unicodeEscape_cons]
  simp only [readChar, if_true, readUnicode, readHex_digits hfirst, if_pos hn,
    readHex_digits hsecond, if_pos hm, hc, charOf_toNat, Option.map_some]

theorem readChar_escapeNonAscii (c : Char) (rest : List Char) :
    readChar (escapeNonAscii c ++ rest) = some (c, rest) := by
  unfold escapeNonAscii
  split
  · rename_i h
    exact readUnicode_of_lt h rest
  · rename_i h
    have hhigh : c.toNat < 1114112 := by
      rcases toNat_lt_or c with hlow | ⟨-, hhigh⟩ <;> omega
    rw [List.append_assoc]
    exact readChar_pair (by omega) (by omega) (by omega) rest

/-- What was escaped is read as the character. -/
theorem readChar_escape (ensureAscii : Bool) (c : Char) (rest : List Char) :
    readChar (escape ensureAscii c ++ rest) = some (c, rest) := by
  by_cases hquote : c = '"'
  · rw [hquote]
    rfl
  by_cases hbackslash : c = '\\'
  · rw [hbackslash]
    rfl
  by_cases hnewline : c = '\n'
  · rw [hnewline]
    rfl
  by_cases hreturn : c = '\r'
  · rw [hreturn]
    rfl
  by_cases htab : c = '\t'
  · rw [htab]
    rfl
  rw [escape, if_neg hquote, if_neg hbackslash, if_neg hnewline, if_neg hreturn, if_neg htab]
  by_cases hbackspace : c.toNat = 8
  · rw [if_pos hbackspace]
    have hc : Char.ofNat 8 = c := by rw [← hbackspace, Char.ofNat_toNat]
    exact congrArg (fun d => some (d, rest)) hc
  by_cases hfeed : c.toNat = 12
  · rw [if_neg hbackspace, if_pos hfeed]
    have hc : Char.ofNat 12 = c := by rw [← hfeed, Char.ofNat_toNat]
    exact congrArg (fun d => some (d, rest)) hc
  rw [if_neg hbackspace, if_neg hfeed]
  split
  · rename_i hcontrol
    exact readUnicode_of_lt (by omega) rest
  · rename_i hcontrol
    split
    · exact readChar_escapeNonAscii c rest
    · simp only [List.singleton_append, readChar, if_neg hbackslash, hquote, hcontrol, or_self,
        if_false]

theorem escape_head (ensureAscii : Bool) (c : Char) :
    ∃ d ds, escape ensureAscii c = d :: ds ∧ d ≠ '"' := by
  by_cases hquote : c = '"'
  · rw [hquote]
    exact ⟨_, _, rfl, by decide⟩
  unfold escape
  rw [if_neg hquote]
  repeat' split
  all_goals first
    | exact ⟨_, _, rfl, by decide⟩
    | exact ⟨_, _, rfl, hquote⟩
    | skip
  unfold escapeNonAscii
  split
  · exact ⟨_, _, rfl, by decide⟩
  · exact ⟨_, _, rfl, by decide⟩

theorem readChars_escape {ensureAscii : Bool} {s : List Char} {n : ℕ} (hn : s.length < n)
    (rest : List Char) :
    readChars n (s.flatMap (escape ensureAscii) ++ '"' :: rest) = some (s, rest) := by
  induction s generalizing n with
  | nil =>
    obtain ⟨n, rfl⟩ := Nat.exists_eq_succ_of_ne_zero (Nat.ne_of_gt hn)
    rfl
  | cons c s ih =>
    obtain ⟨n, rfl⟩ := Nat.exists_eq_succ_of_ne_zero (Nat.ne_of_gt (Nat.zero_lt_of_lt hn))
    have hrest := ih (Nat.lt_of_succ_lt_succ hn)
    have hread := readChar_escape ensureAscii c (s.flatMap (escape ensureAscii) ++ '"' :: rest)
    obtain ⟨d, ds, hhead, hd⟩ := escape_head ensureAscii c
    rw [List.flatMap_cons, List.append_assoc]
    rw [hhead, List.cons_append] at hread ⊢
    simp only [readChars, if_neg hd, hread, hrest, Option.map_some]

theorem length_le_escape (ensureAscii : Bool) (s : List Char) :
    s.length ≤ (s.flatMap (escape ensureAscii)).length := by
  induction s with
  | nil => exact le_refl _
  | cons c s ih =>
    obtain ⟨d, ds, hhead, -⟩ := escape_head ensureAscii c
    rw [List.flatMap_cons, hhead, List.length_append, List.length_cons, List.length_cons]
    omega

theorem readString_escape (ensureAscii : Bool) (s : String) (rest : List Char) :
    readString (s.toList.flatMap (escape ensureAscii) ++ '"' :: rest) = some (s, rest) := by
  have hle := length_le_escape ensureAscii s.toList
  have hn : s.toList.length <
      (s.toList.flatMap (escape ensureAscii) ++ '"' :: rest).length + 1 := by
    rw [List.length_append]
    omega
  rw [readString, readChars_escape hn, Option.map_some, String.ofList_toList]

/-! ## Numbers -/

def isNumberChar (c : Char) : Bool := c.isDigit || c ∈ ['-', '+', '.', 'e', 'E']

/-- Digits as they are printed, without leading zeros. -/
def plainDigits (ds : List Char) : Bool :=
  ds.all Char.isDigit && Nat.toDigits 10 (Nat.ofDigitChars 10 ds 0) = ds

def unsigned (token : List Char) : List Char :=
  if token.head? = some '-' then token.tail else token

def isExponent : List Char → Bool
  | [] => true
  | c :: rest =>
    let ds := if rest.head? = some '+' then rest.tail else unsigned rest
    (c = 'e' || c = 'E') && !ds.isEmpty && ds.all Char.isDigit

def isFraction : List Char → Bool
  | [] => false
  | c :: rest =>
    if c = '.' then
      !(rest.takeWhile Char.isDigit).isEmpty && isExponent (rest.dropWhile Char.isDigit)
    else isExponent (c :: rest)

/-- A number with a fraction or an exponent. -/
def isFloat (token : List Char) : Bool :=
  token.all isNumberChar && plainDigits ((unsigned token).takeWhile Char.isDigit) &&
    isFraction ((unsigned token).dropWhile Char.isDigit)

def numeral (token : List Char) : Option Json :=
  if plainDigits (unsigned token) then
    some (.int (if token.head? = some '-' then -(Nat.ofDigitChars 10 (unsigned token) 0)
      else Nat.ofDigitChars 10 (unsigned token) 0))
  else if isFloat token then some (.float (String.ofList token))
  else none

/-- The longest text of characters of numbers. -/
def readNumber (text : List Char) : Option (Json × List Char) :=
  (numeral (text.takeWhile isNumberChar)).map (·, text.dropWhile isNumberChar)

/-- No number goes on in the text. -/
def Ends (text : List Char) : Prop := ∀ c ∈ text.head?, isNumberChar c = false

theorem takeWhile_append_ends {token text : List Char} (htoken : token.all isNumberChar)
    (hends : Ends text) : (token ++ text).takeWhile isNumberChar = token ∧
      (token ++ text).dropWhile isNumberChar = text := by
  have hall := List.all_eq_true.mp htoken
  rw [List.takeWhile_append_of_pos hall, List.dropWhile_append_of_pos hall]
  cases text with
  | nil => exact ⟨List.append_nil _, rfl⟩
  | cons c rest =>
    have hc := hends c rfl
    rw [List.takeWhile_cons_of_neg (by simp [hc]), List.dropWhile_cons_of_neg (by simp [hc])]
    exact ⟨List.append_nil _, rfl⟩

theorem readNumber_token {token text : List Char} {doc : Json} (htoken : token.all isNumberChar)
    (hdoc : numeral token = some doc) (hends : Ends text) :
    readNumber (token ++ text) = some (doc, text) := by
  obtain ⟨htake, hdrop⟩ := takeWhile_append_ends htoken hends
  rw [readNumber, htake, hdrop, hdoc, Option.map_some]

theorem plainDigits_toDigits (n : ℕ) : plainDigits (Nat.toDigits 10 n) = true := by
  have hdigits : (Nat.toDigits 10 n).all Char.isDigit := List.all_eq_true.mpr fun c hc =>
    Nat.isDigit_of_mem_toDigits (by decide) (by decide) hc
  rw [plainDigits, hdigits, Nat.ofDigitChars_ten_toDigits, decide_eq_true rfl, Bool.true_and]

theorem isNumberChar_digits {ds : List Char} (h : ds.all Char.isDigit) :
    ds.all isNumberChar = true :=
  List.all_eq_true.mpr fun c hc => by rw [isNumberChar, List.all_eq_true.mp h c hc, Bool.true_or]

theorem unsigned_digits {ds : List Char} (h : ds.all Char.isDigit) :
    ds.head? ≠ some '-' ∧ unsigned ds = ds := by
  have hhead : ds.head? ≠ some '-' := by
    intro hhead
    have hdigit := List.all_eq_true.mp h '-' (List.mem_of_mem_head? hhead)
    cases hdigit
  exact ⟨hhead, if_neg hhead⟩

/-- A printed integer is read as itself. -/
theorem numeral_int (n : ℤ) :
    (toString n).toList.all isNumberChar = true ∧ numeral (toString n).toList = some (.int n) := by
  have hall : ∀ m : ℕ, (Nat.toDigits 10 m).all Char.isDigit := fun m =>
    List.all_eq_true.mpr fun c hc => Nat.isDigit_of_mem_toDigits (by decide) (by decide) hc
  cases n with
  | ofNat m =>
    have htext : (toString (Int.ofNat m)).toList = Nat.toDigits 10 m := Nat.toList_repr
    obtain ⟨hhead, hunsigned⟩ := unsigned_digits (hall m)
    rw [htext]
    refine ⟨isNumberChar_digits (hall m), ?_⟩
    rw [numeral, hunsigned, if_pos (plainDigits_toDigits m), if_neg hhead,
      Nat.ofDigitChars_ten_toDigits]
    rfl
  | negSucc m =>
    have htext : (toString (Int.negSucc m)).toList = '-' :: Nat.toDigits 10 (m + 1) := by
      change ("-" ++ Nat.repr (m + 1)).toList = _
      rw [String.toList_append, Nat.toList_repr]
      rfl
    rw [htext]
    refine ⟨?_, ?_⟩
    · rw [List.all_cons, isNumberChar_digits (hall (m + 1))]
      rfl
    · have hunsigned : unsigned ('-' :: Nat.toDigits 10 (m + 1)) = Nat.toDigits 10 (m + 1) := rfl
      rw [numeral, hunsigned, if_pos (plainDigits_toDigits (m + 1)), Nat.ofDigitChars_ten_toDigits]
      rfl

/-- A number starts with a digit or a sign. -/
theorem numeral_head {token : List Char} (htoken : token.all isNumberChar) {doc : Json}
    (h : numeral token = some doc) : ∃ c rest, token = c :: rest ∧ isNumberChar c = true := by
  cases token with
  | nil => cases h
  | cons c rest =>
    rw [List.all_cons, Bool.and_eq_true] at htoken
    exact ⟨c, rest, rfl, htoken.1⟩

theorem numeral_float {token : List Char} (h : isFloat token = true) :
    numeral token = some (.float (String.ofList token)) := by
  have hfloat := h
  rw [isFloat, Bool.and_eq_true] at hfloat
  have hplain : plainDigits (unsigned token) = false := by
    by_contra hplain
    rw [Bool.not_eq_false, plainDigits, Bool.and_eq_true] at hplain
    rw [List.dropWhile_eq_nil_iff.mpr (List.all_eq_true.mp hplain.1)] at hfloat
    cases hfloat.2
  rw [numeral, hplain, if_neg (by decide), if_pos h]

/-! ## Values -/

def literals : List (List Char × Json) :=
  [("null".toList, .null), ("true".toList, .bool true), ("false".toList, .bool false)]

def readScalar (text : List Char) : Option (Json × List Char) :=
  match literals.find? fun l => l.1.isPrefixOf text with
  | some l => some (l.2, text.drop l.1.length)
  | none => readNumber text

/-- Items with commas between them, up to the closing character. -/
def readItems {α : Type} (item : List Char → Option (α × List Char)) (close : Char) :
    ℕ → List Char → Option (List α × List Char)
  | 0, _ => none
  | n + 1, text =>
    match item text with
    | none => none
    | some (x, rest) =>
      match skip rest with
      | [] => none
      | c :: rest =>
        if c = ',' then (readItems item close n rest).map fun r => (x :: r.1, r.2)
        else if c = close then some ([x], rest)
        else none

/-- The items after an opening character, or none. -/
def readClosed {α : Type} (item : List Char → Option (α × List Char)) (close : Char)
    (text : List Char) : Option (List α × List Char) :=
  if (skip text).head? = some close then some ([], (skip text).tail)
  else readItems item close (text.length + 1) text

/-- A key, a colon and a value. -/
def readMember (value : List Char → Option (Json × List Char)) (text : List Char) :
    Option ((String × Json) × List Char) :=
  match skip text with
  | [] => none
  | c :: rest =>
    if c = '"' then
      match readString rest with
      | none => none
      | some (k, rest) =>
        match skip rest with
        | [] => none
        | c :: rest => if c = ':' then (value rest).map fun r => ((k, r.1), r.2) else none
    else none

/-- A value that is nested at most so deep. -/
def readValue : ℕ → List Char → Option (Json × List Char)
  | 0, _ => none
  | n + 1, text =>
    match skip text with
    | [] => none
    | c :: rest =>
      if c = '"' then (readString rest).map fun r => (.str r.1, r.2)
      else if c = '[' then (readClosed (readValue n) ']' rest).map fun r => (.arr r.1, r.2)
      else if c = '{' then
        (readClosed (readMember (readValue n)) '}' rest).map fun r => (.obj r.1, r.2)
      else readScalar (c :: rest)

/-- A text that is one document. -/
def read (text : List Char) : Option Json :=
  match readValue text.length text with
  | none => none
  | some (doc, rest) => if skip rest = [] then some doc else none

/-! ## Reading what was dumped -/

def White (ws : List Char) : Prop := ∀ c ∈ ws, c ∈ whitespace

/-- Separators that hold a comma and a colon, with nothing but whitespace around. -/
structure DumpOptions.Readable (o : DumpOptions) : Prop where
  item : ∃ before after, o.itemSeparator.toList = before ++ ',' :: after ∧
    White before ∧ White after
  key : ∃ before after, o.keySeparator.toList = before ++ ':' :: after ∧
    White before ∧ White after

/-- A document as a dictionary gives it: the keys of every object are distinct, and a number that is
no integer has a fraction or an exponent. -/
inductive WellFormed : Json → Prop
  | null : WellFormed .null
  | bool (b : Bool) : WellFormed (.bool b)
  | int (n : ℤ) : WellFormed (.int n)
  | float (text : String) (htext : isFloat text.toList = true) : WellFormed (.float text)
  | str (s : String) : WellFormed (.str s)
  | arr (elements : List Json) (h : ∀ e ∈ elements, WellFormed e) : WellFormed (.arr elements)
  | obj (members : List (String × Json)) (hkeys : (members.map Prod.fst).Nodup)
    (h : ∀ m ∈ members, WellFormed m.2) : WellFormed (.obj members)

theorem white_nil : White [] := fun _ h => absurd h List.not_mem_nil

theorem skip_white {ws : List Char} (h : White ws) (text : List Char) :
    skip (ws ++ text) = skip text :=
  List.dropWhile_append_of_pos fun c hc => decide_eq_true (h c hc)

theorem skip_cons {c : Char} (hc : c ∉ whitespace) (text : List Char) :
    skip (c :: text) = c :: text := List.dropWhile_cons_of_neg (by simpa using hc)

theorem ends_white {ws : List Char} (hws : White ws) {c : Char} (hc : isNumberChar c = false)
    (text : List Char) : Ends (ws ++ c :: text) := by
  cases ws with
  | nil =>
    rintro d ⟨⟩
    exact hc
  | cons w ws =>
    rintro d ⟨⟩
    have hw : w ∈ whitespace := hws w List.mem_cons_self
    have hnone : whitespace.any isNumberChar = false := by decide
    exact Bool.eq_false_iff.mpr (List.any_eq_false.mp hnone w hw)

/-- The reader takes the item off the front, with whitespace before it. -/
def Reads {α : Type} (item : List Char → Option (α × List Char)) (x : α) (text : List Char) :
    Prop :=
  ∀ ws, White ws → ∀ tail, Ends tail → item (ws ++ (text ++ tail)) = some (x, tail)

theorem readItems_intercalate {α : Type} {item : List Char → Option (α × List Char)} {close : Char}
    (hclose : close ∉ whitespace) (hcomma : close ≠ ',') (hnumber : isNumberChar close = false)
    {sep before after : List Char} (hsep : sep = before ++ ',' :: after) (hbefore : White before)
    (hafter : White after) {xs : List α} {texts : List (List Char)}
    (h : List.Forall₂ (Reads item) xs texts) (hne : xs ≠ []) {ws : List Char} (hws : White ws)
    {n : ℕ} (hn : texts.length ≤ n) (tail : List Char) :
    readItems item close n (ws ++ (sep.intercalate texts ++ close :: tail)) = some (xs, tail) := by
  induction h generalizing ws n with
  | nil => exact absurd rfl hne
  | @cons x text xs texts hitem hitems ih =>
    obtain ⟨n, rfl⟩ : ∃ m, n = m + 1 :=
      Nat.exists_eq_succ_of_ne_zero (Nat.ne_of_gt (Nat.zero_lt_of_lt hn))
    cases hitems with
    | nil =>
      have hends : Ends (close :: tail) := ends_white white_nil hnumber tail
      rw [List.intercalate_singleton, readItems, hitem ws hws _ hends]
      simp only [skip_cons hclose, if_neg hcomma, if_true]
    | @cons y text' ys texts' hy hys =>
      have hends : Ends (before ++ ',' :: (after ++ (sep.intercalate (text' :: texts') ++
          close :: tail))) := ends_white hbefore (by decide) _
      have hnone : ',' ∉ whitespace := by decide
      have hrest := ih (List.cons_ne_nil y ys) hafter (Nat.le_of_succ_le_succ hn)
      have happend : sep.intercalate (text :: text' :: texts') ++ close :: tail =
          text ++ (before ++ ',' :: (after ++ (sep.intercalate (text' :: texts') ++
            close :: tail))) := by
        rw [List.intercalate_cons_cons, hsep]
        simp only [List.append_assoc, List.cons_append]
      rw [happend, readItems, hitem ws hws _ hends]
      simp only [skip_white hbefore, skip_cons hnone, if_true, hrest, Option.map_some]

theorem length_le_intercalate {sep : List Char} (hsep : sep ≠ []) (texts : List (List Char)) :
    texts.length ≤ (sep.intercalate texts).length + 1 := by
  induction texts with
  | nil => exact Nat.zero_le _
  | cons text texts ih =>
    cases texts with
    | nil => exact Nat.succ_le_succ (Nat.zero_le _)
    | cons text' texts =>
      have hpos : 0 < sep.length := List.length_pos_of_ne_nil hsep
      rw [List.intercalate_cons_cons, List.length_append, List.length_append, List.length_cons]
      omega

/-- The start of an item: no whitespace and no closing character. -/
def Starts (close : Char) (text : List Char) : Prop :=
  ∃ c rest, text = c :: rest ∧ c ∉ whitespace ∧ c ≠ close

theorem readClosed_intercalate {α : Type} {item : List Char → Option (α × List Char)}
    {close : Char} (hclose : close ∉ whitespace) (hcomma : close ≠ ',')
    (hnumber : isNumberChar close = false) {sep before after : List Char}
    (hsep : sep = before ++ ',' :: after) (hbefore : White before) (hafter : White after)
    {xs : List α} {texts : List (List Char)} (h : List.Forall₂ (Reads item) xs texts)
    (hstarts : ∀ text ∈ texts, Starts close text) (tail : List Char) :
    readClosed item close (sep.intercalate texts ++ close :: tail) = some (xs, tail) := by
  cases h with
  | nil =>
    rw [List.intercalate_nil, List.nil_append, readClosed, skip_cons hclose, List.head?_cons,
      if_pos rfl, List.tail_cons]
  | @cons x text xs texts hitem hitems =>
    obtain ⟨c, rest, htext, hspace, hne⟩ := hstarts text List.mem_cons_self
    obtain ⟨tail', hfirst⟩ := intercalate_cons_head sep text texts
    have hhead : (skip (sep.intercalate (text :: texts) ++ close :: tail)).head? ≠ some close := by
      rw [hfirst, htext, List.cons_append, List.cons_append, skip_cons hspace, List.head?_cons]
      exact fun heq => hne (Option.some.inj heq)
    have hsepne : sep ≠ [] := by
      rw [hsep]
      exact List.append_ne_nil_of_right_ne_nil before (List.cons_ne_nil _ _)
    rw [readClosed, if_neg hhead]
    refine readItems_intercalate hclose hcomma hnumber hsep hbefore hafter (.cons hitem hitems)
      (List.cons_ne_nil x xs) white_nil ?_ tail
    refine (length_le_intercalate hsepne _).trans ?_
    rw [List.length_append]
    omega

theorem length_le_of_mem_intercalate (sep : List Char) {text : List Char} {texts : List (List Char)}
    (h : text ∈ texts) : text.length ≤ (sep.intercalate texts).length := by
  induction texts with
  | nil => exact absurd h List.not_mem_nil
  | cons t texts ih =>
    cases texts with
    | nil =>
      rw [List.mem_singleton.mp h, List.intercalate_singleton]
    | cons t' texts =>
      rw [List.intercalate_cons_cons, List.length_append, List.length_append]
      rcases List.mem_cons.mp h with rfl | h
      · omega
      · have hle := ih h
        omega

theorem dumpsElements_eq_map (o : DumpOptions) (elements : List Json) :
    dumpsElements o elements = elements.map (Json.dumps o) := by
  induction elements with
  | nil => rfl
  | cons e es ih => rw [dumpsElements, ih, List.map_cons]

theorem dumpsMembers_eq_map (o : DumpOptions) (members : List (String × Json)) :
    dumpsMembers o members = members.map fun m => (m.1, m.2.dumps o) := by
  induction members with
  | nil => rfl
  | cons m ms ih =>
    obtain ⟨k, v⟩ := m
    rw [dumpsMembers, ih, List.map_cons]

theorem not_mem_whitespace_of_number {c : Char} (hc : isNumberChar c = true) :
    c ∉ whitespace := by
  intro h
  have hnone : whitespace.any isNumberChar = false := by decide
  exact List.any_eq_false.mp hnone c h hc

/-- The first character of a number tells it from every other value. -/
theorem readValue_number {token tail : List Char} {doc : Json} (htoken : token.all isNumberChar)
    (hdoc : numeral token = some doc) (hends : Ends tail) {n : ℕ} {ws : List Char}
    (hws : White ws) : readValue (n + 1) (ws ++ (token ++ tail)) = some (doc, tail) := by
  obtain ⟨c, rest, rfl, hc⟩ := numeral_head htoken hdoc
  have hother : ∀ d, isNumberChar d = false → c ≠ d := by
    rintro d hd rfl
    rw [hc] at hd
    cases hd
  have hliteral : literals.find? (fun l => l.1.isPrefixOf (c :: rest ++ tail)) = none := by
    simp [literals, List.isPrefixOf, Ne.symm (hother 'n' (by decide)),
      Ne.symm (hother 't' (by decide)), Ne.symm (hother 'f' (by decide))]
  have hread := readNumber_token htoken hdoc hends
  rw [List.cons_append] at hread hliteral ⊢
  rw [readValue, skip_white hws, skip_cons (not_mem_whitespace_of_number hc)]
  simp only [if_neg (hother '"' (by decide)), if_neg (hother '[' (by decide)),
    if_neg (hother '\x7b' (by decide)), readScalar, hliteral, hread]

/-- Every document starts with a character that closes nothing. -/
theorem dumps_starts {o : DumpOptions} {doc : Json} (hdoc : WellFormed doc) :
    Starts ']' (doc.dumps o) := by
  have hnumber : ∀ {token : List Char} {doc : Json}, token.all isNumberChar →
      numeral token = some doc → Starts ']' token := by
    intro token doc htoken hnumeral
    obtain ⟨c, rest, rfl, hc⟩ := numeral_head htoken hnumeral
    refine ⟨c, rest, rfl, not_mem_whitespace_of_number hc, ?_⟩
    rintro rfl
    cases hc
  cases hdoc with
  | null => exact ⟨'n', _, rfl, by decide, by decide⟩
  | bool b =>
    cases b with
    | true => exact ⟨'t', _, rfl, by decide, by decide⟩
    | false => exact ⟨'f', _, rfl, by decide, by decide⟩
  | int n => exact hnumber (numeral_int n).1 (numeral_int n).2
  | float text htext =>
    have hall := htext
    rw [isFloat, Bool.and_eq_true, Bool.and_eq_true] at hall
    exact hnumber hall.1.1 (numeral_float htext)
  | str s => exact ⟨'"', _, rfl, by decide, by decide⟩
  | arr elements _ => exact ⟨'[', _, rfl, by decide, by decide⟩
  | obj members _ _ => exact ⟨'\x7b', _, rfl, by decide, by decide⟩

theorem readValue_literal {text tail : List Char} {doc : Json} (h : (text, doc) ∈ literals) {n : ℕ}
    {ws : List Char} (hws : White ws) :
    readValue (n + 1) (ws ++ (text ++ tail)) = some (doc, tail) := by
  rw [readValue, skip_white hws]
  simp only [literals, List.mem_cons, Prod.mk.injEq, List.not_mem_nil, or_false] at h
  rcases h with ⟨rfl, rfl⟩ | ⟨rfl, rfl⟩ | ⟨rfl, rfl⟩ <;> rfl

theorem readValue_quote {o : DumpOptions} (s : String) (tail : List Char) {n : ℕ} {ws : List Char}
    (hws : White ws) : readValue (n + 1) (ws ++ (quote o s ++ tail)) = some (.str s, tail) := by
  have hquote : quote o s ++ tail = '"' :: (s.toList.flatMap (escape o.ensureAscii) ++
      '"' :: tail) := by
    rw [quote, List.cons_append, List.append_assoc, List.singleton_append]
  rw [hquote, readValue, skip_white hws, skip_cons (by decide)]
  simp only [if_true, readString_escape, Option.map_some]

/-- A member is read if its value is. -/
theorem readMember_reads {o : DumpOptions} (ho : o.Readable)
    {value : List Char → Option (Json × List Char)} {k : String} {v : Json} {text : List Char}
    (h : Reads value v text) :
    Reads (readMember value) (k, v) (quote o k ++ o.keySeparator.toList ++ text) := by
  intro ws hws tail htail
  obtain ⟨before, after, hsep, hbefore, hafter⟩ := ho.key
  have htext : quote o k ++ o.keySeparator.toList ++ text ++ tail =
      '"' :: (k.toList.flatMap (escape o.ensureAscii) ++
        '"' :: (before ++ ':' :: (after ++ (text ++ tail)))) := by
    rw [quote, hsep]
    simp only [List.append_assoc, List.cons_append, List.nil_append]
  rw [htext, readMember, skip_white hws, skip_cons (by decide)]
  have hcolon : ':' ∉ whitespace := by decide
  simp only [if_true, readString_escape, skip_white hbefore, skip_cons hcolon,
    h after hafter tail htail, Option.map_some]

/-- What was dumped in the order of its members is read back. -/
theorem readValue_dumps {o : DumpOptions} (ho : o.Readable) (hsort : o.sortKeys = false)
    {doc : Json} (hdoc : WellFormed doc) :
    ∀ n, (doc.dumps o).length ≤ n → Reads (readValue n) doc (doc.dumps o) := by
  obtain ⟨before, after, hsep, hbefore, hafter⟩ := ho.item
  have hpositive : ∀ {text : List Char} {n : ℕ}, Starts ']' text → text.length ≤ n →
      ∃ m, n = m + 1 := by
    rintro text n ⟨c, rest, rfl, -⟩ hn
    exact Nat.exists_eq_succ_of_ne_zero (Nat.ne_of_gt (Nat.zero_lt_of_lt hn))
  induction hdoc with
  | null =>
    intro n hn ws hws tail _
    obtain ⟨n, rfl⟩ := hpositive (dumps_starts (o := o) .null) hn
    exact readValue_literal (by simp [literals, Json.dumps]) hws
  | bool b =>
    intro n hn ws hws tail _
    obtain ⟨n, rfl⟩ := hpositive (dumps_starts (o := o) (.bool b)) hn
    refine readValue_literal ?_ hws
    cases b with
    | true => simp [literals, Json.dumps]
    | false => simp [literals, Json.dumps]
  | int k =>
    intro n hn ws hws tail htail
    obtain ⟨n, rfl⟩ := hpositive (dumps_starts (o := o) (.int k)) hn
    exact readValue_number (numeral_int k).1 (numeral_int k).2 htail hws
  | float text htext =>
    intro n hn ws hws tail htail
    obtain ⟨n, rfl⟩ := hpositive (dumps_starts (o := o) (.float text htext)) hn
    have hall := htext
    rw [isFloat, Bool.and_eq_true, Bool.and_eq_true] at hall
    have hread := readValue_number hall.1.1 (numeral_float htext) htail hws (n := n)
    rwa [String.ofList_toList] at hread
  | str s =>
    intro n hn ws hws tail _
    obtain ⟨n, rfl⟩ := hpositive (dumps_starts (o := o) (.str s)) hn
    exact readValue_quote s tail hws
  | arr elements h ih =>
    intro n hn ws hws tail _
    obtain ⟨n, rfl⟩ := hpositive (dumps_starts (o := o) (.arr elements h)) hn
    have htexts : List.Forall₂ (Reads (readValue n)) elements (dumpsElements o elements) := by
      rw [dumpsElements_eq_map, List.forall₂_map_right_iff, List.forall₂_same]
      intro e he
      refine ih e he n ?_
      have hle : (e.dumps o).length ≤
          (o.itemSeparator.toList.intercalate (dumpsElements o elements)).length := by
        refine length_le_of_mem_intercalate _ ?_
        rw [dumpsElements_eq_map]
        exact List.mem_map_of_mem he
      rw [Json.dumps, List.length_cons, List.length_append, List.length_singleton] at hn
      omega
    have hstarts : ∀ text ∈ dumpsElements o elements, Starts ']' text := by
      rw [dumpsElements_eq_map]
      intro text htext
      obtain ⟨e, he, rfl⟩ := List.mem_map.mp htext
      exact dumps_starts (h e he)
    have hread := readClosed_intercalate (by decide) (by decide) (by decide) hsep hbefore hafter
      htexts hstarts tail
    rw [Json.dumps, List.cons_append, List.append_assoc, List.singleton_append, readValue,
      skip_white hws, skip_cons (by decide)]
    simp only [if_neg (show '[' ≠ '"' by decide), if_true, hread, Option.map_some]
  | obj members hkeys h ih =>
    intro n hn ws hws tail _
    obtain ⟨n, rfl⟩ := hpositive (dumps_starts (o := o) (.obj members hkeys h)) hn
    rw [Json.dumps, orderMembers, hsort, if_neg (by decide), dumpsMembers_eq_map,
      List.map_map] at hn ⊢
    have htexts : List.Forall₂ (Reads (readMember (readValue n))) members
        (members.map ((fun m => quote o m.1 ++ o.keySeparator.toList ++ m.2) ∘
          fun m => (m.1, m.2.dumps o))) := by
      rw [List.forall₂_map_right_iff, List.forall₂_same]
      intro m hm
      refine readMember_reads ho (ih m hm n ?_)
      have hle := length_le_of_mem_intercalate o.itemSeparator.toList
        (List.mem_map_of_mem (f := (fun m => quote o m.1 ++ o.keySeparator.toList ++ m.2) ∘
          fun m => (m.1, m.2.dumps o)) hm)
      rw [List.length_cons, List.length_append, List.length_singleton] at hn
      simp only [Function.comp_apply, List.length_append] at hle
      omega
    have hstarts : ∀ text ∈ members.map ((fun m => quote o m.1 ++ o.keySeparator.toList ++ m.2) ∘
        fun m => (m.1, m.2.dumps o)), Starts '\x7d' text := by
      intro text htext
      obtain ⟨m, hm, rfl⟩ := List.mem_map.mp htext
      exact ⟨'"', _, rfl, by decide, by decide⟩
    have hread := readClosed_intercalate (by decide) (by decide) (by decide) hsep hbefore hafter
      htexts hstarts tail
    rw [List.cons_append, List.append_assoc, List.singleton_append, readValue,
      skip_white hws, skip_cons (by decide)]
    simp only [if_neg (show '\x7b' ≠ '"' by decide), if_neg (show '\x7b' ≠ '[' by decide), if_true,
      hread, Option.map_some]

/-- A text that was dumped is one document. -/
theorem read_dumps {o : DumpOptions} (ho : o.Readable) (hsort : o.sortKeys = false) {doc : Json}
    (hdoc : WellFormed doc) : read (doc.dumps o) = some doc := by
  have hends : Ends [] := fun _ h => by cases h
  have hread := readValue_dumps ho hsort hdoc _ (le_refl _) [] white_nil [] hends
  rw [List.append_nil, List.nil_append] at hread
  rw [read, hread]
  rfl

end Kepryx.JsonText
