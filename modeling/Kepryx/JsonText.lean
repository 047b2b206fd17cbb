import Mathlib.Data.List.Sort

/-!
# JSON documents and their text

A serialiser writes a document as text under options: whether the members of an object are
sorted by key, whether characters outside ASCII are escaped, and which separators stand
between elements and after keys. Texts are lists of characters.
-/
namespace Kepryx.JsonText

/-- A JSON document. A number that is no integer is given by its text. -/
inductive Json where
  | null
  | bool (b : Bool)
  | int (n : ℤ)
  | float (text : String)
  | str (s : String)
  | arr (elements : List Json)
  | obj (members : List (String × Json))

structure DumpOptions where
  itemSeparator : String
  keySeparator : String
  sortKeys : Bool
  ensureAscii : Bool
  deriving DecidableEq, Repr

/-- `\u` and four hexadecimal digits. -/
def unicodeEscape (n : ℕ) : List Char :=
  ['\\', 'u', (n / 4096 % 16).digitChar, (n / 256 % 16).digitChar, (n / 16 % 16).digitChar,
    (n % 16).digitChar]

/-- A character beyond the basic plane is escaped as its surrogate pair. -/
def escapeNonAscii (c : Char) : List Char :=
  if c.toNat < 65536 then unicodeEscape c.toNat
  else
    unicodeEscape (55296 + (c.toNat - 65536) / 1024) ++
      unicodeEscape (56320 + (c.toNat - 65536) % 1024)

/-- What stands for a character between the quotes of a string. -/
def escape (ensureAscii : Bool) (c : Char) : List Char :=
  if c = '"' then ['\\', '"']
  else if c = '\\' then ['\\', '\\']
  else if c = '\n' then ['\\', 'n']
  else if c = '\r' then ['\\', 'r']
  else if c = '\t' then ['\\', 't']
  else if c.toNat = 8 then ['\\', 'b']
  else if c.toNat = 12 then ['\\', 'f']
  else if c.toNat < 32 then unicodeEscape c.toNat
  else if ensureAscii && 126 < c.toNat then escapeNonAscii c
  else [c]

def quote (o : DumpOptions) (s : String) : List Char :=
  '"' :: (s.toList.flatMap (escape o.ensureAscii) ++ ['"'])

/-- The order in which the members of an object are written. -/
def orderMembers {α : Type*} (o : DumpOptions) (members : List (String × α)) :
    List (String × α) :=
  if o.sortKeys then members.insertionSort fun a b => a.1 ≤ b.1 else members

mutual

/-- `json.dumps` -/
def Json.dumps (o : DumpOptions) : Json → List Char
  | .null => "null".toList
  | .bool b => (if b then "true" else "false").toList
  | .int n => (toString n).toList
  | .float text => text.toList
  | .str s => quote o s
  | .arr elements =>
    '[' :: (o.itemSeparator.toList.intercalate (dumpsElements o elements) ++ [']'])
  | .obj members =>
    '{' :: (o.itemSeparator.toList.intercalate
      ((orderMembers o (dumpsMembers o members)).map fun m =>
        quote o m.1 ++ o.keySeparator.toList ++ m.2) ++ ['}'])

def dumpsElements (o : DumpOptions) : List Json → List (List Char)
  | [] => []
  | e :: es => e.dumps o :: dumpsElements o es

def dumpsMembers (o : DumpOptions) : List (String × Json) → List (String × List Char)
  | [] => []
  | (k, v) :: ms => (k, v.dumps o) :: dumpsMembers o ms

end

theorem intercalate_cons_head {α : Type*} (sep x : List α) (xs : List (List α)) :
    ∃ tail, sep.intercalate (x :: xs) = x ++ tail := by
  cases xs with
  | nil => exact ⟨[], by simp [List.intercalate]⟩
  | cons y ys => exact ⟨sep ++ sep.intercalate (y :: ys), by simp [List.intercalate]⟩

/-- The text of an object starts with its first key in the order written. -/
theorem dumps_obj_head (o : DumpOptions) {members : List (String × Json)} {k : String}
    {text : List Char} {rest : List (String × List Char)}
    (hfirst : orderMembers o (dumpsMembers o members) = (k, text) :: rest) :
    ∃ tail, (Json.obj members).dumps o = '{' :: (quote o k ++ tail) := by
  rw [Json.dumps, hfirst, List.map_cons]
  obtain ⟨tail, htail⟩ := intercalate_cons_head o.itemSeparator.toList
    (quote o k ++ o.keySeparator.toList ++ text)
    (rest.map fun m => quote o m.1 ++ o.keySeparator.toList ++ m.2)
  rw [htail]
  exact ⟨o.keySeparator.toList ++ text ++ tail ++ ['}'], by simp only [List.append_assoc]⟩

/-- The texts of two strings written side by side differ when their first characters do. -/
theorem quote_ne_of_head {o o' : DumpOptions} {s s' : String} {c c' : Char} {cs cs' : List Char}
    (hs : s.toList.flatMap (escape o.ensureAscii) = c :: cs)
    (hs' : s'.toList.flatMap (escape o'.ensureAscii) = c' :: cs') (hne : c ≠ c')
    (tail tail' : List Char) : quote o s ++ tail ≠ quote o' s' ++ tail' := by
  rw [quote, quote, hs, hs']
  intro h
  simp only [List.cons_append, List.cons.injEq, true_and] at h
  exact hne h.1

end Kepryx.JsonText
