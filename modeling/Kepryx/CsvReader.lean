import Mathlib.Data.List.Basic
import Kepryx.Results

/-!
# Reading comma-separated texts

The reader takes a text line by line and each line character by character. A quoted field may go
on over line ends, everything else ends with its line. The first record names the fields, and
records without a field are passed over.
-/
namespace Kepryx.CsvReader
open Kepryx.Results

/-! ## The reader -/

inductive State where
  | startRecord | startField | inField | inQuotedField | quoteInQuotedField | eatCrnl
  deriving DecidableEq, Repr

/-- The state of the reader: the field and the record that it has read so far. -/
structure Parse where
  state : State := .startRecord
  field : List Char := []
  fields : List String := []
  deriving DecidableEq, Repr

inductive CsvError where
  | fieldTooLarge | newlineInUnquotedField
  deriving DecidableEq, Repr

/-- `csv.field_size_limit()` -/
def fieldSizeLimit : ℕ := 131072

/-- `parse_add_char` -/
def Parse.addChar (p : Parse) (c : Char) : Except CsvError Parse :=
  if fieldSizeLimit ≤ p.field.length then .error .fieldTooLarge
  else .ok { p with field := p.field ++ [c] }

/-- `parse_save_field`, and the next state. -/
def Parse.saveField (p : Parse) (state : State) : Parse where
  state := state
  field := []
  fields := p.fields ++ [String.ofList p.field]

def isNewline (c : Char) : Bool := c = '\n' || c = '\r'

def startField (p : Parse) (c : Char) : Except CsvError Parse :=
  if isNewline c then .ok (p.saveField .eatCrnl)
  else if c = '"' then .ok { p with state := .inQuotedField }
  else if c = ',' then .ok (p.saveField .startField)
  else { p with state := .inField }.addChar c

/-- `parse_process_char` -/
def processChar (p : Parse) (c : Char) : Except CsvError Parse :=
  match p.state with
  | .startRecord => if isNewline c then .ok { p with state := .eatCrnl } else startField p c
  | .startField => startField p c
  | .inField =>
    if isNewline c then .ok (p.saveField .eatCrnl)
    else if c = ',' then .ok (p.saveField .startField)
    else p.addChar c
  | .inQuotedField =>
    if c = '"' then .ok { p with state := .quoteInQuotedField } else p.addChar c
  | .quoteInQuotedField =>
    if c = '"' then { p with state := .inQuotedField }.addChar c
    else if c = ',' then .ok (p.saveField .startField)
    else if isNewline c then .ok (p.saveField .eatCrnl)
    else { p with state := .inField }.addChar c
  | .eatCrnl => if isNewline c then .ok p else .error .newlineInUnquotedField

/-- `parse_process_char` at the end of a line. -/
def endLine (p : Parse) : Parse :=
  match p.state with
  | .startRecord | .inQuotedField => p
  | .startField | .inField | .quoteInQuotedField => p.saveField .startRecord
  | .eatCrnl => { p with state := .startRecord }

/-- The lines of a text, each with its end. -/
def lines : List Char → List (List Char)
  | [] => []
  | c :: cs =>
    if c = '\n' ∨ (c = '\r' ∧ cs.head? ≠ some '\n') then [c] :: lines cs
    else match lines cs with
      | [] => [[c]]
      | line :: rest => (c :: line) :: rest

/-- The records of the lines. A quoted field that the text does not close ends with it. -/
def readRecords : List (List Char) → Parse → Except CsvError (List (List String))
  | [], p =>
    if p.field ≠ [] ∨ p.state = .inQuotedField then .ok [(p.saveField .startRecord).fields]
    else .ok []
  | line :: rest, p => do
    let p ← line.foldlM processChar p
    if (endLine p).state = .startRecord then do
      let records ← readRecords rest {}
      return (endLine p).fields :: records
    else readRecords rest (endLine p)

/-- The header and the records of a `DictReader`; an empty text has no header. -/
def dictReader (text : List Char) : Except CsvError (List String × List (List String)) := do
  match ← readRecords (lines text) {} with
  | [] => return ([], [])
  | header :: records => return (header, records.filter (· ≠ []))

/-! ## Reading what was written -/

/-- A field with quotes around it, and every quote in it twice. -/
def quoted (s : String) : List Char :=
  '"' :: (s.toList.flatMap fun c => if c = '"' then ['"', '"'] else [c]) ++ ['"']

/-- A record as one line. -/
def written : List String → List Char
  | [] => ['\n']
  | [s] => quoted s ++ ['\n']
  | s :: t :: fields => quoted s ++ ',' :: written (t :: fields)

theorem lines_ne_nil {cs : List Char} (h : cs ≠ []) : lines cs ≠ [] := by
  cases cs with
  | nil => exact absurd rfl h
  | cons c cs =>
    rw [lines]
    split
    · exact List.cons_ne_nil _ _
    · split
      · exact List.cons_ne_nil _ _
      · exact List.cons_ne_nil _ _

/-- A character that does not end its line. -/
theorem read_cons {c : Char} {cs : List Char} (h : ¬ (c = '\n' ∨ (c = '\r' ∧ cs.head? ≠ some '\n')))
    (hcs : cs ≠ []) (p : Parse) : readRecords (lines (c :: cs)) p =
      processChar p c >>= fun p => readRecords (lines cs) p := by
  rw [lines, if_neg h]
  cases hlines : lines cs with
  | nil => exact absurd hlines (lines_ne_nil hcs)
  | cons line rest =>
    rw [readRecords, List.foldlM_cons]
    cases processChar p c with
    | error e => rfl
    | ok p => rfl

/-- What follows a line that ends in the state `p`. -/
def afterLine (p : Parse) (cs : List Char) : Except CsvError (List (List String)) :=
  if (endLine p).state = .startRecord then
    (readRecords (lines cs) {}).map fun records => (endLine p).fields :: records
  else readRecords (lines cs) (endLine p)

/-- A character that ends its line. -/
theorem read_newline {c : Char} {cs : List Char} (h : c = '\n' ∨ (c = '\r' ∧ cs.head? ≠ some '\n'))
    (p : Parse) : readRecords (lines (c :: cs)) p =
      processChar p c >>= fun p => afterLine p cs := by
  rw [lines, if_pos h, readRecords, List.foldlM_cons]
  cases processChar p c with
  | error e => rfl
  | ok p => cases h : readRecords (lines cs) {} <;> simp [afterLine, h, Except.map]

/-- A character that neither begins nor ends a line outside quotes. -/
theorem read_plain {c : Char} {cs : List Char} {p q : Parse} (hc : isNewline c = false)
    (hcs : cs ≠ []) (hstep : processChar p c = .ok q) :
    readRecords (lines (c :: cs)) p = readRecords (lines cs) q := by
  have hend : ¬ (c = '\n' ∨ (c = '\r' ∧ cs.head? ≠ some '\n')) := by
    rintro (rfl | ⟨rfl, -⟩) <;> cases hc
  rw [read_cons hend hcs, hstep, ok_bind]

/-- Inside quotes every character is kept, a line end like the others. -/
theorem read_quoted {c : Char} {cs field : List Char} {fields : List String} (hc : c ≠ '"')
    (hlen : field.length < fieldSizeLimit) (hcs : cs ≠ []) :
    readRecords (lines (c :: cs)) ⟨.inQuotedField, field, fields⟩ =
      readRecords (lines cs) ⟨.inQuotedField, field ++ [c], fields⟩ := by
  have hstep : processChar ⟨.inQuotedField, field, fields⟩ c =
      .ok ⟨.inQuotedField, field ++ [c], fields⟩ := by
    simp [processChar, hc, Parse.addChar, Nat.not_le.mpr hlen]
  by_cases hend : c = '\n' ∨ (c = '\r' ∧ cs.head? ≠ some '\n')
  · rw [read_newline hend, hstep, ok_bind]
    rfl
  · rw [read_cons hend hcs, hstep, ok_bind]

/-- The inside of a quoted field with its closing quote. -/
theorem read_inside {s field cs : List Char} {fields : List String} (hcs : cs ≠ [])
    (hlen : field.length + s.length ≤ fieldSizeLimit) :
    readRecords (lines ((s.flatMap fun c => if c = '"' then ['"', '"'] else [c]) ++ '"' :: cs))
        ⟨.inQuotedField, field, fields⟩ =
      readRecords (lines cs) ⟨.quoteInQuotedField, field ++ s, fields⟩ := by
  induction s generalizing field with
  | nil =>
    rw [List.append_nil]
    exact read_plain rfl hcs rfl
  | cons c s ih =>
    rw [List.length_cons] at hlen
    have hroom : (field ++ [c]).length + s.length ≤ fieldSizeLimit := by
      rw [List.length_append, List.length_singleton]
      omega
    have hnext := ih hroom
    rw [List.append_assoc, List.singleton_append] at hnext
    by_cases hc : c = '"'
    · subst hc
      rw [List.flatMap_cons, if_pos rfl, List.append_assoc, ← hnext]
      have hopen : processChar ⟨.inQuotedField, field, fields⟩ '"' =
          .ok ⟨.quoteInQuotedField, field, fields⟩ := rfl
      have hclose : processChar ⟨.quoteInQuotedField, field, fields⟩ '"' =
          .ok ⟨.inQuotedField, field ++ ['"'], fields⟩ := by
        simp only [processChar, if_true, Parse.addChar]
        rw [if_neg (by omega)]
      exact (read_plain rfl (by simp) hopen).trans (read_plain rfl (by simp) hclose)
    · rw [List.flatMap_cons, if_neg hc, List.singleton_append, List.cons_append,
        read_quoted hc (by omega) (by simp), hnext]

/-- A quoted field at the start of a record or after a comma. -/
theorem read_quotedField {s : String} {state : State} {cs : List Char} {fields : List String}
    (hstate : state = .startRecord ∨ state = .startField) (hlen : s.length ≤ fieldSizeLimit)
    (hcs : cs ≠ []) : readRecords (lines (quoted s ++ cs)) ⟨state, [], fields⟩ =
      readRecords (lines cs) ⟨.quoteInQuotedField, s.toList, fields⟩ := by
  have hopen : processChar ⟨state, [], fields⟩ '"' = .ok ⟨.inQuotedField, [], fields⟩ := by
    rcases hstate with rfl | rfl <;> rfl
  have hinside := @read_inside s.toList [] cs fields hcs
    (by rwa [List.length_nil, Nat.zero_add, String.length_toList])
  rw [List.nil_append] at hinside
  rw [quoted, List.append_assoc, List.cons_append, List.singleton_append,
    read_plain rfl (by simp) hopen, hinside]

/-- A written record is read, and then the rest of the text. -/
theorem read_written {record : List String} (hne : record ≠ [])
    (hlen : ∀ s ∈ record, s.length ≤ fieldSizeLimit) {state : State}
    (hstate : state = .startRecord ∨ state = .startField) (fields : List String) (cs : List Char) :
    readRecords (lines (written record ++ cs)) ⟨state, [], fields⟩ =
      (readRecords (lines cs) {}).map fun records => (fields ++ record) :: records := by
  induction record generalizing state fields with
  | nil => exact absurd rfl hne
  | cons s record ih =>
    have hs := hlen s List.mem_cons_self
    cases record with
    | nil =>
      rw [written, List.append_assoc, List.singleton_append,
        read_quotedField hstate hs (List.cons_ne_nil _ _), read_newline (.inl rfl)]
      have hstep : processChar ⟨.quoteInQuotedField, s.toList, fields⟩ '\n' =
          .ok ⟨.eatCrnl, [], fields ++ [s]⟩ := by
        simp [processChar, isNewline, Parse.saveField]
      rw [hstep, ok_bind]
      rfl
    | cons t record =>
      rw [written, List.append_assoc, List.cons_append,
        read_quotedField hstate hs (List.cons_ne_nil _ _)]
      have hstep : processChar ⟨.quoteInQuotedField, s.toList, fields⟩ ',' =
          .ok ⟨.startField, [], fields ++ [s]⟩ := by
        simp [processChar, Parse.saveField]
      have hcs : written (t :: record) ++ cs ≠ [] := by
        cases record <;> simp [written, quoted]
      rw [read_plain rfl hcs hstep, ih (List.cons_ne_nil _ _)
        (fun u hu => hlen u (List.mem_cons_of_mem s hu)) (.inr rfl), List.append_assoc,
        List.singleton_append]

/-- Every header and every list of records is what a reader makes of some text. -/
theorem dictReader_written {header : List String} {records : List (List String)}
    (hne : ∀ r ∈ header :: records, r ≠ [])
    (hlen : ∀ r ∈ header :: records, ∀ s ∈ r, s.length ≤ fieldSizeLimit) :
    dictReader ((header :: records).flatMap written) = .ok (header, records) := by
  have hread : ∀ rs : List (List String), (∀ r ∈ rs, r ≠ []) →
      (∀ r ∈ rs, ∀ s ∈ r, s.length ≤ fieldSizeLimit) →
      readRecords (lines (rs.flatMap written)) {} = .ok rs := by
    intro rs hrs hshort
    induction rs with
    | nil => rfl
    | cons r rs ih =>
      rw [List.flatMap_cons, read_written (hrs r List.mem_cons_self)
        (hshort r List.mem_cons_self) (.inl rfl), ih
        (fun t ht => hrs t (List.mem_cons_of_mem r ht))
        (fun t ht => hshort t (List.mem_cons_of_mem r ht))]
      rfl
  have hkept : records.filter (· ≠ []) = records :=
    List.filter_eq_self.mpr fun r hr => decide_eq_true (hne r (List.mem_cons_of_mem header hr))
  rw [dictReader, hread _ hne hlen, ok_bind]
  exact congrArg (fun rs => Except.ok (header, rs)) hkept

end Kepryx.CsvReader
