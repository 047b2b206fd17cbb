import Kepryx.CsvReader

/-!
# Writing comma-separated texts

A field gets quotes only where it needs them, a record ends with a carriage return and a line
feed, and a record of one empty field is written with quotes. The reader gives back every list
of records, line ends inside of fields included.
-/
namespace Kepryx.CsvReader
open Kepryx.Results

/-! ## The writer -/

/-- The characters that put quotes around a field. -/
def special (c : Char) : Bool := c = ',' || c = '"' || c = '\n' || c = '\r'

/-- A field as the dialect `excel` writes it. -/
def writeField (s : String) : List Char := if s.toList.any special then quoted s else s.toList

def writeFields : List String → List Char
  | [] => ['\r', '\n']
  | [s] => writeField s ++ ['\r', '\n']
  | s :: t :: fields => writeField s ++ ',' :: writeFields (t :: fields)

/-- `writerow` -/
def writeRow (fields : List String) : List Char :=
  if fields = [""] then quoted "" ++ ['\r', '\n'] else writeFields fields

/-! ## Reading what was written -/

theorem writeFields_ne_nil (fields : List String) : writeFields fields ≠ [] := by
  match fields with
  | [] => exact List.cons_ne_nil _ _
  | [s] => simp [writeFields]
  | s :: t :: fields => simp [writeFields]

/-- The end of a record. -/
theorem read_lineEnd {p : Parse} {fields : List String} {cs : List Char}
    (hstep : processChar p '\r' = .ok ⟨.eatCrnl, [], fields⟩) :
    readRecords (lines ('\r' :: '\n' :: cs)) p =
      (readRecords (lines cs) {}).map fun records => fields :: records := by
  have hinside : ¬ ('\r' = '\n' ∨ ('\r' = '\r' ∧ ('\n' :: cs).head? ≠ some '\n')) := by simp
  rw [read_cons hinside (List.cons_ne_nil _ _), hstep, ok_bind, read_newline (.inl rfl)]
  rfl

/-- A plain character of a field. -/
theorem read_inField {c : Char} {cs field : List Char} {fields : List String}
    (hc : special c = false) (hlen : field.length < fieldSizeLimit) (hcs : cs ≠ []) :
    readRecords (lines (c :: cs)) ⟨.inField, field, fields⟩ =
      readRecords (lines cs) ⟨.inField, field ++ [c], fields⟩ := by
  simp only [special, Bool.or_eq_false_iff, decide_eq_false_iff_not] at hc
  obtain ⟨⟨⟨hcomma, hquote⟩, hfeed⟩, hreturn⟩ := hc
  have hnewline : isNewline c = false := by simp [isNewline, hfeed, hreturn]
  refine read_plain hnewline hcs ?_
  simp [processChar, hnewline, hcomma, Parse.addChar, Nat.not_le.mpr hlen]

theorem read_plainField {s cs field : List Char} {fields : List String}
    (hs : s.any special = false) (hlen : field.length + s.length ≤ fieldSizeLimit) (hcs : cs ≠ []) :
    readRecords (lines (s ++ cs)) ⟨.inField, field, fields⟩ =
      readRecords (lines cs) ⟨.inField, field ++ s, fields⟩ := by
  induction s generalizing field with
  | nil => simp
  | cons c s ih =>
    rw [List.any_cons, Bool.or_eq_false_iff] at hs
    rw [List.length_cons] at hlen
    have hroom : (field ++ [c]).length + s.length ≤ fieldSizeLimit := by
      rw [List.length_append, List.length_singleton]
      omega
    rw [List.cons_append, read_inField hs.1 (by omega) (by simp [hcs]), ih hs.2 hroom]
    simp

/-- The first character of a field without quotes. -/
theorem read_firstChar {c : Char} {cs : List Char} {state : State} {fields : List String}
    (hstate : state = .startRecord ∨ state = .startField) (hc : special c = false) (hcs : cs ≠ []) :
    readRecords (lines (c :: cs)) ⟨state, [], fields⟩ =
      readRecords (lines cs) ⟨.inField, [c], fields⟩ := by
  simp only [special, Bool.or_eq_false_iff, decide_eq_false_iff_not] at hc
  obtain ⟨⟨⟨hcomma, hquote⟩, hfeed⟩, hreturn⟩ := hc
  have hnewline : isNewline c = false := by simp [isNewline, hfeed, hreturn]
  refine read_plain hnewline hcs ?_
  have hroom : ¬ fieldSizeLimit ≤ 0 := by decide
  rcases hstate with rfl | rfl <;>
    simp [processChar, startField, hnewline, hcomma, hquote, Parse.addChar, hroom]

/-- The reader has read a field and takes it over at the next comma. It takes it over at the end
of the record too, unless the record is but an empty field. -/
structure FieldRead (s : String) (fields : List String) (p : Parse) : Prop where
  comma : processChar p ',' = .ok ⟨.startField, [], fields ++ [s]⟩
  lineEnd : s ≠ "" ∨ p.state ≠ .startRecord →
    processChar p '\r' = .ok ⟨.eatCrnl, [], fields ++ [s]⟩

/-- A written field is read. -/
theorem read_writeField {s : String} {state : State} {cs : List Char} (fields : List String)
    (hstate : state = .startRecord ∨ state = .startField) (hlen : s.length ≤ fieldSizeLimit)
    (hcs : cs ≠ []) : ∃ p, FieldRead s fields p ∧ (p.state = .startRecord → state = .startRecord) ∧
      readRecords (lines (writeField s ++ cs)) ⟨state, [], fields⟩ = readRecords (lines cs) p := by
  unfold writeField
  split
  · refine ⟨⟨.quoteInQuotedField, s.toList, fields⟩, ?_, by simp, read_quotedField hstate hlen hcs⟩
    constructor <;> simp [processChar, Parse.saveField, isNewline]
  · rename_i hplain
    rw [Bool.not_eq_true] at hplain
    cases hs : s.toList with
    | nil =>
      obtain rfl : s = "" := String.toList_eq_nil_iff.mp hs
      refine ⟨⟨state, [], fields⟩, ?_, id, rfl⟩
      rcases hstate with rfl | rfl
      · constructor
        · simp [processChar, startField, isNewline, Parse.saveField]
        · simp
      · constructor <;> simp [processChar, startField, isNewline, Parse.saveField]
    | cons c rest =>
      rw [hs, List.any_cons, Bool.or_eq_false_iff] at hplain
      have hlength : [c].length + rest.length ≤ fieldSizeLimit := by
        rw [← String.length_toList, hs, List.length_cons] at hlen
        rw [List.length_singleton]
        omega
      refine ⟨⟨.inField, s.toList, fields⟩, ?_, by simp, ?_⟩
      · constructor <;> simp [processChar, isNewline, Parse.saveField]
      · rw [List.cons_append, read_firstChar hstate hplain.1 (by simp [hcs]),
          read_plainField hplain.2 hlength hcs, hs]
        rfl

/-- A written record is read, and then the rest of the text. -/
theorem read_writeFields {record : List String} (hne : record ≠ []) {state : State}
    (hsingle : record ≠ [""] ∨ state = .startField)
    (hlen : ∀ s ∈ record, s.length ≤ fieldSizeLimit)
    (hstate : state = .startRecord ∨ state = .startField) (fields : List String) (cs : List Char) :
    readRecords (lines (writeFields record ++ cs)) ⟨state, [], fields⟩ =
      (readRecords (lines cs) {}).map fun records => (fields ++ record) :: records := by
  induction record generalizing state fields with
  | nil => exact absurd rfl hne
  | cons s record ih =>
    have hs := hlen s List.mem_cons_self
    cases record with
    | nil =>
      have hend : ['\r', '\n'] ++ cs ≠ [] := by simp
      obtain ⟨p, hp, hkept, hread⟩ := read_writeField fields hstate hs hend
      rw [writeFields, List.append_assoc, hread]
      refine read_lineEnd (hp.lineEnd ?_)
      rcases hsingle with hsingle | rfl
      · exact .inl fun h => hsingle (by rw [h])
      · exact .inr fun h => by cases hkept h
    | cons t record =>
      have hrest : ',' :: writeFields (t :: record) ++ cs ≠ [] := by simp
      obtain ⟨p, hp, -, hread⟩ := read_writeField fields hstate hs hrest
      have hnext : writeFields (t :: record) ++ cs ≠ [] := by simp [writeFields_ne_nil]
      rw [writeFields, List.append_assoc, hread, List.cons_append,
        read_plain rfl hnext hp.comma, ih (List.cons_ne_nil _ _) (.inr rfl)
          (fun u hu => hlen u (List.mem_cons_of_mem s hu)) (.inr rfl), List.append_assoc,
        List.singleton_append]

theorem read_writeRow {record : List String} (hlen : ∀ s ∈ record, s.length ≤ fieldSizeLimit)
    (cs : List Char) : readRecords (lines (writeRow record ++ cs)) {} =
      (readRecords (lines cs) {}).map fun records => record :: records := by
  unfold writeRow
  split
  · rename_i hempty
    subst hempty
    rw [List.append_assoc, read_quotedField (.inl rfl) (by decide) (by simp)]
    exact read_lineEnd (by simp [processChar, isNewline, Parse.saveField])
  · rename_i hsingle
    cases record with
    | nil => exact read_lineEnd rfl
    | cons s record =>
      exact read_writeFields (List.cons_ne_nil _ _) (.inl hsingle) hlen (.inl rfl) [] cs

/-- The reader gives back the records that were written. -/
theorem read_writeRows {records : List (List String)}
    (hlen : ∀ r ∈ records, ∀ s ∈ r, s.length ≤ fieldSizeLimit) :
    readRecords (lines (records.flatMap writeRow)) {} = .ok records := by
  induction records with
  | nil => rfl
  | cons r records ih =>
    rw [List.flatMap_cons, read_writeRow (hlen r List.mem_cons_self),
      ih fun t ht => hlen t (List.mem_cons_of_mem r ht)]
    rfl

end Kepryx.CsvReader
