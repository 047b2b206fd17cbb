import Kepryx.PiiFields

/-!
# The redaction of log records

`PIIRedactingFilter` goes through the template of a record and through each of its arguments,
and the message is put together afterwards. The template is read as the `%` operator reads it;
the conversion of an argument is a parameter, as far as it is not a plain text.
-/
namespace Kepryx.LogFilter

open Kepryx.Redaction Kepryx.SecretPatterns Kepryx.PiiFields

/-! ## Records -/

/-- The key of a dictionary. -/
inductive Key (ω : Type) where
  | name (text : String)
  | object (o : ω)

/-- An argument. Objects that are no texts, lists or dictionaries are not looked into. -/
inductive Value (ω : Type) where
  | text (s : String)
  | list (items : List (Value ω))
  | dict (fields : List (Key ω × Value ω))
  | object (o : ω)

/-- `record.args`: a tuple, a dictionary, or a mapping of another type with its items. -/
inductive Args (ω : Type) where
  | tuple (values : List (Value ω))
  | dict (fields : List (Key ω × Value ω))
  | mapping (o : ω) (fields : List (Key ω × Value ω))

structure Record (ω : Type) where
  msg : String
  args : Args ω

/-- A place in the template where an argument is put in: its key, what stands before the type,
and the type. -/
structure Spec where
  key : Option String
  options : List Char
  type : Char
  deriving DecidableEq, Repr

/-- The digest, whether an object has a method `lower`, and the conversion of an argument with the
arguments for its stars. -/
structure Runtime (ω : Type) where
  sha256 : String → String
  hasLower : ω → Bool
  convert : Spec → List (Value ω) → Value ω → Option (List Char)

variable {ω : Type} (R : Runtime ω)

/-! ## The filter -/

mutual
/-- `redact_pii`, where a key without `lower` ends in an exception. -/
def redactValue : Value ω → Option (Value ω)
  | .text s => some (.text (redactString (primitives R.sha256) s))
  | .list items => (redactItems items).map .list
  | .dict fields => (redactFields fields).map .dict
  | .object o => some (.object o)

def redactItems : List (Value ω) → Option (List (Value ω))
  | [] => some []
  | item :: items => do
    let item ← redactValue item
    let items ← redactItems items
    some (item :: items)

/-- The fields of a dictionary, each by `_redact_field`. -/
def redactFields : List (Key ω × Value ω) → Option (List (Key ω × Value ω))
  | [] => some []
  | (.name name, .text s) :: fields => do
    let fields ← redactFields fields
    some ((.name name, .text (redactText R.sha256 name s)) :: fields)
  | (.name name, value) :: fields => do
    let value ← if lower name ∈ replacedNames then some (.text "***REDACTED***")
      else redactValue value
    let fields ← redactFields fields
    some ((.name name, value) :: fields)
  | (.object o, value) :: fields => do
    let value ← if R.hasLower o then redactValue value else none
    let fields ← redactFields fields
    some ((.object o, value) :: fields)
end

def Args.isEmpty : Args ω → Bool
  | .tuple values => values.isEmpty
  | .dict fields => fields.isEmpty
  | .mapping _ fields => fields.isEmpty

/-- What the filter does with an element of a tuple. -/
def redactArgument : Value ω → Value ω
  | .text s => .text (redactString (primitives R.sha256) s)
  | value => value

/-- `PIIRedactingFilter.filter` -/
def filter (record : Record ω) : Record ω :=
  let msg := redactString (primitives R.sha256) record.msg
  if record.args.isEmpty then ⟨msg, record.args⟩
  else match record.args with
  | .dict fields =>
    match redactFields R fields with
    | some fields => ⟨msg, .dict fields⟩
    | none => ⟨"[log redaction failed]", .tuple []⟩
  | .tuple values => ⟨msg, .tuple (values.map (redactArgument R))⟩
  | .mapping o fields => ⟨msg, .mapping o fields⟩

/-! ## Documents as arguments -/

mutual
/-- A JSON document as an argument. -/
def ofJson : Json → Value Json
  | .str s => .text s
  | .arr items => .list (ofItems items)
  | .obj fields => .dict (ofFields fields)
  | .null => .object .null
  | .bool b => .object (.bool b)
  | .num n => .object (.num n)

def ofItems : List Json → List (Value Json)
  | [] => []
  | item :: items => ofJson item :: ofItems items

def ofFields : List (String × Json) → List (Key Json × Value Json)
  | [] => []
  | (name, value) :: fields => (.name name, ofJson value) :: ofFields fields
end

theorem ofJson_field (sha256 : String → String) {name : String} {value : Json}
    (h : ∀ s, value ≠ .str s) : (namedField (primitives sha256) name value).getD
      (redactPii (primitives sha256) value) = if lower name ∈ replacedNames then
        .str "***REDACTED***" else redactPii (primitives sha256) value := by
  split_ifs with hname
  · have hnamed : namedField (primitives sha256) name value = some (.str "***REDACTED***") :=
      if_pos hname
    rw [hnamed]
    rfl
  · rw [namedField_of_not_str hname h]
    rfl

theorem redactFields_of_not_text {name : String} {value : Value ω}
    {fields : List (Key ω × Value ω)} (h : ∀ s, value ≠ .text s) :
    redactFields R ((.name name, value) :: fields) =
      (if lower name ∈ replacedNames then some (.text "***REDACTED***")
        else redactValue R value).bind fun value =>
          (redactFields R fields).map fun fields => (.name name, value) :: fields := by
  cases value with
  | text s => exact absurd rfl (h s)
  | list _ | dict _ | object _ =>
    simp only [redactFields, Option.bind_eq_bind]
    split_ifs
    · rw [Option.bind_some, Option.bind_some, Option.map_eq_bind]
      rfl
    · simp only [Option.map_eq_bind]
      rfl

mutual
/-- On documents this is `redact_pii` as it was. -/
theorem redactValue_ofJson (R : Runtime Json) : ∀ document, redactValue R (ofJson document) =
    some (ofJson (redactPii (primitives R.sha256) document))
  | .str s => rfl
  | .arr items => by rw [ofJson, redactValue, redactItems_ofItems R items]; rfl
  | .obj fields => by rw [ofJson, redactValue, redactFields_ofFields R fields]; rfl
  | .null => rfl
  | .bool b => rfl
  | .num n => rfl

theorem redactItems_ofItems (R : Runtime Json) : ∀ items, redactItems R (ofItems items) =
    some (ofItems (Redaction.redactItems (primitives R.sha256) items))
  | [] => rfl
  | item :: items => by
    rw [ofItems, redactItems, redactValue_ofJson R item, redactItems_ofItems R items]
    rfl

theorem redactFields_ofFields (R : Runtime Json) : ∀ fields, redactFields R (ofFields fields) =
    some (ofFields (Redaction.redactFields (primitives R.sha256) fields))
  | [] => rfl
  | (name, value) :: fields => by
    have hvalue := redactValue_ofJson R value
    have hfields := redactFields_ofFields R fields
    have hplain : (∀ s, value ≠ .str s) → redactFields R (ofFields ((name, value) :: fields)) =
        some (ofFields (Redaction.redactFields (primitives R.sha256)
          ((name, value) :: fields))) := by
      intro h
      have htext : ∀ s, ofJson value ≠ .text s := by
        intro s hs
        cases value with
        | str t => exact h t rfl
        | null | bool _ | num _ | arr _ | obj _ => cases hs
      rw [ofFields, redactFields_of_not_text R htext, hvalue, hfields, Redaction.redactFields,
        ofJson_field R.sha256 h]
      split_ifs <;> rfl
    cases value with
    | str s =>
      rw [ofFields, ofJson, redactFields, hfields, Redaction.redactFields, namedField_str]
      rfl
    | null | bool _ | num _ | arr _ | obj _ => exact hplain (by simp)
end

/-! ## The template -/

/-- How far a place for an argument is read. -/
inductive Stage where
  | flags
  | width
  | widthStar
  | point
  | precision
  | precisionStar
  | length
  deriving DecidableEq, Repr

/-- The next stage, unless the character is the type. -/
def Stage.next (stage : Stage) (c : Char) : Option Stage :=
  match stage with
  | .flags =>
    if c ∈ ['-', '+', ' ', '#', '0'] then some .flags
    else if c = '*' then some .widthStar
    else if c.isDigit then some .width
    else if c = '.' then some .point
    else afterNumbers
  | .width => if c.isDigit then some .width else if c = '.' then some .point else afterNumbers
  | .widthStar => if c = '.' then some .point else afterNumbers
  | .point =>
    if c = '*' then some .precisionStar else if c.isDigit then some .precision else afterNumbers
  | .precision => if c.isDigit then some .precision else afterNumbers
  | .precisionStar => afterNumbers
  | .length => none
where
  afterNumbers : Option Stage := if c ∈ ['h', 'l', 'L'] then some .length else none

/-- A part of the template. -/
inductive Part where
  | literal (text : List Char)
  | percent
  | field (spec : Spec)
  deriving DecidableEq, Repr

/-- Where the reader is. -/
inductive Scan where
  | text
  | percent
  | key (depth : ℕ) (name : List Char)
  | options (key : Option String) (stage : Stage) (read : List Char)
  deriving DecidableEq, Repr

/-- A character inside of a place for an argument. -/
def Scan.stepOptions (name : Option String) (stage : Stage) (read : List Char) (c : Char) :
    Scan × Option Part :=
  match stage.next c with
  | some stage => (.options name stage (read ++ [c]), none)
  | none => (.text, some (.field ⟨name, read, c⟩))

def Scan.step (state : Scan) (c : Char) : Scan × Option Part :=
  match state with
  | .text => if c = '%' then (.percent, none) else (.text, some (.literal [c]))
  | .percent =>
    if c = '%' then (.text, some .percent)
    else if c = '(' then (.key 0 [], none)
    else stepOptions none .flags [] c
  | .key depth name =>
    if c = ')' ∧ depth = 0 then (.options (some (String.ofList name)) .flags [], none)
    else if c = ')' then (.key (depth - 1) (name ++ [c]), none)
    else if c = '(' then (.key (depth + 1) (name ++ [c]), none)
    else (.key depth (name ++ [c]), none)
  | .options name stage read => stepOptions name stage read c

/-- A part in front of the others; characters of the template are collected. -/
def attach : Option Part → List Part → List Part
  | none, parts => parts
  | some (.literal t), .literal u :: parts => .literal (t ++ u) :: parts
  | some part, parts => part :: parts

/-- The parts of a template, if the last place for an argument is complete. -/
def scan : Scan → List Char → Option (List Part)
  | state, [] => if state = .text then some [] else none
  | state, c :: s => (scan (state.step c).1 s).map (attach (state.step c).2)

/-! ## The message -/

/-- A piece of the message: from the template, a text that the filter has searched for secrets and
that is put in as it is, or anything else. -/
inductive Piece where
  | template (text : List Char)
  | searched (text : List Char)
  | other (text : List Char)
  deriving DecidableEq, Repr

def Piece.text : Piece → List Char
  | .template t => t
  | .searched t => t
  | .other t => t

/-- The value of a key of a dictionary that is a text. -/
def lookupName (name : String) : List (Key ω × Value ω) → Option (Value ω)
  | [] => none
  | (.name key, value) :: fields => if key = name then some value else lookupName name fields
  | (.object _, _) :: fields => lookupName name fields

def Args.isTuple : Args ω → Bool
  | .tuple _ => true
  | _ => false

/-- The arguments that a template can take one by one. -/
def Args.supply : Args ω → List (Value ω)
  | .tuple values => values
  | .dict fields => [.dict fields]
  | .mapping o _ => [.object o]

/-- The arguments at a place in the template: with a key it is the value of that key. -/
def Args.atKey (args : Args ω) (key : Option String) (rest : List (Value ω)) :
    Option (List (Value ω)) :=
  match args, key with
  | _, none => some rest
  | .tuple _, some _ => none
  | .dict fields, some name => (lookupName name fields).map ([·])
  | .mapping _ fields, some name => (lookupName name fields).map ([·])

/-- Texts of these arguments have been searched for secrets: the elements of a tuple, and the
values of a dictionary that are not masked. -/
def Args.searches (R : Runtime ω) (args : Args ω) (key : Option String) : Bool :=
  match args, key with
  | .tuple _, none => true
  | .dict _, some name => (maskOf (primitives R.sha256) (lower name)).isNone
  | _, _ => false

/-- `%s` alone -/
def Spec.isPlain (spec : Spec) : Bool := spec.options = [] && spec.type = 's'

def Spec.stars (spec : Spec) : ℕ := spec.options.count '*'

/-- The piece for a value, after the values for the stars. -/
def piece (args : Args ω) (spec : Spec) (stars : List (Value ω)) (value : Value ω) :
    Option Piece :=
  match value, spec.isPlain with
  | .text s, true =>
    some (if args.searches R spec.key then .searched s.toList else .other s.toList)
  | value, _ => (R.convert spec stars value).map .other

/-- The pieces for the parts of a template, from the arguments that are left. -/
def fill (args : Args ω) : List (Value ω) → List Part → Option (List Piece)
  | rest, [] => if args.isTuple && !rest.isEmpty then none else some []
  | rest, .literal t :: parts => (fill args rest parts).map (.template t :: ·)
  | rest, .percent :: parts => (fill args rest parts).map (.template ['%'] :: ·)
  | rest, .field spec :: parts =>
    (args.atKey spec.key rest).bind fun rest =>
      match rest.drop spec.stars with
      | [] => none
      | value :: later =>
        (piece R args spec (rest.take spec.stars) value).bind fun p =>
          (fill args later parts).map (p :: ·)

/-- `record.getMessage()`, piece by piece; without arguments the template is not read. -/
def pieces (record : Record ω) : Option (List Piece) :=
  if record.args.isEmpty then some [.template record.msg.toList]
  else (scan .text record.msg.toList).bind (fill R record.args record.args.supply)

def message (record : Record ω) : Option (List Char) :=
  (pieces R record).map fun ps => (ps.map Piece.text).flatten

/-! ## What has been searched -/

variable {R}

/-- The reader collects a literal part only from a stretch of the template. -/
theorem step_part {state : Scan} {c : Char} :
    ((state.step c).2 = none → (state.step c).1 ≠ .text) ∧
      ∀ t, (state.step c).2 = some (.literal t) → state = .text ∧ t = [c] := by
  have hoptions : ∀ name stage read, ((Scan.stepOptions name stage read c).2 = none →
      (Scan.stepOptions name stage read c).1 ≠ .text) ∧
        ∀ t, (Scan.stepOptions name stage read c).2 ≠ some (.literal t) := by
    intro name stage read
    unfold Scan.stepOptions
    cases stage.next c <;> simp
  cases state with
  | text =>
    simp only [Scan.step]
    split_ifs <;> simp
  | percent =>
    simp only [Scan.step]
    split_ifs
    · simp
    · simp
    · exact ⟨(hoptions _ _ _).1, fun t h => absurd h ((hoptions _ _ _).2 t)⟩
  | key depth name =>
    simp only [Scan.step]
    split_ifs <;> simp
  | options name stage read =>
    exact ⟨(hoptions _ _ _).1, fun t h => absurd h ((hoptions _ _ _).2 t)⟩

theorem attach_literal (t : List Char) (parts : List Part) :
    (∃ u later, parts = .literal u :: later ∧
      attach (some (.literal t)) parts = .literal (t ++ u) :: later) ∨
    (∀ u later, parts ≠ .literal u :: later) ∧
      attach (some (.literal t)) parts = .literal t :: parts := by
  match parts with
  | .literal u :: later => exact .inl ⟨u, later, rfl, rfl⟩
  | [] | .percent :: _ | .field _ :: _ => exact .inr ⟨by simp, rfl⟩

/-- A literal part is a stretch of the template, and the first one stands at its beginning. -/
theorem scan_literal {state : Scan} {s : List Char} {parts : List Part}
    (h : scan state s = some parts) :
    (∀ t, .literal t ∈ parts → t <:+: s) ∧
      ∀ t later, parts = .literal t :: later → state = .text ∧ t <+: s := by
  induction s generalizing state parts with
  | nil =>
    unfold scan at h
    split_ifs at h
    cases h
    simp
  | cons c s ih =>
    obtain ⟨parts', hparts', rfl⟩ := Option.map_eq_some_iff.mp h
    obtain ⟨hinside, hstart⟩ := ih hparts'
    obtain ⟨hnone, hliteral⟩ := @step_part state c
    have hlater : ∀ t, .literal t ∈ parts' → t <:+: c :: s := fun t ht =>
      (hinside t ht).trans (List.suffix_cons c s).isInfix
    cases hpart : (state.step c).2 with
    | none => exact ⟨hlater, fun t later he => absurd (hstart t later he).1 (hnone hpart)⟩
    | some part =>
      cases part with
      | percent =>
        rw [show attach (some .percent) parts' = .percent :: parts' from rfl]
        exact ⟨fun t ht => hlater t (by simpa using ht), fun t later he => by cases he⟩
      | field spec =>
        rw [show attach (some (.field spec)) parts' = .field spec :: parts' from rfl]
        exact ⟨fun t ht => hlater t (by simpa using ht), fun t later he => by cases he⟩
      | literal t =>
        obtain ⟨rfl, rfl⟩ := hliteral t hpart
        obtain ⟨u, later, rfl, he⟩ | ⟨-, he⟩ := attach_literal [c] parts'
        · have hu : [c] ++ u <+: c :: s := by
            simpa using (hstart u later rfl).2
          rw [he]
          refine ⟨fun t ht => ?_, fun t later' heq => ?_⟩
          · obtain h | h := List.mem_cons.mp ht
            · cases h
              exact hu.isInfix
            · exact hlater t (List.mem_cons_of_mem _ h)
          · cases heq
            exact ⟨rfl, hu⟩
        · have hc : [c] <+: c :: s := by simp
          rw [he]
          refine ⟨fun t ht => ?_, fun t later' heq => ?_⟩
          · obtain h | h := List.mem_cons.mp ht
            · cases h
              exact hc.isInfix
            · exact hlater t h
          · cases heq
            exact ⟨rfl, hc⟩

/-- What is known of the arguments of a filtered record. -/
def Args.Searched (R : Runtime ω) : Args ω → Prop
  | .tuple values => ∀ s, .text s ∈ values → ¬ HasSecret s.toList
  | .dict fields => ∀ name s, (.name name, .text s) ∈ fields →
      (maskOf (primitives R.sha256) (lower name)).isNone → ¬ HasSecret s.toList
  | .mapping _ _ => True

theorem mem_of_lookupName {name : String} {fields : List (Key ω × Value ω)} {value : Value ω}
    (h : lookupName name fields = some value) : (.name name, value) ∈ fields := by
  induction fields with
  | nil => cases h
  | cons field fields ih =>
    obtain ⟨key | o, v⟩ := field
    · rw [lookupName] at h
      split_ifs at h with hkey
      · rw [hkey, Option.some.inj h]
        exact List.mem_cons_self
      · exact List.mem_cons_of_mem _ (ih h)
    · exact List.mem_cons_of_mem _ (ih h)

theorem not_hasSecret_redacted : ¬ HasSecret "***REDACTED***".toList := by decide +kernel

theorem not_hasSecret_redactText {sha256 : String → String} {name : String}
    (h : (maskOf (primitives sha256) (lower name)).isNone) (s : String) :
    ¬ HasSecret (redactText sha256 name s).toList := by
  unfold redactText
  split_ifs
  · exact not_hasSecret_redacted
  · rw [Option.isNone_iff_eq_none.mp h]
    exact not_hasSecret_redactString sha256 s

/-- Only texts become texts. -/
theorem redactValue_text {value : Value ω} {s : String} (h : redactValue R value = some (.text s)) :
    ∃ t, value = .text t := by
  cases value with
  | text t => exact ⟨t, rfl⟩
  | list items =>
    rw [redactValue] at h
    obtain ⟨_, -, he⟩ := Option.map_eq_some_iff.mp h
    cases he
  | dict fields =>
    rw [redactValue] at h
    obtain ⟨_, -, he⟩ := Option.map_eq_some_iff.mp h
    cases he
  | object o =>
    rw [redactValue] at h
    cases h

theorem redactFields_cons {key : Key ω} {value : Value ω} {fields fields' : List (Key ω × Value ω)}
    (h : redactFields R ((key, value) :: fields) = some fields') :
    ∃ value' later, redactFields R fields = some later ∧ fields' = (key, value') :: later ∧
      ∀ name s, key = .name name → value' = .text s →
        (maskOf (primitives R.sha256) (lower name)).isNone → ¬ HasSecret s.toList := by
  obtain ⟨key⟩ | o := key
  · cases value with
    | text t =>
      simp only [redactFields, Option.bind_eq_bind, Option.bind_eq_some_iff] at h
      obtain ⟨later, hlater, he⟩ := h
      refine ⟨_, later, hlater, (Option.some.inj he).symm, fun name s hkey hs hmask => ?_⟩
      cases hkey
      cases hs
      exact not_hasSecret_redactText hmask t
    | list _ | dict _ | object _ =>
      simp only [redactFields, Option.bind_eq_bind] at h
      split_ifs at h
      · rw [Option.bind_some] at h
        obtain ⟨later, hlater, he⟩ := Option.bind_eq_some_iff.mp h
        refine ⟨_, later, hlater, (Option.some.inj he).symm, fun name s _ hs _ => ?_⟩
        cases hs
        exact not_hasSecret_redacted
      · obtain ⟨value', hvalue, h⟩ := Option.bind_eq_some_iff.mp h
        obtain ⟨later, hlater, he⟩ := Option.bind_eq_some_iff.mp h
        refine ⟨value', later, hlater, (Option.some.inj he).symm, fun name s _ hs _ => ?_⟩
        subst hs
        obtain ⟨t, ht⟩ := redactValue_text hvalue
        cases ht
  · simp only [redactFields, Option.bind_eq_bind] at h
    split_ifs at h
    · obtain ⟨value', -, h⟩ := Option.bind_eq_some_iff.mp h
      obtain ⟨later, hlater, he⟩ := Option.bind_eq_some_iff.mp h
      exact ⟨value', later, hlater, (Option.some.inj he).symm, fun name s hkey => by cases hkey⟩
    · cases h

theorem searched_redactFields {fields fields' : List (Key ω × Value ω)}
    (h : redactFields R fields = some fields') : (Args.dict fields').Searched R := by
  induction fields generalizing fields' with
  | nil =>
    rw [redactFields] at h
    cases h
    intro name s hmem
    cases hmem
  | cons field fields ih =>
    obtain ⟨value', later, hlater, rfl, hvalue⟩ := redactFields_cons h
    intro name s hmem hmask
    obtain he | hmem := List.mem_cons.mp hmem
    · obtain ⟨hkey, hs⟩ := Prod.mk.inj he
      exact hvalue name s hkey.symm hs.symm hmask
    · exact ih hlater name s hmem hmask

theorem searched_filter (record : Record ω) : (filter R record).args.Searched R ∧
    ¬ HasSecret (filter R record).msg.toList := by
  obtain ⟨msg, args⟩ := record
  have hmsg := not_hasSecret_redactString R.sha256 msg
  unfold filter
  split_ifs with hempty
  · refine ⟨?_, hmsg⟩
    cases args with
    | tuple values =>
      obtain rfl : values = [] := List.isEmpty_iff.mp hempty
      exact fun s h => by cases h
    | dict fields =>
      obtain rfl : fields = [] := List.isEmpty_iff.mp hempty
      exact fun name s h => by cases h
    | mapping o fields => exact trivial
  · cases args with
    | tuple values =>
      refine ⟨fun s hs => ?_, hmsg⟩
      obtain ⟨value, -, hvalue⟩ := List.mem_map.mp hs
      cases value with
      | text t =>
        cases hvalue
        exact not_hasSecret_redactString R.sha256 t
      | list _ | dict _ | object _ => cases hvalue
    | dict fields =>
      cases hfields : redactFields R fields with
      | none =>
        simp only [hfields]
        exact ⟨fun s h => absurd h List.not_mem_nil, by decide +kernel⟩
      | some fields' =>
        simp only [hfields]
        exact ⟨searched_redactFields hfields, hmsg⟩
    | mapping o fields => exact ⟨trivial, hmsg⟩

/-- The arguments that are left of a tuple have been searched as well. -/
def Supplied (args : Args ω) (rest : List (Value ω)) : Prop :=
  args.isTuple = true → ∀ s, .text s ∈ rest → ¬ HasSecret s.toList

theorem piece_searched {args : Args ω} {spec : Spec} {stars : List (Value ω)} {value : Value ω}
    {t : List Char} (h : piece R args spec stars value = some (.searched t)) :
    args.searches R spec.key = true ∧ ∃ s, value = .text s ∧ t = s.toList := by
  unfold piece at h
  split at h
  · split_ifs at h with hsearches
    · cases h
      exact ⟨hsearches, _, rfl, rfl⟩
    · cases h
  · obtain ⟨_, -, he⟩ := Option.map_eq_some_iff.mp h
    cases he

theorem piece_ne_template {args : Args ω} {spec : Spec} {stars : List (Value ω)}
    {value : Value ω} {t : List Char} : piece R args spec stars value ≠ some (.template t) := by
  intro h
  unfold piece at h
  split at h
  · split_ifs at h <;> cases h
  · obtain ⟨_, -, he⟩ := Option.map_eq_some_iff.mp h
    cases he

theorem supplied_atKey {args : Args ω} {rest rest' : List (Value ω)} {key : Option String}
    (hrest : Supplied args rest) (hkey : args.atKey key rest = some rest') :
    Supplied args rest' := by
  intro htuple
  cases args with
  | tuple values =>
    cases key with
    | none =>
      cases hkey
      exact hrest htuple
    | some name => cases hkey
  | dict _ | mapping _ _ => cases htuple

/-- A text that counts as searched is one of a filtered record. -/
theorem searched_piece {args : Args ω} {rest rest' : List (Value ω)} {spec : Spec}
    {stars : List (Value ω)} {value : Value ω} {t : List Char} (hargs : args.Searched R)
    (hrest : Supplied args rest) (hkey : args.atKey spec.key rest = some rest')
    (hvalue : value ∈ rest') (hp : piece R args spec stars value = some (.searched t)) :
    ¬ HasSecret t := by
  obtain ⟨hsearches, s, rfl, rfl⟩ := piece_searched hp
  cases args with
  | tuple values => exact supplied_atKey hrest hkey rfl s hvalue
  | dict fields =>
    cases hname : spec.key with
    | none =>
      rw [hname] at hsearches
      cases hsearches
    | some name =>
      rw [hname] at hkey hsearches
      obtain ⟨v, hv, rfl⟩ := Option.map_eq_some_iff.mp hkey
      rw [← List.mem_singleton.mp hvalue] at hv
      exact hargs name s (mem_of_lookupName hv) hsearches
  | mapping o fields => cases hsearches

theorem searched_fill {args : Args ω} (hargs : args.Searched R) {rest : List (Value ω)}
    {parts : List Part} (hrest : Supplied args rest) {ps : List Piece}
    (h : fill R args rest parts = some ps) {t : List Char} (ht : .searched t ∈ ps) :
    ¬ HasSecret t := by
  induction parts generalizing rest ps with
  | nil =>
    rw [fill] at h
    split_ifs at h
    cases h
    cases ht
  | cons part parts ih =>
    cases part with
    | literal u =>
      obtain ⟨ps', hps', rfl⟩ := Option.map_eq_some_iff.mp h
      exact ih hrest hps' (by simpa using ht)
    | percent =>
      obtain ⟨ps', hps', rfl⟩ := Option.map_eq_some_iff.mp h
      exact ih hrest hps' (by simpa using ht)
    | field spec =>
      obtain ⟨rest', hkey, h⟩ := Option.bind_eq_some_iff.mp h
      cases hdrop : rest'.drop spec.stars with
      | nil => simp only [hdrop] at h; cases h
      | cons value later =>
        simp only [hdrop] at h
        obtain ⟨p, hp, h⟩ := Option.bind_eq_some_iff.mp h
        obtain ⟨ps', hps', rfl⟩ := Option.map_eq_some_iff.mp h
        have hmem : ∀ v ∈ value :: later, v ∈ rest' := fun v hv =>
          List.mem_of_mem_drop (hdrop ▸ hv)
        obtain rfl | ht := List.mem_cons.mp ht
        · exact searched_piece hargs hrest hkey (hmem value List.mem_cons_self) hp
        · exact ih (fun htuple s hs => supplied_atKey hrest hkey htuple s
            (hmem _ (List.mem_cons_of_mem _ hs))) hps' ht

theorem template_fill {args : Args ω} {rest : List (Value ω)} {parts : List Part}
    {ps : List Piece} (h : fill R args rest parts = some ps) {t : List Char}
    (ht : .template t ∈ ps) : .literal t ∈ parts ∨ t = ['%'] := by
  induction parts generalizing rest ps with
  | nil =>
    rw [fill] at h
    split_ifs at h
    cases h
    cases ht
  | cons part parts ih =>
    cases part with
    | literal u =>
      obtain ⟨ps', hps', rfl⟩ := Option.map_eq_some_iff.mp h
      obtain he | ht := List.mem_cons.mp ht
      · cases he
        exact .inl List.mem_cons_self
      · exact (ih hps' ht).imp_left (List.mem_cons_of_mem _)
    | percent =>
      obtain ⟨ps', hps', rfl⟩ := Option.map_eq_some_iff.mp h
      obtain he | ht := List.mem_cons.mp ht
      · cases he
        exact .inr rfl
      · exact (ih hps' ht).imp_left (List.mem_cons_of_mem _)
    | field spec =>
      obtain ⟨rest', -, h⟩ := Option.bind_eq_some_iff.mp h
      cases hdrop : rest'.drop spec.stars with
      | nil => simp only [hdrop] at h; cases h
      | cons value later =>
        simp only [hdrop] at h
        obtain ⟨p, hp, h⟩ := Option.bind_eq_some_iff.mp h
        obtain ⟨ps', hps', rfl⟩ := Option.map_eq_some_iff.mp h
        obtain rfl | ht := List.mem_cons.mp ht
        · exact absurd hp piece_ne_template
        · exact (ih hps' ht).imp_left (List.mem_cons_of_mem _)

/-- No piece of a filtered record that comes from the template or was searched has a secret. -/
theorem not_hasSecret_piece {record : Record ω} {ps : List Piece}
    (h : pieces R (filter R record) = some ps) {p : Piece} (hp : p ∈ ps) :
    ¬ HasSecret p.text ∨ ∃ t, p = .other t := by
  obtain ⟨hargs, hmsg⟩ := searched_filter (R := R) record
  unfold pieces at h
  split_ifs at h
  · cases h
    rw [List.mem_singleton.mp hp]
    exact .inl hmsg
  · obtain ⟨parts, hparts, hfill⟩ := Option.bind_eq_some_iff.mp h
    cases p with
    | template t =>
      refine .inl ?_
      obtain ht | rfl := template_fill hfill hp
      · rintro ⟨q, hq, hoccurs⟩
        exact hmsg ⟨q, hq, hoccurs.of_infix (fenceproof_secretPatterns q hq).plain
          ((scan_literal hparts).1 t ht)⟩
      · decide +kernel
    | searched t =>
      refine .inl (searched_fill hargs (fun htuple s hs => ?_) hfill hp)
      cases hfiltered : (filter R record).args with
      | tuple values =>
        rw [hfiltered] at hargs hs
        exact hargs s hs
      | dict _ | mapping _ _ =>
        rw [hfiltered] at htuple
        cases htuple
    | other t => exact .inr ⟨t, rfl⟩

/-! ## Which messages are clean -/

/-- The pieces can be joined: none that was not searched has a secret, and no secret goes from one
piece into the next. -/
def SafeJoin (ps : List Piece) : Prop :=
  (∀ t, .other t ∈ ps → ¬ HasSecret t) ∧
    ∀ r ∈ secretPatterns, ¬ r.Straddles (ps.map Piece.text)

/-- A secret in a joined text lies in one of the pieces or goes across a border. -/
theorem hasSecret_flatten {ts : List (List Char)} :
    HasSecret ts.flatten ↔ (∃ t ∈ ts, HasSecret t) ∨ ∃ r ∈ secretPatterns, r.Straddles ts := by
  have hiff : ∀ r ∈ secretPatterns, (r.Occurs ts.flatten ↔
      (∃ t ∈ ts, r.Occurs t) ∨ r.Straddles ts) := fun r hr =>
    Regex.occurs_flatten (fenceproof_secretPatterns r hr).plain
      (fenceproof_secretPatterns r hr).minLength_pos
  constructor
  · rintro ⟨r, hr, hoccurs⟩
    obtain ⟨t, ht, hin⟩ | hstraddles := (hiff r hr).mp hoccurs
    · exact .inl ⟨t, ht, r, hr, hin⟩
    · exact .inr ⟨r, hr, hstraddles⟩
  · rintro (⟨t, ht, r, hr, hin⟩ | ⟨r, hr, hstraddles⟩)
    · exact ⟨r, hr, (hiff r hr).mpr (.inl ⟨t, ht, hin⟩)⟩
    · exact ⟨r, hr, (hiff r hr).mpr (.inr hstraddles)⟩

theorem safeJoin_iff {record : Record ω} {ps : List Piece}
    (h : pieces R (filter R record) = some ps) :
    ¬ HasSecret (ps.map Piece.text).flatten ↔ SafeJoin ps := by
  rw [hasSecret_flatten, not_or]
  refine and_congr ?_ (by simp)
  constructor
  · exact fun hno t ht hsecret => hno ⟨t, List.mem_map_of_mem ht, hsecret⟩
  · rintro hother ⟨t, ht, hsecret⟩
    obtain ⟨p, hp, rfl⟩ := List.mem_map.mp ht
    obtain hclean | ⟨t, rfl⟩ := not_hasSecret_piece h hp
    · exact hclean hsecret
    · exact hother t hp hsecret

/-- The message of a filtered record is free of secrets exactly if its pieces can be joined. -/
theorem message_clean_iff (R : Runtime ω) (record : Record ω) :
    (∀ text, message R (filter R record) = some text → ¬ HasSecret text) ↔
      ∀ ps, pieces R (filter R record) = some ps → SafeJoin ps := by
  simp only [message, Option.map_eq_some_iff, forall_exists_index, and_imp]
  constructor
  · exact fun h ps hps => (safeJoin_iff hps).mp (h _ ps hps rfl)
  · rintro h _ ps hps rfl
    exact (safeJoin_iff hps).mpr (h ps hps)

/-- A token whose prefix stands in the template and whose rest is the argument. -/
theorem split_token_logged : ∃ record : Record Unit, ∀ R, ∃ text,
    message R (filter R record) = some text ∧ HasSecret text := by
  refine ⟨⟨"kpx_%s", .tuple [.text "0123456789abcdef0123456789abcdef"]⟩, fun R =>
    ⟨"kpx_0123456789abcdef0123456789abcdef".toList, ?_, by decide +kernel⟩⟩
  have hmsg : redactString (primitives R.sha256) "kpx_%s" = "kpx_%s" :=
    redactString_of_not_hasSecret _ (by decide +kernel)
  have harg : redactString (primitives R.sha256) "0123456789abcdef0123456789abcdef" =
      "0123456789abcdef0123456789abcdef" := redactString_of_not_hasSecret _ (by decide +kernel)
  have hfilter : filter R ⟨"kpx_%s", .tuple [.text "0123456789abcdef0123456789abcdef"]⟩ =
      ⟨"kpx_%s", .tuple [.text "0123456789abcdef0123456789abcdef"]⟩ := by
    simp [filter, Args.isEmpty, redactArgument, hmsg, harg]
  have hscan : scan .text "kpx_%s".toList =
      some [.literal "kpx_".toList, .field ⟨none, [], 's'⟩] := by decide
  rw [hfilter, message, pieces, if_neg (by decide), hscan]
  rfl

end Kepryx.LogFilter
