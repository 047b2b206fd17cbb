import Kepryx.AssetIntake
import Kepryx.SelfSecurity

/-!
# The AI validation of proposals

The provider answers with a text, or the call raises. Three paths fall back to a manual review,
and each assigns other columns: an unavailable provider, a text that is no JSON, and an exception
anywhere behind that.
-/
namespace Kepryx.AiValidation
open Kepryx.Tables Kepryx.SelfSecurity
open Kepryx.AssetIntake (strip)

/-! ## Values -/

/-- A `float` of Python. -/
inductive PyFloat where
  | finite (q : ℚ)
  | infinity (negative : Bool)
  | nan
  deriving DecidableEq

/-- What `json.loads` decodes; `NaN` and `Infinity` are accepted as numbers. -/
inductive Json where
  | null
  | bool (b : Bool)
  | int (n : ℤ)
  | float (x : PyFloat)
  | str (s : String)
  | arr (elements : List Json)
  | obj (members : List (String × Json))

abbrev Dict := List (String × Json)

/-- `bool(value)` -/
def Json.truth : Json → Bool
  | .null => false
  | .bool b => b
  | .int n => n ≠ 0
  | .float x => x ≠ .finite 0
  | .str s => s ≠ ""
  | .arr elements => !elements.isEmpty
  | .obj members => !members.isEmpty

/-- `type(value).__name__` -/
def Json.typeName : Json → String
  | .null => "NoneType"
  | .bool _ => "bool"
  | .int _ => "int"
  | .float _ => "float"
  | .str _ => "str"
  | .arr _ => "list"
  | .obj _ => "dict"

/-- `json.loads`: a value, a `JSONDecodeError`, or another exception. -/
inductive Loaded where
  | value (v : Json)
  | decodeError
  | raised (message : String)

/-- The built-in functions that read texts and large numbers; exceptions carry their message.
The integers of the scale are floats without rounding. -/
structure Runtime where
  loads : String → Loaded
  floatOfText : String → Except String PyFloat
  floatOfInt : ℤ → Except String PyFloat
  floatOfInt_small : ∀ n, 0 ≤ n → n ≤ 10 → floatOfInt n = .ok (.finite n)

/-- `float(value)` -/
def Runtime.float (R : Runtime) : Json → Except String PyFloat
  | .bool b => .ok (.finite (if b then 1 else 0))
  | .int n => R.floatOfInt n
  | .float x => .ok x
  | .str s => R.floatOfText s
  | v => .error ("float() argument must be a string or a real number, not '" ++ v.typeName ++ "'")

/-- `d[key] = value` -/
def assign (d : Dict) (key : String) (value : Json) : Dict :=
  if (d.lookup key).isSome then d.map fun e => if e.1 = key then (key, value) else e
  else d ++ [(key, value)]

/-- `d.setdefault(key, value)` -/
def setDefault (d : Dict) (key : String) (value : Json) : Dict :=
  if (d.lookup key).isSome then d else assign d key value

/-- `d.get(key, default)` -/
def get (d : Dict) (key : String) (default : Json) : Json := (d.lookup key).getD default

/-! ## `VALIDATION_SCHEMA` -/

def isString : Json → Bool
  | .str _ => true
  | _ => false

def isBoolean : Json → Bool
  | .bool _ => true
  | _ => false

def isOneOf (values : List String) : Json → Bool
  | .str s => s ∈ values
  | _ => false

def isStringArray : Json → Bool
  | .arr elements => elements.all isString
  | _ => false

/-- A number from 0 to 10. -/
def isScore : Json → Bool
  | .int n => 0 ≤ n && n ≤ 10
  | .float (.finite q) => 0 ≤ q && q ≤ 10
  | _ => false

def recommendations : List String := ["approve", "reject", "manual_review"]

/-- The properties, all of which are required. -/
def validationSchema : List (String × (Json → Bool)) := [
  ("recommendation", isOneOf recommendations),
  ("risk_score", isScore),
  ("version_jump_type", isOneOf ["patch", "minor", "major", "unknown"]),
  ("breaking_changes_detected", isBoolean),
  ("breaking_changes", isStringArray),
  ("compatibility_concerns", isStringArray),
  ("security_improvement", isString),
  ("test_recommendations", isStringArray),
  ("summary", isString)]

/-- The object has every property with a value as it should be, and no other one. -/
def satisfiesSchema (members : Dict) : Bool :=
  (validationSchema.all fun p => (members.lookup p.1).any p.2) &&
    members.all fun m => m.1 ∈ validationSchema.map Prod.fst

/-! ## `assess_update` -/

/-- The text of the provider, or the exception of the call. -/
inductive Answer where
  | text (text : String)
  | raised (message : String)

/-- The occurrences of a part are left out, from left to right; the number counts the characters
of an occurrence that are still to be left out. -/
def removeFrom (part : List Char) : ℕ → List Char → List Char
  | _, [] => []
  | skip + 1, _ :: cs => removeFrom part skip cs
  | 0, c :: cs =>
    if part.isPrefixOf (c :: cs) then removeFrom part (part.length - 1) cs
    else c :: removeFrom part 0 cs

/-- `text.replace(part, "")` -/
def remove (part text : String) : String := String.ofList (removeFrom part.toList 0 text.toList)

/-- The text without Markdown fences. -/
def unfenced (text : String) : String := strip (remove "```" (remove "```json" text))

/-- The assessment when the call raises. -/
def unavailable (e : String) : Dict := [
  ("recommendation", .str "manual_review"),
  ("risk_score", .int 10),
  ("version_jump_type", .str "unknown"),
  ("breaking_changes_detected", .bool true),
  ("breaking_changes", .arr []),
  ("compatibility_concerns", .arr [.str ("AI validation unavailable: " ++ e)]),
  ("security_improvement", .str "unknown"),
  ("test_recommendations", .arr [.str "full regression test required"]),
  ("summary", .str "AI validation failed — manual review required."),
  ("_error", .str e)]

/-- The assessment when the text is no JSON. -/
def malformed (text : String) : Dict := [
  ("recommendation", .str "manual_review"),
  ("risk_score", .int 10),
  ("summary", .str "AI returned malformed response — manual review required."),
  ("_raw", .str (String.ofList (text.toList.take 500)))]

/-- The last lines of `assess_update`. -/
def enforceDefaults (R : Runtime) (result : Dict) : Except String Dict := do
  let result := setDefault result "recommendation" (.str "manual_review")
  let result :=
    if isOneOf recommendations (get result "recommendation" .null) then result
    else assign result "recommendation" (.str "manual_review")
  let riskScore ← R.float (get result "risk_score" (.int 10))
  let result := assign result "risk_score" (.float riskScore)
  return assign result "breaking_changes_detected"
    (.bool (get result "breaking_changes_detected" (.bool true)).truth)

/-- `assess_update`, given the answer of the provider. -/
def assessUpdate (R : Runtime) : Answer → Except String Dict
  | .raised e => .ok (unavailable e)
  | .text text =>
    match R.loads (unfenced text) with
    | .decodeError => .ok (malformed (unfenced text))
    | .raised e => .error e
    | .value (.obj members) => enforceDefaults R members
    | .value v => .error ("'" ++ v.typeName ++ "' object has no attribute 'setdefault'")

/-! ## `_ai_validate_proposals` -/

/-- A proposal with the columns that the validation reads or writes. -/
structure Proposal where
  id : ℕ
  packageName : String
  currentVersion : String
  targetVersion : String
  reason : String
  cvesFixed : List String := []
  aiAssessment : Json := .obj []
  aiRecommendation : Json := .null
  aiRiskScore : Option PyFloat := none
  breakingChangesDetected : Bool := false
  compatibilityNotes : Json := .null
  status : ProposalStatus := .proposed

/-- The assignments of the `try` block. -/
def assessed (R : Runtime) (answer : Answer) (p : Proposal) : Except String Proposal := do
  let assessment ← assessUpdate R answer
  let riskScore ← R.float (get assessment "risk_score" (.int 10))
  return { p with
    aiAssessment := .obj assessment
    aiRecommendation := get assessment "recommendation" (.str "manual_review")
    aiRiskScore := some riskScore
    breakingChangesDetected := (get assessment "breaking_changes_detected" .null).truth
    compatibilityNotes := get assessment "summary" (.str "")
    status := .aiValidated }

/-- The body of the loop, with its exception handler. -/
def validated (R : Runtime) (answer : Answer) (p : Proposal) : Proposal :=
  match assessed R answer p with
  | .ok p => p
  | .error e =>
    { p with
      aiRecommendation := .str "manual_review"
      aiAssessment := .obj [("_error", .str e)]
      status := .aiValidated }

theorem validated_id (R : Runtime) (answer : Answer) (p : Proposal) :
    (validated R answer p).id = p.id := by
  unfold validated assessed
  cases assessUpdate R answer with
  | error e => rfl
  | ok assessment =>
    cases h : R.float (get assessment "risk_score" (.int 10)) with
    | error e => simp only [bind, Except.bind, h]
    | ok x => simp only [bind, Except.bind, h]; rfl

/-- The proposals that the task reads: at most fifty, in no particular order. -/
def chosen (selected : List ℕ) (p : Proposal) : Bool :=
  p.status = .proposed && p.id ∈ selected.take 50

theorem ite_validated_id (R : Runtime) (selected : List ℕ) (answer : Proposal → Answer)
    (p : Proposal) :
    (if chosen selected p then validated R (answer p) p else p).id = p.id := by
  split
  · exact validated_id R (answer p) p
  · rfl

/-- `_ai_validate_proposals`, given the answer for each proposal. The commit raises if the
database does not accept one of the changed rows, and then none of them is stored. -/
def aiValidateProposals (R : Runtime) (accepts : Proposal → Bool) (requireAiValidation : Bool)
    (selected : List ℕ) (answer : Proposal → Answer) (t : Table Proposal.id) :
    Table Proposal.id :=
  if requireAiValidation &&
      t.rows.all (fun p => !chosen selected p || accepts (validated R (answer p) p)) then
    t.mapRows (fun p => if chosen selected p then validated R (answer p) p else p)
      (ite_validated_id R selected answer)
  else t

/-! ## What a validated proposal promises -/

/-- The answer is the text of an object that satisfies the schema. -/
def Valid (R : Runtime) (answer : Answer) : Prop :=
  ∃ text members, answer = .text text ∧ R.loads (unfenced text) = .value (.obj members) ∧
    satisfiesSchema members

/-- The stored columns are in range, and are the worst ones unless the answer is valid. -/
structure Safe (R : Runtime) (answer : Answer) (q : Proposal) : Prop where
  recommendation : ∃ s ∈ recommendations, q.aiRecommendation = .str s
  riskScore : ∃ x, q.aiRiskScore = some (.finite x) ∧ 0 ≤ x ∧ x ≤ 10
  worst : ¬ Valid R answer → q.aiRecommendation = .str "manual_review" ∧
    q.breakingChangesDetected = true ∧ q.aiRiskScore = some (.finite 10)

/-- The proposal had the worst score, and breaking changes, before. -/
def WorstBefore (p : Proposal) : Prop :=
  p.aiRiskScore = some (.finite 10) ∧ p.breakingChangesDetected = true

/-- The members, with the defaults for missing ones, are those of the worst assessment. -/
structure WorstMembers (R : Runtime) (members : Dict) : Prop where
  recommendation : ∀ s, members.lookup "recommendation" = some (.str s) →
    s ≠ "approve" ∧ s ≠ "reject"
  riskScore : R.float (get members "risk_score" (.int 10)) = .ok (.finite 10)
  breakingChanges : (get members "breaking_changes_detected" (.bool true)).truth = true

/-- When the columns come out right: the call raised; or the text is an object that satisfies the
schema, or whose members are the worst ones; or an exception behind the decoding leaves the worst
columns that the proposal had before. -/
def ComesOutRight (R : Runtime) (p : Proposal) : Answer → Prop
  | .raised _ => True
  | .text text =>
    match R.loads (unfenced text) with
    | .value (.obj members) =>
      satisfiesSchema members ∨ WorstMembers R members ∨
        (¬ ∃ x, R.float (get members "risk_score" (.int 10)) = .ok x) ∧ WorstBefore p
    | .decodeError => False
    | _ => WorstBefore p

/-! ## Dictionaries -/

theorem lookup_assign (d : Dict) (key key' : String) (value : Json) :
    (assign d key value).lookup key' = if key' = key then some value else d.lookup key' :=
  lookup_write d key key' value

@[simp] theorem get_assign_self (d : Dict) (key : String) (value default : Json) :
    get (assign d key value) key default = value := by
  rw [get, lookup_assign, if_pos rfl, Option.getD_some]

theorem get_assign_of_ne {d : Dict} {key key' : String} (h : key' ≠ key) (value default : Json) :
    get (assign d key value) key' default = get d key' default := by
  rw [get, lookup_assign, if_neg h, get]

theorem get_setDefault_self (d : Dict) (key : String) (value default : Json) :
    get (setDefault d key value) key default = get d key value := by
  unfold setDefault
  split
  · rename_i hsome
    obtain ⟨old, hold⟩ := Option.isSome_iff_exists.mp hsome
    rw [get, get, hold, Option.getD_some, Option.getD_some]
  · rename_i hnone
    rw [Bool.not_eq_true, Option.isSome_eq_false_iff, Option.isNone_iff_eq_none] at hnone
    rw [get_assign_self, get, hnone, Option.getD_none]

theorem get_setDefault_of_ne {d : Dict} {key key' : String} (h : key' ≠ key)
    (value default : Json) : get (setDefault d key value) key' default = get d key' default := by
  unfold setDefault
  split
  · rfl
  · exact get_assign_of_ne h value default

/-! ## The members with their defaults -/

/-- The recommendation that is kept of the members. -/
def keptRecommendation (members : Dict) : Json :=
  let recommendation := get members "recommendation" (.str "manual_review")
  if isOneOf recommendations recommendation then recommendation else .str "manual_review"

/-- The result of `enforceDefaults`, given the score. -/
theorem enforceDefaults_cases (R : Runtime) (members : Dict) :
    match R.float (get members "risk_score" (.int 10)) with
    | .error e => enforceDefaults R members = .error e
    | .ok x => ∃ d, enforceDefaults R members = .ok d ∧
      (∀ v, get d "risk_score" v = .float x) ∧
      (∀ v, get d "recommendation" v = keptRecommendation members) ∧
      ∀ v, get d "breaking_changes_detected" v =
        .bool (get members "breaking_changes_detected" (.bool true)).truth := by
  set first := setDefault members "recommendation" (.str "manual_review") with hfirst
  set second := if isOneOf recommendations (get first "recommendation" .null) then first
    else assign first "recommendation" (.str "manual_review") with hsecond
  have hother : ∀ key v, key ≠ "recommendation" → get second key v = get members key v := by
    intro key v hkey
    have hkept : get first key v = get members key v := get_setDefault_of_ne hkey _ v
    rw [hsecond]
    split
    · exact hkept
    · rw [get_assign_of_ne hkey, hkept]
  have hself : ∀ v, get second "recommendation" v = keptRecommendation members := by
    intro v
    have hget : ∀ v, get first "recommendation" v =
        get members "recommendation" (.str "manual_review") := get_setDefault_self _ _ _
    rw [hsecond, keptRecommendation]
    simp only [hget]
    split
    · exact hget v
    · exact get_assign_self _ _ _ _
  have hresult : enforceDefaults R members =
      (R.float (get second "risk_score" (.int 10))).map fun x =>
        assign (assign second "risk_score" (.float x)) "breaking_changes_detected"
          (.bool (get (assign second "risk_score" (.float x)) "breaking_changes_detected"
            (.bool true)).truth) := by
    rw [enforceDefaults]
    cases R.float (get second "risk_score" (.int 10)) <;> rfl
  rw [hother _ _ (by decide)] at hresult
  cases hrisk : R.float (get members "risk_score" (.int 10)) with
  | error e =>
    rw [hresult, hrisk]
    rfl
  | ok x =>
    rw [hrisk] at hresult
    refine ⟨_, hresult, fun v => ?_, fun v => ?_, fun v => ?_⟩
    · rw [get_assign_of_ne (by decide), get_assign_self]
    · rw [get_assign_of_ne (by decide), get_assign_of_ne (by decide), hself]
    · rw [get_assign_self, get_assign_of_ne (by decide), hother _ _ (by decide)]

/-! ## The columns after the validation -/

section Columns
variable {R : Runtime} {p : Proposal}

/-- An exception stores a manual review and leaves the score and the breaking changes. -/
theorem safe_of_error {answer : Answer} {e : String} (h : assessed R answer p = .error e)
    (hinvalid : ¬ Valid R answer) : Safe R answer (validated R answer p) ↔ WorstBefore p := by
  have hcolumns : validated R answer p = { p with
      aiRecommendation := .str "manual_review"
      aiAssessment := .obj [("_error", .str e)]
      status := .aiValidated } := by
    rw [validated, h]
  rw [hcolumns]
  constructor
  · intro hsafe
    obtain ⟨-, hbreaking, hscore⟩ := hsafe.worst hinvalid
    exact ⟨hscore, hbreaking⟩
  · rintro ⟨hscore, hbreaking⟩
    exact ⟨⟨_, by decide, rfl⟩, ⟨10, hscore, by norm_num, by norm_num⟩,
      fun _ => ⟨rfl, hbreaking, hscore⟩⟩

/-- The columns when the assessment has a score. -/
theorem validated_ok {answer : Answer} {assessment : Dict} {x : PyFloat}
    (h : assessUpdate R answer = .ok assessment)
    (hscore : R.float (get assessment "risk_score" (.int 10)) = .ok x) :
    validated R answer p = { p with
      aiAssessment := .obj assessment
      aiRecommendation := get assessment "recommendation" (.str "manual_review")
      aiRiskScore := some x
      breakingChangesDetected := (get assessment "breaking_changes_detected" .null).truth
      compatibilityNotes := get assessment "summary" (.str "")
      status := .aiValidated } := by
  simp only [validated, assessed, h, hscore, bind, Except.bind]
  rfl

theorem float_ten : R.float (.int 10) = .ok (.finite 10) := by
  have h := R.floatOfInt_small 10 (by decide) (by decide)
  simpa [Runtime.float] using h

theorem safe_unavailable (e : String) : Safe R (.raised e) (validated R (.raised e) p) := by
  have hassess : assessUpdate R (.raised e) = .ok (unavailable e) := rfl
  rw [validated_ok hassess float_ten]
  exact ⟨⟨_, by decide, rfl⟩, ⟨10, rfl, by norm_num, by norm_num⟩, fun _ => ⟨rfl, rfl, rfl⟩⟩

/-- The call of `assess_update` raises, so the proposal keeps its score. -/
theorem assessed_error {answer : Answer} {e : String} (h : assessUpdate R answer = .error e) :
    assessed R answer p = .error e := by
  rw [assessed, h]
  rfl

/-- A text that is no JSON leaves no breaking changes. -/
theorem not_safe_malformed {text : String} (h : R.loads (unfenced text) = .decodeError) :
    ¬ Safe R (.text text) (validated R (.text text) p) := by
  have hassess : assessUpdate R (.text text) = .ok (malformed (unfenced text)) := by
    simp only [assessUpdate, h]
  have hinvalid : ¬ Valid R (.text text) := by
    rintro ⟨text', members, htext, hloads, -⟩
    cases htext
    cases h.symm.trans hloads
  rw [validated_ok hassess float_ten]
  intro hsafe
  obtain ⟨-, hbreaking, -⟩ := hsafe.worst hinvalid
  cases hbreaking

end Columns

/-! ## Objects -/

section Objects
variable {R : Runtime} {members : Dict}

theorem exists_property (h : satisfiesSchema members) {key : String} {check : Json → Bool}
    (hproperty : (key, check) ∈ validationSchema) :
    ∃ v, members.lookup key = some v ∧ check v := by
  rw [satisfiesSchema, Bool.and_eq_true] at h
  exact (Option.any_eq_true _ _).mp (List.all_eq_true.mp h.1 _ hproperty)

/-- A score of the schema is a float in range. -/
theorem score_of_schema (h : satisfiesSchema members) :
    ∃ x, R.float (get members "risk_score" (.int 10)) = .ok (.finite x) ∧ 0 ≤ x ∧ x ≤ 10 := by
  have hproperty : ("risk_score", isScore) ∈ validationSchema :=
    List.mem_cons_of_mem _ List.mem_cons_self
  obtain ⟨v, hv, hscore⟩ := exists_property h hproperty
  rw [get, hv, Option.getD_some]
  cases v with
  | int n =>
    simp only [isScore, Bool.and_eq_true, decide_eq_true_eq] at hscore
    refine ⟨n, R.floatOfInt_small n hscore.1 hscore.2, ?_, ?_⟩
    · exact_mod_cast hscore.1
    · exact_mod_cast hscore.2
  | float x =>
    cases x with
    | finite q =>
      simp only [isScore, Bool.and_eq_true, decide_eq_true_eq] at hscore
      exact ⟨q, rfl, hscore⟩
    | infinity negative => cases hscore
    | nan => cases hscore
  | _ => cases hscore

theorem of_isOneOf {values : List String} {v : Json} (h : isOneOf values v) :
    ∃ s ∈ values, v = .str s := by
  cases v with
  | str s => exact ⟨s, by simpa [isOneOf] using h, rfl⟩
  | _ => cases h

/-- The kept recommendation is one of the three, and a manual review unless the members hold
another one. -/
theorem keptRecommendation_cases (members : Dict) :
    keptRecommendation members = .str "manual_review" ∨
      ∃ s, (s = "approve" ∨ s = "reject") ∧ members.lookup "recommendation" = some (.str s) ∧
        keptRecommendation members = .str s := by
  unfold keptRecommendation
  dsimp only
  split
  · rename_i hone
    obtain ⟨s, hs, hget⟩ := of_isOneOf hone
    rw [hget]
    have hlookup : s ≠ "manual_review" → members.lookup "recommendation" = some (.str s) := by
      intro hne
      unfold get at hget
      cases hfind : members.lookup "recommendation" with
      | none =>
        rw [hfind] at hget
        cases hget
        exact absurd rfl hne
      | some v =>
        rw [hfind] at hget
        rw [← hget, Option.getD_some]
    simp only [recommendations, List.mem_cons, List.not_mem_nil, or_false] at hs
    rcases hs with rfl | rfl | rfl
    · exact .inr ⟨_, .inl rfl, hlookup (by decide), rfl⟩
    · exact .inr ⟨_, .inr rfl, hlookup (by decide), rfl⟩
    · exact .inl rfl
  · exact .inl rfl

theorem keptRecommendation_iff (members : Dict) :
    keptRecommendation members = .str "manual_review" ↔
      ∀ s, members.lookup "recommendation" = some (.str s) → s ≠ "approve" ∧ s ≠ "reject" := by
  constructor
  · intro h s hs
    have hkept : isOneOf recommendations (.str s) → keptRecommendation members = .str s := by
      intro hone
      simp only [keptRecommendation, get, hs, Option.getD_some, hone, if_true]
    constructor
    · rintro rfl
      exact absurd (Json.str.inj ((hkept (by decide)).symm.trans h)) (by decide)
    · rintro rfl
      exact absurd (Json.str.inj ((hkept (by decide)).symm.trans h)) (by decide)
  · intro h
    rcases keptRecommendation_cases members with hmanual | ⟨s, hs, hlookup, -⟩
    · exact hmanual
    · obtain ⟨happrove, hreject⟩ := h s hlookup
      exact absurd hs (by simp [happrove, hreject])

theorem keptRecommendation_mem (members : Dict) :
    ∃ s ∈ recommendations, keptRecommendation members = .str s := by
  rcases keptRecommendation_cases members with hmanual | ⟨s, hs, -, hkept⟩
  · exact ⟨_, by decide, hmanual⟩
  · exact ⟨s, by rcases hs with rfl | rfl <;> decide, hkept⟩

theorem valid_iff {text : String} (hloads : R.loads (unfenced text) = .value (.obj members)) :
    Valid R (.text text) ↔ satisfiesSchema members := by
  constructor
  · rintro ⟨text', members', htext, hloads', hschema⟩
    cases htext
    cases hloads.symm.trans hloads'
    exact hschema
  · intro hschema
    exact ⟨text, members, rfl, hloads, hschema⟩

/-- An object comes out right if and only if it satisfies the schema, or its members are the worst
ones, or its score raises and the proposal had the worst columns. -/
theorem safe_object (p : Proposal) {text : String}
    (hloads : R.loads (unfenced text) = .value (.obj members)) :
    Safe R (.text text) (validated R (.text text) p) ↔
      satisfiesSchema members ∨ WorstMembers R members ∨
        (¬ ∃ x, R.float (get members "risk_score" (.int 10)) = .ok x) ∧ WorstBefore p := by
  have hassess : assessUpdate R (.text text) = enforceDefaults R members := by
    simp only [assessUpdate, hloads]
  have hcases := enforceDefaults_cases R members
  cases hscore : R.float (get members "risk_score" (.int 10)) with
  | error e =>
    rw [hscore] at hcases
    have hno : ¬ satisfiesSchema members := by
      intro hschema
      obtain ⟨x, hx, -⟩ := score_of_schema (R := R) hschema
      cases hscore.symm.trans hx
    have hworst : ¬ WorstMembers R members := fun h => nomatch hscore.symm.trans h.riskScore
    rw [safe_of_error (assessed_error (hassess.trans hcases)) (mt (valid_iff hloads).mp hno)]
    simp [hno, hworst]
  | ok x =>
    rw [hscore] at hcases
    obtain ⟨d, hd, hrisk, hrecommendation, hbreaking⟩ := hcases
    have hfloat : R.float (get d "risk_score" (.int 10)) = .ok x := by
      rw [hrisk]
      rfl
    rw [validated_ok (hassess.trans hd) hfloat, hrecommendation, hbreaking]
    constructor
    · intro hsafe
      by_cases hschema : satisfiesSchema members
      · exact .inl hschema
      · obtain ⟨hmanual, htrue, hten⟩ := hsafe.worst (mt (valid_iff hloads).mp hschema)
        refine .inr (.inl ⟨(keptRecommendation_iff members).mp hmanual, ?_, htrue⟩)
        rw [hscore, Option.some.inj hten]
    · rintro (hschema | hworst | ⟨hnone, -⟩)
      · obtain ⟨q, hq, hrange⟩ := score_of_schema (R := R) hschema
        obtain rfl : x = .finite q := Except.ok.inj (hscore.symm.trans hq)
        exact ⟨keptRecommendation_mem members, ⟨q, rfl, hrange⟩,
          fun hinvalid => absurd ((valid_iff hloads).mpr hschema) hinvalid⟩
      · obtain rfl : x = .finite 10 := Except.ok.inj (hscore.symm.trans hworst.riskScore)
        exact ⟨keptRecommendation_mem members, ⟨10, rfl, by norm_num, by norm_num⟩,
          fun _ => ⟨(keptRecommendation_iff members).mpr hworst.recommendation,
            hworst.breakingChanges, rfl⟩⟩
      · exact absurd ⟨x, rfl⟩ hnone

end Objects

/-- One validated proposal. -/
theorem safe_validated_iff (R : Runtime) (p : Proposal) (answer : Answer) :
    Safe R answer (validated R answer p) ↔ ComesOutRight R p answer := by
  cases answer with
  | raised e => exact iff_of_true (safe_unavailable e) trivial
  | text text =>
    have hinvalid : (∀ members, R.loads (unfenced text) ≠ .value (.obj members)) →
        ¬ Valid R (.text text) := by
      rintro h ⟨text', members, htext, hloads, -⟩
      cases htext
      exact h members hloads
    simp only [ComesOutRight]
    cases hloads : R.loads (unfenced text) with
    | decodeError => exact iff_of_false (not_safe_malformed hloads) id
    | raised e =>
      have hassess : assessUpdate R (.text text) = .error e := by
        simp only [assessUpdate, hloads]
      exact safe_of_error (assessed_error hassess) (hinvalid (by simp [hloads]))
    | value v =>
      cases v with
      | obj members => exact safe_object p hloads
      | _ =>
        obtain ⟨e, hassess⟩ : ∃ e, assessUpdate R (.text text) = .error e := by
          rw [assessUpdate, hloads]
          exact ⟨_, rfl⟩
        exact safe_of_error (assessed_error hassess) (hinvalid (by simp [hloads]))

/-! ## The task -/

/-- A proposal that the task changes is one that it chose, as the loop left it. -/
theorem eq_validated {R : Runtime} {accepts : Proposal → Bool} {require : Bool}
    {selected : List ℕ} {answer : Proposal → Answer} {t : Table Proposal.id} {p q : Proposal}
    (hp : p ∈ t.rows) (hproposed : p.status = .proposed)
    (hq : q ∈ (aiValidateProposals R accepts require selected answer t).rows) (hid : q.id = p.id)
    (hvalidated : q.status = .aiValidated) : q = validated R (answer p) p := by
  unfold aiValidateProposals at hq
  split at hq
  · obtain ⟨p', hp', rfl⟩ := List.mem_map.mp hq
    have hsame : p' = p :=
      Table.eq_of_key hp' hp ((ite_validated_id R selected answer p').symm.trans hid)
    rw [hsame] at hvalidated ⊢
    split
    · rfl
    · rename_i hnot
      rw [if_neg hnot, hproposed] at hvalidated
      cases hvalidated
  · rw [Table.eq_of_key hq hp hid, hproposed] at hvalidated
    cases hvalidated

/-- Every proposal that the task validates is stored with columns in range, and with the worst
ones unless the answer is valid, if and only if each of them comes out right. -/
theorem validation_safe_iff (R : Runtime) (accepts : Proposal → Bool) (require : Bool)
    (selected : List ℕ) (answer : Proposal → Answer) (t : Table Proposal.id) :
    (∀ p ∈ t.rows, p.status = .proposed →
      ∀ q ∈ (aiValidateProposals R accepts require selected answer t).rows, q.id = p.id →
        q.status = .aiValidated → Safe R (answer p) q) ↔
    ∀ p ∈ t.rows, p.status = .proposed →
      ∀ q ∈ (aiValidateProposals R accepts require selected answer t).rows, q.id = p.id →
        q.status = .aiValidated → ComesOutRight R p (answer p) := by
  refine forall₂_congr fun p hp => forall_congr' fun hproposed => forall₂_congr fun q hq =>
    forall₂_congr fun hid hvalidated => ?_
  rw [eq_validated hp hproposed hq hid hvalidated, safe_validated_iff]

/-! ## A text that is no JSON -/

/-- No text is decoded or read as a float, and integers are exact. -/
def undecoding : Runtime where
  loads _ := .decodeError
  floatOfText text := .error ("could not convert string to float: " ++ text)
  floatOfInt n := .ok (.finite n)
  floatOfInt_small _ _ _ := rfl

def newProposal : Proposal where
  id := 1
  packageName := "jinja2"
  currentVersion := "3.1.2"
  targetVersion := "3.1.3"
  reason := "cve_fix"

/-- The proposal is stored without breaking changes. -/
theorem malformed_text_not_worst :
    ¬ ∀ p ∈ [newProposal], p.status = .proposed →
      ∀ q ∈ (aiValidateProposals undecoding (fun _ => true) true [1] (fun _ => .text "not-json")
        ⟨[newProposal], List.nodup_singleton _⟩).rows, q.id = p.id →
          q.status = .aiValidated → Safe undecoding (.text "not-json") q := by
  intro h
  have hsafe := h newProposal (List.mem_singleton.mpr rfl) rfl
    (validated undecoding (.text "not-json") newProposal) (List.mem_singleton.mpr rfl) rfl rfl
  exact not_safe_malformed rfl hsafe

end Kepryx.AiValidation
