import Mathlib.Data.List.Forall2
import Mathlib.Data.List.TakeWhile
import Kepryx.UpdateProposals

/-!
# The patch of the requirements

A line that starts with the package and one of six operators is replaced by an exact pin. Lines
that name the package in another way stay, and a marker of a replaced line is lost.
-/
namespace Kepryx.RequirementPatches
open Kepryx.SelfSecurity Kepryx.UpdateProposals
open Kepryx.AssetIntake (strip)
open Kepryx.ComplianceCatalog (isSpace)
open Kepryx.Redaction (lower)

/-! ## Requirement lines -/

/-- The characters that end a requirement name: those that begin the extras, an operator, a
marker or a comment. -/
def stops : List Char := ['[', '=', '!', '~', '<', '>', ';', '#']

/-- The line behind the name. -/
def tail (line : String) : List Char := line.toList.dropWhile (· ∉ stops)

/-- `name.lower().replace("_", "-")` -/
def normalize (name : String) : String := (lower name).map fun c => if c = '_' then '-' else c

def requirementName (line : String) : String :=
  normalize (strip (String.ofList (line.toList.takeWhile (· ∉ stops))))

/-- The text in the brackets that follow the name. -/
def extras (line : String) : Option String :=
  match tail line with
  | '[' :: cs => some (strip (String.ofList (cs.takeWhile (· ≠ ']'))))
  | _ => none

/-- The line behind the name and the extras. -/
def afterExtras (line : String) : List Char :=
  match tail line with
  | '[' :: cs => (cs.dropWhile (· ≠ ']')).drop 1
  | cs => cs

/-- The version specifier, without spaces. -/
def specifier (line : String) : String :=
  String.ofList (((afterExtras line).takeWhile (· ∉ [';', '#'])).filter (!isSpace ·))

/-- The environment marker. -/
def marker (line : String) : Option String :=
  match ((afterExtras line).takeWhile (· ≠ '#')).dropWhile (· ≠ ';') with
  | ';' :: cs => some (strip (String.ofList cs))
  | _ => none

/-! ## The patch -/

/-- A character of a normalised distribution name. -/
def isNameChar (c : Char) : Bool := c.isLower || c.isDigit || c = '-' || c = '.'

/-- A character of a version as `str` prints it. -/
def isVersionChar (c : Char) : Bool := c.isLower || c.isDigit || c = '.' || c = '!' || c = '+'

/-- An approved proposal as `_propose_updates` makes it: the name of a distribution in the form
that the scanner gives it, and a target that `str` printed. -/
structure ApprovedProposal extends UpdateProposal where
  approved : status = .approved
  name_chars : packageName.toList.all isNameChar
  target_chars : targetVersion.toList.all isVersionChar

/-- The line of the proposed text. -/
def newLine (p : UpdateProposal) (line : String) : String :=
  if pins p.packageName line then p.packageName ++ "==" ++ p.targetVersion else line

/-- The proposed text is made line by line, and the patch compares it with the file. -/
theorem prepareOneUpdate_text (lines : List String)
    (unifiedDiff : List String → List String → String) (p : UpdateProposal)
    (h : lines.any (pins p.packageName)) :
    (prepareOneUpdate (.text lines) unifiedDiff p).rollbackSnapshot.lookup "proposal_patch" =
      some (unifiedDiff lines (lines.map (newLine p))) := by
  simp only [prepareOneUpdate, h, if_true]
  rfl

/-- The line names the package of the proposal. -/
def Names (p : UpdateProposal) (line : String) : Prop :=
  requirementName line = normalize p.packageName

/-- The new line pins the package of the line to the target, with its extras and marker. -/
structure Pinned (p : UpdateProposal) (line new : String) : Prop where
  name : requirementName new = normalize p.packageName
  extras : extras new = extras line
  specifier : specifier new = "==" ++ p.targetVersion
  marker : marker new = marker line

/-- What a line becomes: a pin if it names the package, and otherwise itself. -/
def Repinned (p : UpdateProposal) (line new : String) : Prop :=
  (Names p line → Pinned p line new) ∧ (¬ Names p line → new = line)

/-- The package is found if and only if a line names it, and then every line of the proposed text
is what it should become. -/
structure Repins (p : UpdateProposal) (lines : List String)
    (unifiedDiff : List String → List String → String) : Prop where
  found : (prepareOneUpdate (.text lines) unifiedDiff p).status = .readyForPr ↔
    ∃ line ∈ lines, Names p line
  lines : (prepareOneUpdate (.text lines) unifiedDiff p).status = .readyForPr →
    List.Forall₂ (Repinned p) lines (lines.map (newLine p))

/-- Every line that names the package has no marker, or is passed over and pinned already; and
not all of them are passed over. -/
structure Plain (p : UpdateProposal) (lines : List String) : Prop where
  matched : ∀ line ∈ lines, Names p line → pins p.packageName line → marker line = none
  passed : ∀ line ∈ lines, Names p line → ¬ pins p.packageName line → Pinned p line line
  some_matched : (∃ line ∈ lines, Names p line) → ∃ line ∈ lines, pins p.packageName line

/-! ## Characters -/

/-- `c.lower()` -/
def lowerChar (c : Char) : Char := if c = '\u212a' then 'k' else c.toLower

theorem toList_lower (text : String) : (lower text).toList = text.toList.map lowerChar := by
  simp only [lower, String.toList_ofList]
  rfl

theorem isUpper_iff_val {c : Char} : c.isUpper ↔ c.val ≥ 'A'.val ∧ c.val ≤ 'Z'.val :=
  decide_eq_true_iff

theorem isUpper_iff {c : Char} : c.isUpper ↔ 65 ≤ c.toNat ∧ c.toNat ≤ 90 :=
  isUpper_iff_val.trans (and_congr UInt32.le_iff_toNat_le UInt32.le_iff_toNat_le)

theorem isLower_iff {c : Char} : c.isLower ↔ 97 ≤ c.toNat ∧ c.toNat ≤ 122 := by
  have h : c.isLower ↔ c.val ≥ 'a'.val ∧ c.val ≤ 'z'.val :=
    Bool.and_eq_true_iff.trans (and_congr decide_eq_true_iff decide_eq_true_iff)
  exact h.trans (and_congr UInt32.le_iff_toNat_le UInt32.le_iff_toNat_le)

theorem isDigit_iff {c : Char} : c.isDigit ↔ 48 ≤ c.toNat ∧ c.toNat ≤ 57 := by
  have h : c.isDigit ↔ c.val ≥ '0'.val ∧ c.val ≤ '9'.val :=
    Bool.and_eq_true_iff.trans (and_congr decide_eq_true_iff decide_eq_true_iff)
  exact h.trans (and_congr UInt32.le_iff_toNat_le UInt32.le_iff_toNat_le)

theorem toLower_of_not_isUpper {c : Char} (h : ¬ c.isUpper) : c.toLower = c :=
  dif_neg fun hval => h (isUpper_iff_val.mpr hval)

theorem isLower_toLower {c : Char} (h : c.isUpper) : c.toLower.isLower := by
  have hval : c.toLower.val = c.val + ('a'.val - 'A'.val) :=
    congrArg Char.val (dif_pos (isUpper_iff_val.mp h))
  have hrange := isUpper_iff.mp h
  have hlower : c.toLower.toNat = (c.toNat + 32) % 2 ^ 32 :=
    (congrArg UInt32.toNat hval).trans (UInt32.toNat_add _ _)
  exact isLower_iff.mpr (by omega)

/-- A visible character of ASCII is no space. -/
theorem isSpace_of_between {c : Char} (h : 33 ≤ c.toNat ∧ c.toNat ≤ 122) : isSpace c = false := by
  simp only [isSpace, Bool.or_eq_false_iff, Bool.and_eq_false_iff, decide_eq_false_iff_not]
  omega

theorem isSpace_of_isNameChar {c : Char} (h : isNameChar c) : isSpace c = false := by
  simp only [isNameChar, Bool.or_eq_true, decide_eq_true_eq, isLower_iff, isDigit_iff] at h
  refine isSpace_of_between ?_
  rcases h with ((h | h) | rfl) | rfl
  · omega
  · omega
  · decide
  · decide

/-- What ends a name is no character of a name, no capital and no space. -/
theorem of_stop {c : Char} (h : c ∈ stops) :
    isNameChar c = false ∧ c.isUpper = false ∧ isSpace c = false := by
  simp only [stops, List.mem_cons, List.not_mem_nil, or_false] at h
  rcases h with rfl | rfl | rfl | rfl | rfl | rfl | rfl | rfl <;> decide

theorem not_stop_of_isNameChar {c : Char} (h : isNameChar c) : c ∉ stops := by
  intro hstop
  exact Bool.false_ne_true ((of_stop hstop).1.symm.trans h)

theorem lowerChar_of_not_isUpper {c : Char} (hk : c ≠ '\u212a') (h : ¬ c.isUpper) :
    lowerChar c = c := by
  rw [lowerChar, if_neg hk, toLower_of_not_isUpper h]

theorem lowerChar_of_isNameChar {c : Char} (h : isNameChar c) : lowerChar c = c := by
  refine lowerChar_of_not_isUpper (fun hk => ?_) fun hupper => ?_
  · rw [hk] at h
    exact absurd h (by decide)
  · have hrange := isUpper_iff.mp hupper
    simp only [isNameChar, Bool.or_eq_true, decide_eq_true_eq, isLower_iff, isDigit_iff] at h
    rcases h with ((h | h) | rfl) | rfl
    · omega
    · omega
    · exact absurd hupper (by decide)
    · exact absurd hupper (by decide)

/-- Only letters become letters. -/
theorem eq_of_lowerChar {c d : Char} (h : lowerChar c = d) (hd : ¬ d.isLower) : c = d := by
  by_cases hk : c = '\u212a'
  · rw [hk] at h
    rw [← h] at hd
    exact absurd (by decide) hd
  · by_cases hupper : c.isUpper
    · rw [← h, lowerChar, if_neg hk] at hd
      exact absurd (isLower_toLower hupper) hd
    · exact (lowerChar_of_not_isUpper hk hupper).symm.trans h

/-- What becomes a character of a name neither ends a name nor is stripped. -/
theorem of_isNameChar_lowerChar {c : Char} (h : isNameChar (lowerChar c)) :
    c ∉ stops ∧ isSpace c = false := by
  by_cases hk : c = '\u212a'
  · rw [hk]
    decide
  · by_cases hupper : c.isUpper
    · have hrange := isUpper_iff.mp hupper
      refine ⟨fun hstop => ?_, isSpace_of_between (by omega)⟩
      exact Bool.false_ne_true ((of_stop hstop).2.1.symm.trans hupper)
    · rw [lowerChar_of_not_isUpper hk hupper] at h
      exact ⟨not_stop_of_isNameChar h, isSpace_of_isNameChar h⟩

/-! ## Stripped texts -/

theorem toList_strip (text : String) : (strip text).toList =
    ((text.toList.dropWhile isSpace).reverse.dropWhile isSpace).reverse := by
  simp only [strip, String.toList_ofList]

/-- A text is its stripped text between spaces. -/
theorem strip_between (text : String) : ∃ lead trail, text.toList =
    lead ++ (strip text).toList ++ trail ∧ (∀ c ∈ lead, isSpace c) ∧ ∀ c ∈ trail, isSpace c := by
  set rest := text.toList.dropWhile isSpace with hrest
  refine ⟨text.toList.takeWhile isSpace, (rest.reverse.takeWhile isSpace).reverse, ?_, ?_, ?_⟩
  · rw [toList_strip, ← hrest, List.append_assoc, ← List.reverse_append,
      List.takeWhile_append_dropWhile, List.reverse_reverse, hrest, List.takeWhile_append_dropWhile]
  · exact fun c hc => List.mem_takeWhile_imp hc
  · exact fun c hc => List.mem_takeWhile_imp (List.mem_reverse.mp hc)

/-- Spaces before a text without spaces are stripped. -/
theorem strip_lead {lead cs : List Char} (hlead : ∀ c ∈ lead, isSpace c)
    (hcs : ∀ c ∈ cs, isSpace c = false) :
    strip (String.ofList (lead ++ cs)) = String.ofList cs := by
  have hdrop : ∀ {xs : List Char}, (∀ c ∈ xs, isSpace c = false) → xs.dropWhile isSpace = xs := by
    intro xs hxs
    cases xs with
    | nil => rfl
    | cons c xs => exact List.dropWhile_cons_of_neg (by simp [hxs c List.mem_cons_self])
  rw [strip, String.toList_ofList, List.dropWhile_append_of_pos hlead, hdrop hcs,
    hdrop fun c hc => hcs c (List.mem_reverse.mp hc), List.reverse_reverse]

/-! ## The lines that the patch replaces -/

section Line
variable {p : ApprovedProposal} {line : String}

theorem map_lowerChar_name (p : ApprovedProposal) :
    p.packageName.toList.map lowerChar = p.packageName.toList := by
  refine (List.map_congr_left fun c hc => ?_).trans (List.map_id _)
  exact lowerChar_of_isNameChar (List.all_eq_true.mp p.name_chars c hc)

theorem operator_char {o : Char} (ho : o ∈ ['=', '>', '~', '<']) :
    ¬ o.isLower ∧ o ∈ stops ∧ o ≠ '[' := by
  simp only [List.mem_cons, List.not_mem_nil, or_false] at ho
  rcases ho with rfl | rfl | rfl | rfl <;> decide

/-- A replaced line is the package and an operator, after spaces. -/
theorem pins_shape (h : pins p.packageName line) : ∃ lead a o rest,
    line.toList = lead ++ (a ++ o :: rest) ∧ (∀ c ∈ lead, isSpace c) ∧
      a.map lowerChar = p.packageName.toList ∧ o ∈ ['=', '>', '~', '<'] := by
  obtain ⟨operator, hoperator, hprefix⟩ := List.any_eq_true.mp h
  have hhead : ∃ o ops, operator.toList = o :: ops ∧ o ∈ ['=', '>', '~', '<'] := by
    simp only [List.mem_cons, List.not_mem_nil, or_false] at hoperator
    rcases hoperator with rfl | rfl | rfl | rfl | rfl | rfl <;> exact ⟨_, _, rfl, by decide⟩
  obtain ⟨o, ops, hops, ho⟩ := hhead
  obtain ⟨t, ht⟩ := List.isPrefixOf_iff_prefix.mp hprefix
  rw [String.toList_append, toList_lower, toList_lower, map_lowerChar_name, hops,
    List.append_assoc, List.cons_append] at ht
  obtain ⟨a, behind, hstrip, ha, hbehind⟩ := List.map_eq_append_iff.mp ht.symm
  obtain ⟨o', rest, rfl, ho', -⟩ := List.map_eq_cons_iff.mp hbehind
  obtain rfl : o' = o := eq_of_lowerChar ho' (operator_char ho).1
  obtain ⟨lead, trail, hline, hlead, -⟩ := strip_between line
  refine ⟨lead, a, o', rest ++ trail, ?_, hlead, ha, ho⟩
  rw [hline, hstrip]
  simp only [List.append_assoc, List.cons_append]

theorem name_of_map {a : List Char} (h : a.map lowerChar = p.packageName.toList) :
    ∀ c ∈ a, c ∉ stops ∧ isSpace c = false := by
  intro c hc
  refine of_isNameChar_lowerChar (List.all_eq_true.mp p.name_chars _ ?_)
  rw [← h]
  exact List.mem_map.mpr ⟨c, hc, rfl⟩

/-- The name and the rest of a line that is the package and an operator, after spaces. -/
theorem split_line {lead a rest : List Char} {o : Char}
    (hline : line.toList = lead ++ (a ++ o :: rest)) (hlead : ∀ c ∈ lead, isSpace c)
    (ha : ∀ c ∈ a, c ∉ stops ∧ isSpace c = false) (ho : o ∈ stops) :
    requirementName line = normalize (String.ofList a) ∧ tail line = o :: rest := by
  have hspace : ∀ c, isSpace c → c ∉ stops := by
    intro c hc hstop
    exact Bool.false_ne_true ((of_stop hstop).2.2.symm.trans hc)
  have hpos : ∀ c ∈ lead ++ a, decide (c ∉ stops) = true := by
    intro c hc
    refine decide_eq_true ?_
    rcases List.mem_append.mp hc with hc | hc
    · exact hspace c (hlead c hc)
    · exact (ha c hc).1
  have hneg : ¬ decide (o ∉ stops) = true := by simpa using ho
  rw [← List.append_assoc] at hline
  constructor
  · rw [requirementName, hline, List.takeWhile_append_of_pos hpos,
      List.takeWhile_cons_of_neg (p := fun c => decide (c ∉ stops)) hneg, List.append_nil,
      strip_lead hlead fun c hc => (ha c hc).2]
  · rw [tail, hline, List.dropWhile_append_of_pos hpos,
      List.dropWhile_cons_of_neg (p := fun c => decide (c ∉ stops)) hneg]

theorem normalize_of_map {a : List Char} (h : a.map lowerChar = p.packageName.toList) :
    normalize (String.ofList a) = normalize p.packageName := by
  have hlower : lower (String.ofList a) = lower p.packageName := by
    rw [← String.toList_inj, toList_lower, toList_lower, String.toList_ofList, h,
      map_lowerChar_name]
  rw [normalize, hlower, normalize]

/-- The patch replaces only lines that name the package, and none of them has extras. -/
theorem names_of_pins (h : pins p.packageName line) :
    Names p.toUpdateProposal line ∧ extras line = none := by
  obtain ⟨lead, a, o, rest, hline, hlead, ha, ho⟩ := pins_shape h
  obtain ⟨-, hstop, hbracket⟩ := operator_char ho
  obtain ⟨hname, htail⟩ := split_line hline hlead (name_of_map ha) hstop
  refine ⟨hname.trans (normalize_of_map ha), ?_⟩
  rw [extras, htail]
  split
  · rename_i heq
    exact absurd (List.cons.inj heq).1 hbracket
  · rfl

end Line

/-! ## The new lines -/

theorem of_isVersionChar {c : Char} (h : isVersionChar c) :
    c ≠ ';' ∧ c ≠ '#' ∧ isSpace c = false := by
  simp only [isVersionChar, Bool.or_eq_true, decide_eq_true_eq, isLower_iff, isDigit_iff] at h
  have hrange : c.toNat = 33 ∨ c.toNat = 43 ∨ 46 ≤ c.toNat ∧ c.toNat ≤ 57 ∨ 97 ≤ c.toNat ∧
      c.toNat ≤ 122 := by
    rcases h with (((h | h) | rfl) | rfl) | rfl
    · exact .inr (.inr (.inr h))
    · exact .inr (.inr (.inl ⟨by omega, h.2⟩))
    · decide
    · decide
    · decide
  refine ⟨?_, ?_, ?_⟩
  · rintro rfl
    exact absurd hrange (by decide)
  · rintro rfl
    exact absurd hrange (by decide)
  · exact isSpace_of_between (by omega)

/-- The line that the patch writes. -/
def pin (p : ApprovedProposal) : String := p.packageName ++ "==" ++ p.targetVersion

section Pin
variable (p : ApprovedProposal)

theorem pin_split :
    requirementName (pin p) = normalize p.packageName ∧
      tail (pin p) = '=' :: '=' :: p.targetVersion.toList := by
  have hline : (pin p).toList =
      [] ++ (p.packageName.toList ++ '=' :: '=' :: p.targetVersion.toList) := by
    simp only [pin, String.toList_append, List.append_assoc, List.nil_append]
    rfl
  have hname : ∀ c ∈ p.packageName.toList, c ∉ stops ∧ isSpace c = false := by
    intro c hc
    have hc := List.all_eq_true.mp p.name_chars c hc
    exact ⟨not_stop_of_isNameChar hc, isSpace_of_isNameChar hc⟩
  obtain ⟨hsplit, htail⟩ := split_line hline (by simp) hname (by decide)
  rw [String.ofList_toList] at hsplit
  exact ⟨hsplit, htail⟩

/-- The characters behind the name of the written line. -/
theorem pin_chars : ∀ c ∈ '=' :: '=' :: p.targetVersion.toList,
    c ≠ ';' ∧ c ≠ '#' ∧ isSpace c = false := by
  intro c hc
  rcases List.mem_cons.mp hc with rfl | hc
  · decide
  · rcases List.mem_cons.mp hc with rfl | hc
    · decide
    · exact of_isVersionChar (List.all_eq_true.mp p.target_chars c hc)

theorem extras_pin : extras (pin p) = none := by
  rw [extras, (pin_split p).2]
  rfl

theorem afterExtras_pin : afterExtras (pin p) = '=' :: '=' :: p.targetVersion.toList := by
  rw [afterExtras, (pin_split p).2]
  rfl

theorem specifier_pin : specifier (pin p) = "==" ++ p.targetVersion := by
  have htake : ('=' :: '=' :: p.targetVersion.toList).takeWhile (· ∉ [';', '#']) =
      '=' :: '=' :: p.targetVersion.toList := by
    refine List.takeWhile_eq_self_iff.mpr fun c hc => ?_
    obtain ⟨hsemicolon, hhash, -⟩ := pin_chars p c hc
    simp [hsemicolon, hhash]
  have hfilter : ('=' :: '=' :: p.targetVersion.toList).filter (!isSpace ·) =
      '=' :: '=' :: p.targetVersion.toList := by
    refine List.filter_eq_self.mpr fun c hc => ?_
    simp [(pin_chars p c hc).2.2]
  rw [specifier, afterExtras_pin, htake, hfilter, ← String.toList_inj, String.toList_ofList,
    String.toList_append]
  rfl

theorem marker_pin : marker (pin p) = none := by
  have hdrop : ('=' :: '=' :: p.targetVersion.toList).dropWhile (· ≠ ';') = [] := by
    refine List.dropWhile_eq_nil_iff.mpr fun c hc => ?_
    simpa using (pin_chars p c hc).1
  have htake : ('=' :: '=' :: p.targetVersion.toList).takeWhile (· ≠ '#') =
      '=' :: '=' :: p.targetVersion.toList := by
    refine List.takeWhile_eq_self_iff.mpr fun c hc => ?_
    simpa using (pin_chars p c hc).2.1
  rw [marker, afterExtras_pin, htake, hdrop]

/-- The written line pins a line that has no marker. -/
theorem pinned_pin_iff {line : String} (h : pins p.packageName line) :
    Pinned p.toUpdateProposal line (pin p) ↔ marker line = none := by
  constructor
  · intro hpinned
    exact hpinned.marker.symm.trans (marker_pin p)
  · intro hmarker
    exact ⟨(pin_split p).1, (extras_pin p).trans (names_of_pins h).2.symm, specifier_pin p,
      (marker_pin p).trans hmarker.symm⟩

end Pin

/-! ## When the patch is right -/

/-- What one line becomes is right if and only if it is passed over as it should be, or has no
marker. -/
theorem repinned_newLine_iff (p : ApprovedProposal) (line : String) :
    Repinned p.toUpdateProposal line (newLine p.toUpdateProposal line) ↔
      (Names p.toUpdateProposal line → pins p.packageName line → marker line = none) ∧
      (Names p.toUpdateProposal line → ¬ pins p.packageName line →
        Pinned p.toUpdateProposal line line) := by
  by_cases hpins : pins p.packageName line
  · have hnew : newLine p.toUpdateProposal line = pin p := if_pos hpins
    have hnames := (names_of_pins hpins).1
    rw [Repinned, hnew, pinned_pin_iff p hpins]
    constructor
    · rintro ⟨hmarker, -⟩
      exact ⟨fun _ _ => hmarker hnames, fun _ hnot => absurd hpins hnot⟩
    · rintro ⟨hmarker, -⟩
      exact ⟨fun _ => hmarker hnames hpins, fun hnot => absurd hnames hnot⟩
  · have hnew : newLine p.toUpdateProposal line = line := if_neg hpins
    rw [Repinned, hnew]
    constructor
    · rintro ⟨hpinned, -⟩
      exact ⟨fun _ h => absurd h hpins, fun hnames _ => hpinned hnames⟩
    · rintro ⟨-, hpassed⟩
      exact ⟨fun hnames => hpassed hnames hpins, fun _ => rfl⟩

/-- The package is found if a line is matched. -/
theorem readyForPr_iff (p : ApprovedProposal) (lines : List String)
    (unifiedDiff : List String → List String → String) :
    (prepareOneUpdate (.text lines) unifiedDiff p.toUpdateProposal).status = .readyForPr ↔
      ∃ line ∈ lines, pins p.packageName line := by
  simp only [prepareOneUpdate, ← List.any_eq_true]
  split
  · rename_i hany
    simp [hany]
  · rename_i hany
    simp [hany]

/-- The patch repins the package and nothing else if and only if the lines that name the package
are written plainly. -/
theorem repins_iff (p : ApprovedProposal) (lines : List String)
    (unifiedDiff : List String → List String → String) :
    Repins p.toUpdateProposal lines unifiedDiff ↔ Plain p.toUpdateProposal lines := by
  have hlines : List.Forall₂ (Repinned p.toUpdateProposal) lines
      (lines.map (newLine p.toUpdateProposal)) ↔
      ∀ line ∈ lines, Repinned p.toUpdateProposal line (newLine p.toUpdateProposal line) := by
    rw [List.forall₂_map_right_iff, List.forall₂_same]
  constructor
  · rintro ⟨hfound, hrepinned⟩
    rw [readyForPr_iff] at hfound hrepinned
    have hline : ∀ line ∈ lines, Names p.toUpdateProposal line →
        Repinned p.toUpdateProposal line (newLine p.toUpdateProposal line) := by
      intro line hmem hnames
      exact hlines.mp (hrepinned (hfound.mpr ⟨line, hmem, hnames⟩)) line hmem
    refine ⟨fun line hmem hnames => ?_, fun line hmem hnames => ?_, hfound.mpr⟩
    · exact ((repinned_newLine_iff p line).mp (hline line hmem hnames)).1 hnames
    · exact ((repinned_newLine_iff p line).mp (hline line hmem hnames)).2 hnames
  · rintro ⟨hmatched, hpassed, hsome⟩
    constructor
    · rw [readyForPr_iff]
      refine ⟨?_, hsome⟩
      rintro ⟨line, hmem, hpins⟩
      exact ⟨line, hmem, (names_of_pins hpins).1⟩
    · intro _
      refine hlines.mpr fun line hmem => (repinned_newLine_iff p line).mpr ?_
      exact ⟨hmatched line hmem, hpassed line hmem⟩

/-- A proposal for a direct requirement of the server. -/
def uvicorn : ApprovedProposal where
  id := 1
  dependencyId := 1
  packageName := "uvicorn"
  currentVersion := "0.32.0"
  targetVersion := "0.40.0"
  reason := "cve_fix"
  status := .approved
  approved := rfl
  name_chars := by decide
  target_chars := by decide

/-- The requirement with an extra is reported as absent. -/
theorem extras_not_found : ¬ Repins uvicorn.toUpdateProposal
    ["fastapi==0.141.1", "uvicorn[standard]>=0.32,<1"] fun _ _ => "" := by
  rintro ⟨hfound, -⟩
  have hnames : Names uvicorn.toUpdateProposal "uvicorn[standard]>=0.32,<1" := by
    unfold Names
    decide +kernel
  have hready := hfound.mpr ⟨_, List.mem_cons_of_mem _ List.mem_cons_self, hnames⟩
  exact absurd hready (by decide +kernel)

end Kepryx.RequirementPatches
