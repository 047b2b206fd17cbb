import Kepryx.Substitution
import Kepryx.ComplianceCatalog
import Kepryx.Redaction

/-!
# The patterns of secrets

`SECRET_PATTERNS` and the substitutions of `_redact_string`. The replacement begins and ends with
an asterisk, and what stands between two asterisks of it is shorter than any secret, so that no
substitution completes a match of another pattern.
-/
namespace Kepryx.SecretPatterns

open Kepryx.Redaction Regex

/-! ## The six patterns -/

/-- `[A-Za-z0-9_-]` -/
def tokenChar (c : Char) : Bool := c.isAlphanum || c = '_' || c = '-'

/-- `[0-9A-Z]` -/
def upperOrDigit (c : Char) : Bool := c.isDigit || c.isUpper

/-- `[A-Z ]` -/
def upperOrSpace (c : Char) : Bool := c.isUpper || c = ' '

/-- `[A-Za-z0-9_.-]` in any case. -/
def bearerChar (c : Char) : Bool := tokenChar (foldCase c) || c = '.'

/-- Kepryx API tokens. -/
def kpxToken : Regex := .seq (lit "kpx_".toList) (atLeast tokenChar 32)

/-- Anthropic keys. -/
def anthropicKey : Regex := .seq (lit "sk-ant-".toList) (atLeast tokenChar 20)

/-- AWS access keys. -/
def awsAccessKey : Regex := .seq (lit "AKIA".toList) (exactly upperOrDigit 16)

def beginMarker : Regex :=
  seqs [lit "-----BEGIN ".toList, plus upperOrSpace, lit "PRIVATE KEY-----".toList]

def endMarker : Regex :=
  seqs [lit "-----END ".toList, plus upperOrSpace, lit "PRIVATE KEY-----".toList]

/-- PEM private keys. -/
def privateKey : Regex := .seq beginMarker (.seq (lazyPlus fun _ => true) endMarker)

def jwt : Regex :=
  seqs [lit "eyJ".toList, atLeast tokenChar 20, lit ".".toList, atLeast tokenChar 20,
    lit ".".toList, atLeast tokenChar 20]

def bearerToken : Regex :=
  seqs [litAnyCase "Bearer".toList, plus ComplianceCatalog.isSpace, atLeast bearerChar 20]

/-- `SECRET_PATTERNS` -/
def secretPatterns : List Regex :=
  [kpxToken, anthropicKey, awsAccessKey, privateKey, jwt, bearerToken]

def redacted : List Char := "***REDACTED***".toList

/-- The substitutions of `_redact_string`. -/
def replaceSecrets (text : String) : String :=
  String.ofList (subAll secretPatterns redacted text.toList)

/-- The primitives of the redaction, with the digest as a parameter. -/
def primitives (sha256 : String → String) : Primitives := ⟨sha256, replaceSecrets⟩

/-- A text in which a secret is found. -/
def HasSecret (text : List Char) : Prop := ∃ p ∈ secretPatterns, p.Occurs text

instance (text : List Char) : Decidable (HasSecret text) :=
  inferInstanceAs (Decidable (∃ p ∈ secretPatterns, p.Occurs text))

/-! ## Patterns and the replacement -/

theorem fence_redacted : Fence ['*'] 8 redacted :=
  ⟨⟨'*', rfl, List.mem_singleton_self _⟩, by decide⟩

/-- A pattern without asterisks that is longer than the word between them. -/
theorem solid_of {r : Regex} (hplain : r.plain = true) (hstar : r.admits '*' = false)
    (hlong : 8 < r.minLength) : Solid ['*'] 8 r where
  plain := hplain
  admits := List.forall_mem_singleton.mpr hstar
  long := hlong

theorem fenceproof_secretPatterns : ∀ p ∈ secretPatterns, Fenceproof ['*'] 8 p := by
  have hbegin : Solid ['*'] 8 beginMarker := solid_of rfl (by decide) (by decide)
  have hend : Solid ['*'] 8 endMarker := solid_of rfl (by decide) (by decide)
  simp only [secretPatterns, List.forall_mem_cons]
  refine ⟨.solid (solid_of rfl ?_ ?_), .solid (solid_of rfl ?_ ?_), .solid (solid_of rfl ?_ ?_),
    .between hbegin hend, .solid (solid_of rfl ?_ ?_), .solid (solid_of rfl ?_ ?_),
    List.forall_mem_nil _⟩
  all_goals decide

theorem minLength_secretPatterns : ∀ p ∈ secretPatterns, 8 ≤ p.minLength := by decide

/-! ## The redaction -/

/-- The shortest texts are not looked at, and have no room for a secret. -/
theorem not_hasSecret_of_short {text : List Char} (h : text.length < 8) : ¬ HasSecret text := by
  rintro ⟨p, hp, u, w, v, rfl, hm⟩
  have hle := Nat.le_trans (minLength_secretPatterns p hp) (minLength_le hm)
  simp only [List.length_append] at h
  omega

theorem not_hasSecret_replaceSecrets (text : String) :
    ¬ HasSecret (replaceSecrets text).toList := by
  rintro ⟨p, hp, h⟩
  rw [replaceSecrets, String.toList_ofList] at h
  exact not_occurs_subAll fence_redacted fenceproof_secretPatterns text.toList p hp h

theorem replaceSecrets_of_not_hasSecret {text : String} (h : ¬ HasSecret text.toList) :
    replaceSecrets text = text := by
  rw [replaceSecrets, subAll_of_not_occurs, String.ofList_toList]
  · exact fun p hp => (fenceproof_secretPatterns p hp).minLength_pos
  · exact fun p hp hoccurs => h ⟨p, hp, hoccurs⟩

variable (sha256 : String → String)

theorem not_hasSecret_redactString (text : String) :
    ¬ HasSecret (redactString (primitives sha256) text).toList := by
  unfold redactString
  split_ifs with hshort
  · exact not_hasSecret_of_short (by rwa [String.length_toList])
  · exact not_hasSecret_replaceSecrets text

theorem redactString_of_not_hasSecret {text : String} (h : ¬ HasSecret text.toList) :
    redactString (primitives sha256) text = text := by
  unfold redactString
  split_ifs
  · rfl
  · exact replaceSecrets_of_not_hasSecret h

/-- A redacted text has no match of a secret pattern, and a second redaction changes nothing. -/
theorem redactString_clean_stable (text : String) :
    (∀ p ∈ secretPatterns, ¬ p.Occurs (redactString (primitives sha256) text).toList) ∧
      redactString (primitives sha256) (redactString (primitives sha256) text) =
        redactString (primitives sha256) text := by
  have hclean := not_hasSecret_redactString sha256 text
  exact ⟨fun p hp h => hclean ⟨p, hp, h⟩, redactString_of_not_hasSecret sha256 hclean⟩

example : replaceSecrets "auth: bearer abcdefghijklmnopqrst, ok" = "auth: ***REDACTED***, ok" := by
  decide +kernel

end Kepryx.SecretPatterns
