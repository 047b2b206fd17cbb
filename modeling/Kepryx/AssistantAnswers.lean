import Kepryx.Occurrences
import Kepryx.SecretPatterns
import Kepryx.NmapXml

/-!
# The answers of the assistant

An answer of the provider is redacted and cut, and then its counts and percentages are replaced by
those of the evidence packet, one pattern after the other.
-/
namespace Kepryx.AssistantAnswers

open Regex
open ComplianceCatalog (isSpace frameworkCatalogs)
open SecretPatterns (tokenChar upperOrDigit)
open NmapXml (decimalValue)

/-! ## Characters -/

/-- `\d` -/
def digit (c : Char) : Bool := (decimalValue c).isSome

/-- `\w`, with the letters and digits beyond ASCII of the Unicode tables as a parameter. -/
def word (wide : Char → Bool) (c : Char) : Bool :=
  digit c || c.isAlphanum || c == '_' || wide c

/-- `\s+` -/
def spaces : Regex := plus isSpace

/-- `text.strip()` -/
def strip (text : List Char) : List Char :=
  ((text.dropWhile isSpace).reverse.dropWhile isSpace).reverse

/-! ## The evidence packet -/

/-- The counts of `build_evidence_packet`. -/
structure Summary where
  assets : ℕ
  criticalAssets : ℕ
  highAssets : ℕ
  shadowAssets : ℕ
  openAlerts : ℕ
  kevCves : ℕ

/-- `compliance_pct`: a whole number, or one with decimals. -/
structure Percentage where
  whole : ℕ
  decimals : List Char
  digits : ∀ c ∈ decimals, c.isDigit = true

/-- The text of a percentage in an f-string. -/
def Percentage.text (p : Percentage) : List Char :=
  p.whole.repr.toList ++ if p.decimals = [] then [] else '.' :: p.decimals

/-- A framework that results are stored for. -/
abbrev Framework : Type := { name : String // name ∈ frameworkCatalogs.map Prod.fst }

/-- The values of the packet that are put into an answer. -/
structure Packet where
  summary : Summary
  compliance : List (Framework × Percentage)

/-! ## The repair of known facts -/

/-- What the counts of the summary are counts of. -/
inductive Phrase where
  | criticalAssets | highAssets | shadowAssets | openAlerts | kevCves | totalAssets
  deriving DecidableEq

/-- `assets?` -/
def assets : Regex := .seq (litAnyCase "asset".toList) (opt (litAnyCase "s".toList))

/-- `(?:[- ]risk)?\s+assets?` -/
def riskAssets : Regex :=
  .seq (opt (.seq (.char fun c => c == '-' || c == ' ') (litAnyCase "risk".toList)))
    (.seq spaces assets)

/-- The words of a phrase, in any case. -/
def Phrase.words : Phrase → Regex
  | .criticalAssets => .seq (litAnyCase "critical".toList) riskAssets
  | .highAssets => .seq (litAnyCase "high".toList) riskAssets
  | .shadowAssets => .seq (litAnyCase "shadow".toList) (.seq spaces assets)
  | .openAlerts => .seq (litAnyCase "open".toList)
      (.seq spaces (.seq (litAnyCase "alert".toList) (opt (litAnyCase "s".toList))))
  | .kevCves => .seq (litAnyCase "KEV".toList)
      (.seq spaces (.seq (litAnyCase "CVE".toList) (opt (litAnyCase "s".toList))))
  | .totalAssets => .seq (opt (.seq (litAnyCase "total".toList) spaces)) assets

/-- What follows a count. -/
def Phrase.tail (p : Phrase) : Regex := .seq spaces p.words

/-- What follows the count in a replacement. -/
def Phrase.text : Phrase → List Char
  | .criticalAssets => " critical assets".toList
  | .highAssets => " high-risk assets".toList
  | .shadowAssets => " shadow assets".toList
  | .openAlerts => " open alerts".toList
  | .kevCves => " KEV CVEs".toList
  | .totalAssets => " total assets".toList

/-- The value that the packet has for a phrase. -/
def Summary.count (s : Summary) : Phrase → ℕ
  | .criticalAssets => s.criticalAssets
  | .highAssets => s.highAssets
  | .shadowAssets => s.shadowAssets
  | .openAlerts => s.openAlerts
  | .kevCves => s.kevCves
  | .totalAssets => s.assets

/-- The value as it is printed. -/
def Summary.number (s : Summary) (p : Phrase) : List Char := (s.count p).repr.toList

/-- `(?:\d+|zero|no|none)` -/
def counted : Regex := .alt (plus digit)
  (.alt (litAnyCase "zero".toList) (.alt (litAnyCase "no".toList) (litAnyCase "none".toList)))

/-- The phrases in the order of `replacements`. -/
def phrases : List Phrase :=
  [.criticalAssets, .highAssets, .shadowAssets, .openAlerts, .kevCves, .totalAssets]

/-- A pattern of `replacements` with its replacement. -/
def countRepair (s : Summary) (p : Phrase) : Regex × List Char :=
  (.seq counted p.tail, s.number p ++ p.text)

/-- `\d+(?:\.\d+)?%` -/
def percent : Regex :=
  .seq (plus digit) (.seq (opt (.seq (lit ['.']) (plus digit))) (lit ['%']))

def maxAnswerLength : ℕ := 3000

/-- The patterns of `_redact_output`. -/
def credentials (wide : Char → Bool) : List (Regex × List Char) :=
  let b : Regex := .boundary (word wide)
  [(seqs [b, litAnyCase "Bearer".toList, spaces,
      plus fun c => (foldCase c).isAlphanum || c ∈ "._~+/=-".toList],
    "Bearer [redacted]".toList),
   (seqs [b, lit "AKIA".toList, exactly upperOrDigit 16, b], "[redacted-access-key]".toList),
   (seqs [b, .alt (lit "sk-".toList) (.alt (lit "ghp_".toList)
      (.alt (lit "glpat-".toList) (lit "xoxb-".toList))), atLeast tokenChar 12, b],
    "[redacted-token]".toList),
   (seqs [b, lit "eyJ".toList, plus tokenChar, lit ['.'], plus tokenChar, lit ['.'],
      plus fun c => tokenChar c || c = '.', b],
    "[redacted-jwt]".toList)]

end Kepryx.AssistantAnswers
