import Kepryx.AssistantAnswers
import Kepryx.RequirementPatches

/-!
# Counts and phrases in a text

What the texts look like that the repair of known facts looks for: a count has no space, a phrase
begins with one, and no count and no name of a framework begins inside of a phrase.
-/
namespace Kepryx.AssistantAnswers

open Regex
open ComplianceCatalog (isSpace)
open NmapXml (decimalZeros decimalValue)

/-! ## Digits, spaces and letters -/

/-- The counts that are written as words. -/
def countWords : List (List Char) := ["zero".toList, "no".toList, "none".toList]

end Kepryx.AssistantAnswers
