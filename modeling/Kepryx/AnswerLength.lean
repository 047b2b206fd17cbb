import Kepryx.CountRepairs
import Kepryx.LongestMatches

/-!
# The length of the repaired answer

The bound is applied before the repair. What the counts add to the length can be counted in the
text before the repair, phrase by phrase, since no phrase is found otherwise after the substitution
of another. What the percentages of the frameworks add is bounded by the number of percent signs,
which no substitution changes.
-/
namespace Kepryx.AssistantAnswers

open Regex
open ComplianceCatalog (isSpace frameworkCatalogs)

/-! ## Phrases apart from each other -/

/-- What the replacements of a phrase are longer than the matches that they stand for. -/
def phraseGrowth (s : Summary) (text : List Char) (p : Phrase) : ℤ :=
  ((found (countRepair s p).1 text).map fun w => ((countRepair s p).2.length : ℤ) - w.length).sum

/-- The same for all phrases, each one looked for in the same text. -/
def countGrowth (s : Summary) (text : List Char) : ℤ :=
  (phrases.map (phraseGrowth s text)).sum

/-- The number of percent signs in a text. -/
def percents (text : List Char) : ℕ := text.countP (· == '%')

namespace Rewrites

variable {bound : ℕ} {q : Regex × List Char}

end Rewrites

/-- What the two substitutions for each framework can add to a percent sign. -/
def frameworkGrowth (compliance : List (Framework × Percentage)) : ℕ :=
  (compliance.map fun (_, value) => 2 * value.text.length + 3).sum

/-- With what the counts and the percentages can add, the text keeps the bound. -/
def Fits (packet : Packet) (text : List Char) : Prop :=
  text.length + countGrowth packet.summary text +
    percents text * frameworkGrowth packet.compliance ≤ (maxAnswerLength : ℤ)

end Kepryx.AssistantAnswers
