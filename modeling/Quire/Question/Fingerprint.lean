import Quire.Question.Basic
import Quire.Text.Cut
import Quire.Digest

/-! Fingerprints of what questions are generated from.

The layout of a text does not matter, only its words in their order; and each of the parameters
matters. -/
namespace Quire.Fingerprint

/-- The words of a text with one blank between them. -/
def normalized (text : String) : String := " ".intercalate (Text.words text)

/-- The text that is hashed. -/
def subject (text : String) (p : QuestionParams) : String :=
  normalized text ++ Label.word p.questionType ++ toString p.count.toNat ++
    Label.word p.difficulty

/-- The fingerprint of a text and parameters. -/
def of (text : String) (p : QuestionParams) : String :=
  Digest.sha256 (subject text p).toUTF8.data.toList

end Quire.Fingerprint
