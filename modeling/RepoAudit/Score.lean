import RepoAudit.Finding.Basic
import RepoAudit.Number.Double

/-!
# Health scores

Each category starts at ten, loses a penalty for every finding of the category, and is rounded and
held between zero and ten. Penalties are doubles and are subtracted one at a time, so a score can
differ from the score of the exact sum of the penalties.
-/

namespace RepoAudit

/-- The scores of the five categories. -/
structure Scores where
  security : Int := 10
  stability : Int := 10
  maintainability : Int := 10
  scalability : Int := 10
  cicd : Int := 10
  deriving DecidableEq, Repr

namespace Scores

/-- The scores given by a function on the categories. -/
def ofFunction (f : Category → Int) : Scores :=
  ⟨f .security, f .stability, f .maintainability, f .scalability, f .cicd⟩

/-- The score of a category. -/
def get (scores : Scores) : Category → Int
  | .security => scores.security
  | .stability => scores.stability
  | .maintainability => scores.maintainability
  | .scalability => scores.scalability
  | .cicd => scores.cicd

/-- The greatest score, with which every category starts. -/
def greatest : Int := 10

/-- The least score. -/
def least : Int := 0

/-- What a finding of the severity costs. -/
def penalty (severity : String) : Double :=
  match Severity.ofName? severity with
  | some .critical => Double.ofRatio false 3 1
  | some .high => Double.ofRatio false 2 1
  | some .medium => Double.ofRatio false 1 1
  | some .low => Double.ofRatio false 3 10
  | none => Double.ofRatio false 1 2

/-- What is left of the start after the penalties of the findings of a category, in order. -/
def remainder (category : Category) (findings : List Finding) : Double :=
  (findings.filter (·.category == category.name)).foldl
    (fun total finding => total.sub (penalty finding.severity)) (Double.ofInt greatest)

/-- An integer moved into the range of scores. -/
def clamp (n : Int) : Int := max least (min greatest n)

/-- The nearest integer, a half going up; zero for a value that has none. -/
def nearest (x : Double) : Int := (Double.roundHalfUp x).toOption.getD 0

/-- The score of a category. -/
def ofCategory (category : Category) (findings : List Finding) : Int :=
  clamp (nearest (remainder category findings))

/-- The scores of a list of findings. -/
def ofFindings (findings : List Finding) : Scores :=
  ofFunction fun category => ofCategory category findings

-- The sum of no scores is the core zero, also where an algebra library brings its own.
attribute [local instance (high)] Zero.ofOfNat0

/-- The sum of the scores. -/
def sum (scores : Scores) : Int := (Category.all.map scores.get).sum

/-- The mean of the scores before it is rounded. -/
def average (scores : Scores) : Double :=
  Double.ofRatio (scores.sum < 0) scores.sum.natAbs Category.all.length

/-- The mean of the scores, a half going up. -/
def mean (scores : Scores) : Int := nearest scores.average

end Scores

end RepoAudit
