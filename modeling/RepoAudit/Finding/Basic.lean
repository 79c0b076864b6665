/-!
# Findings

A finding is one detected issue with its guidance. The known categories, severities, efforts and
workflow states are enumerated here; a finding stores their names, because a finding that a person
enters may carry any other word.
-/

namespace RepoAudit

/-- The areas that are scored. -/
inductive Category where
  | security
  | stability
  | maintainability
  | scalability
  | cicd
  deriving DecidableEq, Repr

namespace Category

/-- The name of a category. -/
def name : Category → String
  | security => "security"
  | stability => "stability"
  | maintainability => "maintainability"
  | scalability => "scalability"
  | cicd => "cicd"

/-- All categories, in the order in which they are listed. -/
def all : List Category := [security, stability, maintainability, scalability, cicd]

end Category

/-- The known severities. -/
inductive Severity where
  | critical
  | high
  | medium
  | low
  deriving DecidableEq, Repr

namespace Severity

/-- The name of a severity. -/
def name : Severity → String
  | critical => "critical"
  | high => "high"
  | medium => "medium"
  | low => "low"

/-- All severities, the highest risk first. -/
def all : List Severity := [critical, high, medium, low]

/-- The severity of a name. -/
def ofName? (name : String) : Option Severity := all.find? (·.name == name)

end Severity

/-- How much work a fix takes: small, medium or large. -/
inductive Effort where
  | small
  | medium
  | large
  deriving DecidableEq, Repr

namespace Effort

/-- The letter of an effort. -/
def name : Effort → String
  | small => "S"
  | medium => "M"
  | large => "L"

/-- All efforts, the least first. -/
def all : List Effort := [small, medium, large]

end Effort

/-- The states in which the handling of a finding can be. -/
inductive Handling where
  | «open»
  | acknowledged
  | resolved
  | wontFix
  deriving DecidableEq, Repr

namespace Handling

/-- The name of a state. -/
def name : Handling → String
  | «open» => "open"
  | acknowledged => "acknowledged"
  | resolved => "resolved"
  | wontFix => "wont_fix"

/-- All states. -/
def all : List Handling := [«open», acknowledged, resolved, wontFix]

end Handling

/-- One detected issue with its guidance. -/
structure Finding where
  category : String
  severity : String
  title : String
  description : String
  businessImpact : String
  fixSteps : String
  effort : String := "S"
  filePath : Option String := none
  lineStart : Option Int := none
  lineEnd : Option Int := none
  snippet : Option String := none
  status : String := "open"
  autoDetected : Bool := true
  id : Option String := none
  auditId : Option String := none
  deriving DecidableEq, Repr

namespace Finding

/-- What makes two detections the same issue: the title and the file. -/
abbrev Signature := String × Option String

/-- The signature of a finding. -/
def signature (finding : Finding) : Signature := (finding.title, finding.filePath)

/-- True of a finding of the severity. -/
def hasSeverity (severity : Severity) (finding : Finding) : Bool :=
  finding.severity == severity.name

end Finding

end RepoAudit
