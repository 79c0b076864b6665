import RepoAudit.Finding.Basic
import RepoAudit.Number.Amount
import RepoAudit.Store.Record

/-!
# Groups of findings

Findings are grouped by severity: the known severities come first, the highest risk first, then the others
in the order in which they appear. A severity without findings has no group, and the findings of a group
keep their order.
-/

namespace RepoAudit.Report

/-- A severity with its findings. -/
structure Group where
  severity : Json
  findings : List FindingRecord
  deriving Repr

namespace Group

/-- True of values that name the same severity: equal texts, the same amount, or both `null`. -/
def sameSeverity : Json → Json → Bool
  | .text s, .text t => s == t
  | .null, .null => true
  | a, b =>
    match Amount.ofJson? a, Amount.ofJson? b with
    | some x, some y => x.same y
    | _, _ => false

/-- The known severities. -/
def known : List Json := Severity.all.map fun severity => .text severity.name

/-- The severities that may have findings, in the order of their groups. -/
def severities (findings : List FindingRecord) : List Json :=
  (known ++ findings.map (·.severity)).eraseDupsBy sameSeverity

/-- The findings of a severity. -/
def ofSeverity (findings : List FindingRecord) (severity : Json) : Group :=
  ⟨severity, findings.filter fun finding => sameSeverity severity finding.severity⟩

/-- The groups of a list of findings. -/
def ofFindings (findings : List FindingRecord) : List Group :=
  ((severities findings).map (ofSeverity findings)).filter fun group => !group.findings.isEmpty

/-- True of a value that can name a severity. -/
def canName : Json → Bool
  | .array _ => false
  | .object _ => false
  | _ => true

end Group

end RepoAudit.Report
