import RepoAudit.Score
import RepoAudit.Text.Basic

/-!
# Executive summaries

One paragraph about the outcome of a scan: what was found, that the repository could not be reached, or
that the scan was cut short.
-/

namespace RepoAudit.Summary

/-- A score at or below this one is weak. -/
def weakScore : Int := 4

/-- The number of findings of a severity. -/
def count (severity : Severity) (findings : List Finding) : Nat :=
  (findings.filter (Finding.hasSeverity severity)).length

/-- The sentence that urges action on critical findings, if there are any. -/
def urgency (criticals : Nat) : String :=
  if criticals = 0 then ""
  else s!"Immediate attention required for {criticals} critical finding(s) that pose " ++
    "significant security or stability risks. "

/-- The summary of a finished scan. The sentence about the deployment pipeline appears when no finding
is about the pipeline. -/
def finished (owner repo : String) (findings : List Finding) (scores : Scores) : String :=
  let criticals := count .critical findings
  s!"Automated scan of {owner}/{repo} identified {findings.length} issues: " ++
    s!"{criticals} critical, {count .high findings} high, {count .medium findings} medium severity. " ++
    s!"Overall health score: {scores.mean}/10. " ++
    urgency criticals ++
    (if scores.security ≤ weakScore then "Security posture needs significant improvement. " else "") ++
    (if scores.stability ≤ weakScore then
      "Build stability is at risk due to configuration or dependency issues. " else "") ++
    (if findings.any (·.category == Category.cicd.name) then ""
      else "CI/CD is not configured, leaving the deployment pipeline unprotected.")

/-- A reason on one line without full stops at its end; nothing when no text is left to show. -/
def shownReason (reason : Option String) : Option String :=
  (reason.map fun text => Text.dropEndChar '.' (Text.collapse text)).filter (!·.isEmpty)

/-- What is said of a repository that cannot be reached. -/
def unreachableText : String :=
  "Unable to access this repository. Please ensure the repo exists and the GitHub " ++
    "connection has access."

/-- The summary of a scan that did not find its repository. -/
def unreachable (reason : Option String) : String :=
  match shownReason reason with
  | some details => s!"{unreachableText} (Details: {details}.)"
  | none => unreachableText

/-- The summary of a scan that was cut short. -/
def interrupted (reason : Option String) : String :=
  let details := (shownReason reason).getD "unknown error"
  s!"Scan encountered an error: {details}. Some results may be incomplete."

end RepoAudit.Summary
