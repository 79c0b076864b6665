import RepoAudit.Number.Shortest
import RepoAudit.Report.Basic
import RepoAudit.Text.Basic
import RepoAudit.Text.Case

/-!
# Reports in Markdown

The text of a report: a title, the facts of the audit, the summary, the scores, the plan and the findings
by severity. A part that has nothing to tell is left out, and the text ends with one line break.
-/

namespace RepoAudit.Report

/-- A line. -/
def line (text : String) : String := text ++ "\n"

/-- Lines that stand only if there is a value. -/
def whenTruthy (value : Json) (text : String) : String := if value.isTruthy then text else ""

/-- A value in the font of code. -/
def code (value : Json) : String := "`" ++ value.display ++ "`"

/-- A language with its share. -/
def shareText (language : String × Double) : String :=
  language.1 ++ " (" ++ language.2.text ++ "%)"

/-- The facts of a repository. -/
def repositoryText (report : Report) : String :=
  let snapshot := report.audit.repoMeta
  whenTruthy snapshot <|
    line ("- Default branch: " ++ code (snapshot.getD "default_branch")) ++
    line ("- Stars: " ++ (snapshot.getD "stars").display ++ " · Forks: " ++
      (snapshot.getD "forks").display ++ " · Open issues: " ++
      (snapshot.getD "open_issues").display) ++
    whenTruthy (snapshot.getD "description")
      (line ("- Description: " ++ (snapshot.getD "description").display)) ++
    if report.languages.isEmpty then ""
    else line ("- Languages: " ++ ", ".intercalate (report.languages.map shareText))

/-- The title and the facts of an audit. -/
def headText (report : Report) : String :=
  let audit := report.audit
  line ("# CodeScope report: " ++ audit.fullName) ++ line "" ++
  line ("- Repository: " ++ audit.repoUrl.display) ++
  line ("- Status: " ++ audit.status.display) ++
  whenTruthy audit.scannedAt (line ("- Scanned at: " ++ audit.scannedAt.display)) ++
  repositoryText report ++ line ""

/-- What stands in place of a missing summary. -/
def noSummary : String := "No summary available."

/-- The summary. -/
def summaryText (report : Report) : String :=
  line "## Executive summary" ++ line "" ++
  line (report.audit.executiveSummary.orElse (.text noSummary)).display ++ line ""

/-- The row of a score. -/
def scoreText (score : String × Json) : String :=
  line ("| " ++ score.1 ++ " | " ++ score.2.display ++ "/10 |")

/-- The scores. -/
def scoresText (report : Report) : String :=
  match report.scores with
  | none => ""
  | some (scores, mean) =>
    line "## Health scores" ++ line "" ++ line "| Category | Score |" ++ line "| --- | --- |" ++
    String.join (scores.map scoreText) ++
    line ("| **Overall** | **" ++ toString mean ++ "/10** |") ++ line ""

/-- A phase of the plan. -/
def phaseText (phase : Phase) : String :=
  line ("### " ++ phase.name ++ " (" ++ phase.days ++ ")") ++ line "" ++
  String.join (phase.tasks.map fun task => line ("- " ++ task)) ++ line ""

/-- The plan. -/
def planText (report : Report) : String :=
  if report.plan.isEmpty then ""
  else
    line "## Remediation plan" ++ line "" ++ String.join (report.plan.map phaseText)

/-- The lines of a finding, if it has any. -/
def spanText (finding : FindingRecord) : String :=
  whenTruthy finding.lineStart <|
    " (lines " ++ finding.lineStart.display ++ "-" ++
      (finding.lineEnd.orElse finding.lineStart).display ++ ")"

/-- A finding. -/
def findingText (finding : FindingRecord) : String :=
  line ("#### " ++ finding.title.display) ++ line "" ++
  line ("- Category: " ++ finding.category.display ++ " · Effort: " ++ finding.effort.display ++
    if finding.autoDetected.isTruthy then "" else " · Added manually") ++
  whenTruthy finding.filePath
    (line ("- Location: " ++ code finding.filePath ++ spanText finding)) ++ line "" ++
  line finding.description.display ++ line "" ++
  line ("**Impact:** " ++ finding.businessImpact.display) ++ line "" ++
  line ("**Fix:** " ++ finding.fixSteps.display) ++ line "" ++
  whenTruthy finding.snippet
    (line "```" ++ line finding.snippet.display ++ line "```" ++ line "")

/-- A group of findings under its severity and their number. -/
def groupText (group : Group) : String :=
  line ("### " ++ Text.capitalize group.severity.display ++ " (" ++
    toString group.findings.length ++ ")") ++ line "" ++
  String.join (group.findings.map findingText)

/-- The findings under their number. -/
def findingsText (report : Report) : String :=
  line ("## Findings (" ++ toString report.total ++ ")") ++ line "" ++
  (if report.groups.isEmpty then line "No issues detected." else "") ++
  String.join (report.groups.map groupText)

/-- The text of a report. -/
def text (report : Report) : String :=
  line (Text.stripEnd (headText report ++ summaryText report ++ scoresText report ++
    planText report ++ findingsText report))

end RepoAudit.Report
