import RepoAudit.Finding.Basic

/-!
# Remediation plans

Critical, high and medium findings are grouped into up to three phases. The days of a phase depend on
which phases come before it.
-/

namespace RepoAudit

/-- A block of work. -/
structure Phase where
  name : String
  days : String
  tasks : List String
  deriving DecidableEq, Repr

namespace Plan

/-- The greatest number of tasks of a phase. -/
def taskLimit : Nat := 5

/-- The titles of the findings of a severity. -/
def titles (severity : Severity) (findings : List Finding) : List String :=
  (findings.filter (Finding.hasSeverity severity)).map (·.title)

/-- A phase for the titles, if there are any. -/
def phase? (name days : String) (titles : List String) : List Phase :=
  if titles.isEmpty then [] else [⟨name, days, titles.take taskLimit⟩]

/-- The phase of a plan that has nothing to repair. -/
def maintenance : Phase :=
  ⟨"Maintenance", "Ongoing",
    ["Continue monitoring for new vulnerabilities", "Keep dependencies up to date"]⟩

/-- The days of the second phase. -/
def stabilizeDays (criticals : List String) : String :=
  if criticals.isEmpty then "Day 1-5" else "Day 3-7"

/-- The days of the third phase. -/
def hardenDays (criticals highs : List String) : String :=
  if !criticals.isEmpty then "Day 8-14" else if !highs.isEmpty then "Day 6-14" else "Day 1-7"

/-- The phases of the findings. -/
def phases (findings : List Finding) : List Phase :=
  let criticals := titles .critical findings
  let highs := titles .high findings
  let mediums := titles .medium findings
  phase? "Stop the Bleeding" "Day 1-2" criticals ++
    phase? "Stabilize" (stabilizeDays criticals) highs ++
    phase? "Harden" (hardenDays criticals highs) mediums

/-- The plan for the findings; it always has a phase. -/
def ofFindings (findings : List Finding) : List Phase :=
  match phases findings with
  | [] => [maintenance]
  | plan => plan

end Plan

end RepoAudit
