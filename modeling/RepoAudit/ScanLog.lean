import RepoAudit.Clock

/-!
# Step logs

The record of a scan: steps with a status, a message and a time. A log only grows, at its end, and every
entry that is accepted is published as the log up to and including it.
-/

namespace RepoAudit

/-- How a step went. -/
inductive StepStatus where
  | ok
  | warn
  | error
  deriving DecidableEq, Repr

namespace StepStatus

/-- The name of a status. -/
def name : StepStatus → String
  | ok => "ok"
  | warn => "warn"
  | error => "error"

/-- All statuses. -/
def all : List StepStatus := [ok, warn, error]

/-- The status of a name. -/
def ofName? (name : String) : Option StepStatus := all.find? (·.name == name)

end StepStatus

/-- A step of a scan. -/
structure LogEntry where
  step : String
  status : String
  message : String
  timestamp : String
  deriving DecidableEq, Repr

/-- The steps of a scan, the earliest first. -/
structure ScanLog where
  entries : List LogEntry := []
  deriving DecidableEq, Repr

namespace ScanLog

/-- A status that no step can have. -/
structure UnknownStatus where
  status : String
  deriving DecidableEq, Repr

/-- The text of the failure. -/
def UnknownStatus.message (e : UnknownStatus) : String := s!"Unknown log status '{e.status}'"

/-- Adds a step at the end. The new log is also what is published. -/
def add (log : ScanLog) (step status message : String) (now : Instant) :
    Except UnknownStatus (LogEntry × ScanLog) :=
  match StepStatus.ofName? status with
  | none => .error ⟨status⟩
  | some known =>
    let entry : LogEntry := ⟨step, known.name, message, now.text⟩
    .ok (entry, ⟨log.entries ++ [entry]⟩)

/-- Adds a step whose status is known. -/
def push (log : ScanLog) (step : String) (status : StepStatus) (message : String) (now : Instant) :
    ScanLog :=
  ⟨log.entries ++ [⟨step, status.name, message, now.text⟩]⟩

end ScanLog

end RepoAudit
