/-!
# Executors

An executor accepts scans until it is shut down. It knows, for every audit, the number of the scan that was
accepted last, as long as that scan has not been reported as ended. An end is reported once the scan has
ended and somebody watches it, whichever comes later.
-/

namespace RepoAudit

/-- A scan that an executor has accepted. -/
structure Job where
  number : Nat
  auditId : String
  ended : Bool := false
  /-- Whether the end of the scan is to be reported. -/
  watched : Bool := false
  deriving DecidableEq, Repr

/-- The scans that have been accepted, and the latest one of each audit. -/
structure Executor where
  accepting : Bool := true
  jobs : List Job := []
  latest : List (String × Nat) := []
  deriving DecidableEq, Repr

namespace Executor

/-- The scan of a number. -/
def job? (executor : Executor) (number : Nat) : Option Job :=
  executor.jobs.find? (·.number == number)

/-- Changes the scan of a number. -/
def changeJob (executor : Executor) (number : Nat) (change : Job → Job) : Executor :=
  { executor with
    jobs := executor.jobs.map fun job => if job.number == number then change job else job }

/-- Accepts a scan, unless the executor is shut down. -/
def submit (executor : Executor) (auditId : String) : Option Nat × Executor :=
  if executor.accepting then
    let number := executor.jobs.length
    (some number, { executor with jobs := executor.jobs ++ [{ number, auditId }] })
  else (none, executor)

/-- Notes the latest scan of an audit. -/
def register (executor : Executor) (auditId : String) (number : Nat) : Executor :=
  { executor with
    latest := executor.latest.filter (·.1 != auditId) ++ [(auditId, number)] }

/-- Forgets a scan that is the latest one of its audit. -/
def forget (executor : Executor) (auditId : String) (number : Nat) : Executor :=
  { executor with latest := executor.latest.filter (· != (auditId, number)) }

/-- Reports the end of a scan that has ended and is watched. -/
def report (executor : Executor) (number : Nat) : Executor :=
  match executor.job? number with
  | some job => if job.ended && job.watched then executor.forget job.auditId number else executor
  | none => executor

/-- Watches a scan; one that has ended already is reported at once. -/
def watch (executor : Executor) (number : Nat) : Executor :=
  (executor.changeJob number fun job => { job with watched := true }).report number

/-- Ends a scan, without reporting it yet. -/
def finish (executor : Executor) (number : Nat) : Executor :=
  executor.changeJob number fun job => { job with ended := true }

/-- Accepts nothing any more. -/
def shutDown (executor : Executor) : Executor := { executor with accepting := false }

/-- The latest scan of an audit, if it has not been reported as ended. -/
def latest? (executor : Executor) (auditId : String) : Option Nat := executor.latest.lookup auditId

end Executor

end RepoAudit
