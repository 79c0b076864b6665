import RepoAudit.Scan.Program

/-!
# Starting scans

A scan is accepted when its audit is there and is not being scanned. The findings of earlier scans are
dropped, those that people entered stay, and the audit is marked before the executor is asked.
-/

namespace RepoAudit.Scan

/-- The answer to a request for a scan. -/
structure Acceptance where
  accepted : Bool
  reason : String
  deriving DecidableEq, Repr

/-- The audit is not there. -/
def missing : Acceptance := ⟨false, "Audit not found"⟩

/-- The audit is being scanned. -/
def busy : Acceptance := ⟨false, "Scan already in progress"⟩

/-- The executor accepts nothing any more. -/
def closing : Acceptance := ⟨false, "Scanner is shutting down"⟩

/-- The scan is accepted. -/
def started : Acceptance := ⟨true, "Scan started"⟩

/-- The changes that begin a scan. -/
def beginning : List (AuditField × Json) := [
  (.status, .text Store.inProgress), (.scores, .null), (.executiveSummary, .null),
  (.remediationPlan, .null), (.scanLog, .array []), (.scannedAt, .null)]

/-- Why an executor that is shut down refuses a scan. -/
def refusedReason : String := "cannot schedule new futures after shutdown"

/-- The changes that end a scan that the executor refused. -/
def refusal (now : Instant) : List (AuditField × Json) := [
  (.status, .text Store.complete), (.scannedAt, .text now.text),
  (.executiveSummary, .text (Summary.interrupted (some refusedReason)))]

/-- A program that may fail with an error of the store. -/
abbrev Starting := ExceptT StoreError Program

/-- A call. -/
def call (c : Call) : Starting c.Reply := liftM (Program.ask c)

/-- A call that may fail. -/
def accomplish {α : Type} (reply : Except StoreError α) : Starting Unit :=
  match reply with
  | .ok _ => return ()
  | .error error => throw error

/-- Drops the findings that scans have made. -/
def clear (auditId : String) : Starting Unit := do
  for finding in ← call (.listFindings auditId) do
    if finding.autoDetected.isTruthy then
      accomplish (← call (.deleteFinding finding.id))

/-- Asks for a scan of an audit. -/
def start (auditId : String) : Starting Acceptance := do
  match ← call (.getAudit auditId) with
  | none => return missing
  | some audit =>
    if audit.isRunning then return busy
    else
      clear auditId
      accomplish (← call (.updateAudit auditId beginning))
      match ← call (.submit auditId) with
      | none =>
        let now ← call .now
        accomplish (← call (.updateAudit auditId (refusal now)))
        return closing
      | some number =>
        call (.register auditId number)
        call (.watch number)
        return started

end RepoAudit.Scan
