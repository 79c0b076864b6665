import RepoAudit.CommandLine.Invocation
import RepoAudit.Host.Client
import RepoAudit.Host.Reference
import RepoAudit.Log
import RepoAudit.Report.Markdown
import RepoAudit.Scan.Assembly
import RepoAudit.Settings.Reader

/-!
# The program

What the program does with its arguments: it reads the settings, scans a repository and tells the report, or
names what is to be served. The scan itself goes on between the start of the program and its end, so that
whoever runs the program sees what is asked of the host.
-/

namespace RepoAudit.CommandLine

/-- How the program ends. -/
structure Outcome where
  code : Nat
  output : String := ""
  errors : String := ""
  /-- The interface and the port of the service, when one is to be run. -/
  served : Option (Settings × String × Int) := none
  ledger : Ledger

/-- Why the program breaks off. -/
inductive Breakdown where
  | disk (error : DiskError)
  | settings (problem : Settings.Problem)
  | assembly (error : AssemblyError)
  | store (error : StoreError)
  | report (problem : Report.Problem)

/-- The text of a breakdown. -/
def Breakdown.message : Breakdown → String
  | disk error => error.message
  | settings problem => problem.message
  | assembly error => error.message
  | store error => error.message
  | report problem => problem.message

/-- What surrounds the program. -/
structure Surroundings where
  /-- The disk, the time and the source of ids. -/
  ledger : Ledger
  environment : Settings.Environment
  /-- The host that settings lead to. -/
  connect : HostSettings → SourceHost

/-- A scan that has been started. -/
structure PendingScan where
  settings : Settings
  scanner : Scanner
  number : Nat
  auditId : String
  output : Option Path

/-- The question to the host that a call asks. -/
def questionOf? : Call → Option Host.Question
  | .repository owner name => some (.repository owner name)
  | .languages owner name => some (.languages owner name)
  | .tree owner name ref => some (.tree owner name ref)
  | .file owner name path => some (.file owner name path)
  | _ => none

/-- The requests that a scan makes, in their order; a question without an address makes none. -/
def PendingScan.requests (pending : PendingScan) : List Host.Request :=
  match pending.scanner.live? pending.number with
  | some scan =>
    ((scan.program.calls pending.scanner.world).filterMap questionOf?).filterMap fun question =>
      (Host.Request.of pending.settings.host question).toOption
  | none => []

/-- How far the program has come. -/
inductive Progress where
  | ended (outcome : Outcome)
  | scanning (pending : PendingScan)

/-- Ends with a failure that is told. -/
def refuse (ledger : Ledger) (text : String) : Outcome := { code := 1, errors := text ++ "\n", ledger }

/-- The end of a program that does not go on to its work. -/
def stopped (ledger : Ledger) : Stop → Outcome
  | .help program => { code := 0, output := "usage: " ++ program ++ " [options]\n", ledger }
  | .problem program problem =>
    { code := 2, errors := program ++ ": error: " ++ problem.message ++ "\n", ledger }

/-- True of the problems with settings that are told; the others break the program off. -/
def isTold : Settings.Problem → Bool
  | .malformed _ => true
  | .notMapping => true
  | _ => false

/-- Starts the scan of a repository. -/
def startScan (command : ScanCommand) (settings : Settings) (surroundings : Surroundings)
    (ledger : Ledger) : Except Breakdown Progress := do
  match Reference.read command.repository with
  | .error failure => return .ended (refuse ledger failure.message)
  | .ok reference =>
    let host := surroundings.connect settings.host
    let scanner ← (Scanner.assemble settings command.store host ledger).mapError .assembly
    let (made, scanner) := scanner.onStore (Ledger.createAudit reference.owner reference.name "")
    let audit ← made.mapError .store
    let number := scanner.nextNumber
    let (started, scanner) := scanner.start audit.id
    let answer ← started.mapError .store
    if answer.accepted then return .scanning ⟨settings, scanner, number, audit.id, command.output⟩
    else return .ended (refuse scanner.world.ledger ("codescope scan failed: " ++ answer.reason))

/-- Starts the program. -/
def start (arguments : List String) (surroundings : Surroundings) : Except Breakdown Progress := do
  match Invocation.read arguments with
  | .error stop => return .ended (stopped surroundings.ledger stop)
  | .ok invocation =>
    let log := Log.configure invocation.verbose invocation.logFile
    let disk ← (log.openOn surroundings.ledger.disk).mapError .disk
    let ledger := { surroundings.ledger with disk }
    match Settings.load disk surroundings.environment invocation.command.config with
    | .error problem =>
      if isTold problem then return .ended (refuse ledger problem.message)
      else throw (.settings problem)
    | .ok settings =>
      match invocation.command with
      | .scan command => startScan command settings surroundings ledger
      | .serve command =>
        return .ended { code := 0, served := some (settings, command.host, command.port), ledger }

/-- A path from the current directory, if it lies there. -/
def relativize (disk : Disk) (path : Path) : Path :=
  (Path.relativeTo? disk.currentPath path).getD path

/-- Writes a report to a file, with the directories above it: what is told of it. -/
def writeReport (path : Path) (text : String) (disk : Disk) : Except DiskError (String × Disk) :=
  match disk.makeDirectories path.parent with
  | (_, some failure) => .error failure
  | (disk, none) => do
    let disk ← disk.write path (Utf8.encodeText text)
    let shown := relativize disk (Path.resolve disk.currentPath path)
    return ("Report written to " ++ shown.text ++ "\n", disk)

/-- Tells the report of an audit. -/
def conclude (pending : PendingScan) (audit : AuditRecord) (ledger : Ledger) :
    Except Breakdown Outcome := do
  let findings := ledger.store.findingsOf audit.id
  let report ← (Report.ofRecords audit findings).mapError .report
  let (output, disk) ←
    match pending.output with
    | some path => (writeReport path report.text ledger.disk).mapError .disk
    | none => .ok (report.text, ledger.disk)
  let ledger := { ledger with disk }
  if audit.scores.isNull then
    return {
      refuse ledger "codescope scan did not complete; see the report for details." with output }
  else return { code := 0, output, ledger }

/-- Lets a scan go on to its end, and ends the program. -/
def finish (pending : PendingScan) : Except Breakdown Outcome := do
  let (ended, scanner) := pending.scanner.resume (fun _ => false) pending.number
  let ledger := scanner.world.ledger
  match ended with
  | some (.error error) => throw (.store error)
  | _ =>
    match ledger.store.audit? pending.auditId with
    | some audit => conclude pending audit ledger
    | none => return refuse ledger "codescope scan failed: audit disappeared"

/-- Runs the program to its end. -/
def run (arguments : List String) (surroundings : Surroundings) : Except Breakdown Outcome := do
  match ← start arguments surroundings with
  | .ended outcome => return outcome
  | .scanning pending => finish pending

end RepoAudit.CommandLine
