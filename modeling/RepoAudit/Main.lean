import RepoAudit.CommandLine.Basic
import RepoAudit.Service.Basic
import RepoAudit.Service.Target
import Std.Time.Format

/-!
# Running the program

The program over the files, the clock and the streams of the machine. The files that it may read are taken
before it starts, and those that it has changed are written after it has ended. It reaches no network: every
question to the host goes without an answer, and the service takes its requests from standard input, one
JSON object on a line, and answers on standard output.
-/

open RepoAudit

namespace RepoAudit.Running

/-- The settings that the environment may give. -/
def tokenNames : List String := ["CODESCOPE_GITHUB_TOKEN", "GITHUB_TOKEN"]

/-- The variables that are set. -/
def environment : IO Settings.Environment := do
  let mut found := []
  for name in tokenNames do
    if let some value ← IO.getEnv name then found := found ++ [(name, value)]
  return found

/-- The present moment. -/
def now : IO Instant := do
  let moment ← Std.Time.Timestamp.now
  return Instant.after (moment.toNanosecondsSinceUnixEpoch.toInt / 1000).toNat

-- Powers are the core ones, also where an algebra library brings its own.
attribute [local instance (high)] instPowNat

/-- Ids that no other run has. -/
def freshIds : IO (Nat → String) := do
  let high ← IO.rand 0 (16 ^ (12 : Nat) - 1)
  let low ← IO.rand 0 (16 ^ (12 : Nat) - 1)
  let start := String.ofList (Text.hexDigits 12 high ++ Text.hexDigits 12 low)
  return fun n => start ++ String.ofList (Text.hexDigits 8 n)

/-- Adds what stands at a path, and the directories above it, to a disk. -/
def takePath (disk : Disk) (path : Path) : IO Disk := do
  let root ← IO.currentDir
  let parts := (Path.resolve disk.currentPath path).parts
  let mut disk := disk
  for count in List.range (parts.length + 1) do
    let place := parts.take count
    let file := root / ("/" ++ "/".intercalate place)
    if ← file.isDir then disk := disk.put place .directory
    else if ← file.pathExists then
      disk := disk.put place (.file (← IO.FS.readBinFile file).toList)
  return disk

/-- Adds what stands at several paths to a disk. -/
def takePaths (paths : List Path) (disk : Disk) : IO Disk := paths.foldlM takePath disk

/-- The paths that an invocation names. -/
def pathsOf (invocation : CommandLine.Invocation) : List Path :=
  let settings := [invocation.command.config, invocation.command.config.child ".codescope.yml"]
  let others :=
    match invocation.command with
    | .scan command => command.store.toList ++ command.output.toList
    | .serve _ => []
  settings ++ invocation.logFile.toList ++ others

/-- Writes the files that have changed; each takes the place of the old one in one step. -/
def writeChanges (before after : Disk) : IO Unit := do
  let root ← IO.currentDir
  for (place, octets) in before.changedFiles after do
    let file := root / ("/" ++ "/".intercalate place)
    let beside := root / ("/" ++ "/".intercalate place ++ ".tmp")
    if let some above := file.parent then IO.FS.createDirAll above
    IO.FS.writeBinFile beside ⟨octets.toArray⟩
    IO.FS.rename beside file

/-- A host that is not reached. -/
def unreachable (settings : HostSettings) : SourceHost :=
  (Host.Client.mk settings fun _ => .unreachable "there is no network").host

/-- The request of a line. -/
def requestOf (line : String) : Request :=
  match Json.read line with
  | .ok value =>
    ⟨Service.textOf value "method", String.ofList (Target.path (Service.textOf value "path")),
      if (value.getD "body").isNull then "" else (value.getD "body").compact⟩
  | .error _ => ⟨"", "", ""⟩

/-- A response on one line. -/
def responseLine (response : Response) : String :=
  (Json.array [.integer response.status, response.body]).compact

/-- Lets every scan that has been accepted go on to its end. -/
def finishScans (scanner : Scanner) : Scanner :=
  (scanner.live.map (·.number)).foldl (fun scanner number =>
    (scanner.resume (fun _ => false) number).2) scanner

/-- The service after its scans have ended. -/
def settle : Service → Service
  | .running scanner => .running (finishScans scanner)
  | .waiting ledger assemble => .waiting ledger assemble

/-- The service at another moment. -/
def atMoment (time : Instant) : Service → Service
  | .running scanner =>
    .running (scanner.onWorld fun world => { world with ledger := { world.ledger with now := time } })
  | .waiting ledger assemble => .waiting { ledger with now := time } assemble

/-- The disk of a service. -/
def diskOf : Service → Disk
  | .running scanner => scanner.world.ledger.disk
  | .waiting ledger _ => ledger.disk

/-- Answers requests until there are none. -/
partial def serve (service : Service) : IO Unit := do
  let line ← (← IO.getStdin).getLine
  if line.isEmpty then return ()
  else
    let (response, next) := (atMoment (← now) service).handle (requestOf line)
    IO.println (responseLine response)
    (← IO.getStdout).flush
    let next := settle next
    writeChanges (diskOf service) (diskOf next)
    serve next

/-- Tells how the program has ended. -/
def tell (before : Disk) (outcome : CommandLine.Outcome) : IO UInt32 := do
  writeChanges before outcome.ledger.disk
  IO.print outcome.output
  IO.eprint outcome.errors
  match outcome.served with
  | some (settings, _, _) =>
    let assemble := Scanner.assemble settings none (unreachable settings.host)
    serve (.waiting outcome.ledger assemble)
  | none => pure ()
  return outcome.code.toUInt32

/-- The paths of the settings that are only known once the settings are. -/
def storeOf (disk : Disk) (environment : Settings.Environment)
    (invocation : CommandLine.Invocation) : List Path :=
  match Settings.load disk environment invocation.command.config with
  | .ok settings => settings.store.toList
  | .error _ => []

/-- The disk that the arguments of the program need. -/
def diskFor (arguments : List String) (environment : Settings.Environment) : IO Disk := do
  let current := (Path.read (← IO.currentDir).toString).parts
  let disk ← takePath { current } ⟨true, current⟩
  match CommandLine.Invocation.read arguments with
  | .ok invocation =>
    let disk ← takePaths (pathsOf invocation) disk
    takePaths (storeOf disk environment invocation) disk
  | .error _ => return disk

/-- Runs the program. -/
def run (arguments : List String) : IO UInt32 := do
  let environment ← environment
  let disk ← diskFor arguments environment
  let ledger : Ledger := { disk, now := ← now, ids := ← freshIds }
  match CommandLine.run arguments ⟨ledger, environment, unreachable⟩ with
  | .ok outcome => tell disk outcome
  | .error breakdown =>
    IO.eprintln breakdown.message
    return 1

end RepoAudit.Running

/-- The program. -/
def main (arguments : List String) : IO UInt32 := RepoAudit.Running.run arguments
