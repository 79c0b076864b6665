import RepoAudit.Finding.Distinct
import RepoAudit.Manifest
import RepoAudit.Rule.Engine
import RepoAudit.Scan.Program
import RepoAudit.Tree.Inspection

/-!
# Scans

A scan asks the host about a repository, looks at its tree and its files, and keeps the findings, the
scores and the summary. Every stage adds to the log of the audit. What the host does not give only weakens
the stage that asked for it, except for the repository itself; any other failure ends the scan with a
summary that says so.
-/

namespace RepoAudit.Scan

/-- Why a scan stops before its end. -/
inductive Interruption where
  | store (error : StoreError)
  | other (reason : String)

/-- The text of an interruption. -/
def Interruption.shown : Interruption → String
  | .store error => error.shown
  | .other reason => reason

/-- A part of a scan that may fail with an error of the store. -/
abbrev Logging := ExceptT StoreError (StateT ScanLog Program)

/-- A part of a scan. -/
abbrev Part := ExceptT Interruption (StateT ScanLog Program)

/-- A call. -/
def ask (c : Call) : Part c.Reply := liftM (Program.ask c)

/-- A part that only keeps what it has. -/
def keeping {α : Type} (part : Logging α) : Part α := ExceptT.adapt Interruption.store part

/-- Changes fields of the audit. -/
def update (auditId : String) (changes : List (AuditField × Json)) : Logging Unit := do
  match ← liftM (Program.ask (.updateAudit auditId changes)) with
  | .ok _ => return ()
  | .error error => throw error

/-- Adds a step to the log, and keeps the log in the audit. -/
def note (auditId step : String) (status : StepStatus) (message : String) : Logging Unit := do
  let now ← liftM (Program.ask .now)
  modify fun log => log.push step status message now
  let log ← get
  update auditId [(.scanLog, Json.ofList LogEntry.toJson log.entries)]

/-- The changes that end a scan. -/
def ending (now : Instant) (summary : String) : List (AuditField × Json) := [
  (.status, .text Store.complete), (.scannedAt, .text now.text),
  (.executiveSummary, .text summary)]

/-- What a stage gives, and the step of the log that tells of it. -/
structure Stage (α : Type) where
  value : α
  step : String
  status : StepStatus
  message : String

/-- Adds the step of a stage to the log. -/
def record {α : Type} (auditId : String) (stage : Stage α) : Part Unit :=
  keeping (note auditId stage.step stage.status stage.message)

/-- The stage that asks for the repository. -/
def repositoryStage (owner name : String) : Except String Snapshot → Stage (Option Snapshot)
  | .ok snapshot => ⟨some snapshot, "fetch_repo", .ok, "Fetched repository: " ++ owner ++ "/" ++ name⟩
  | .error reason => ⟨none, "fetch_repo", .error, "Cannot access repo: " ++ reason⟩

/-- The stage that asks for the languages. -/
def languagesStage : Except String (List (String × Int)) → Stage (List (String × Int))
  | .ok languages =>
    let names := ", ".intercalate (languages.map (·.1))
    ⟨languages, "languages", .ok, "Detected languages: " ++ if names.isEmpty then "none" else names⟩
  | .error _ => ⟨[], "languages", .warn, "Could not fetch language data"⟩

/-- The stage that asks for the tree. -/
def treeStage : Except String (List TreeEntry) → Stage (List TreeEntry)
  | .ok tree =>
    ⟨tree, "file_tree", .ok, "Found " ++ toString tree.length ++ " files/directories"⟩
  | .error reason => ⟨[], "file_tree", .error, "Cannot fetch file tree: " ++ reason⟩

/-- The stage of one file: its findings, unless the host does not give the file. -/
def fileStage (engine : Engine) (path : String) :
    Except String String → Except String (Stage (Option (List Finding)))
  | .error reason => .ok ⟨none, "fetch_file", .warn, "Skipped " ++ path ++ ": " ++ reason⟩
  | .ok content => do
    let findings ← engine.scanFile path content.toList
    return ⟨some findings, "fetch_file", .ok, "Scanned " ++ path⟩

/-- The stage of the manifest. A manifest that is no JSON object is told in the log; one that is beyond what
is read stops the scan. -/
def manifestStage (engine : Engine) (tree : List TreeEntry) :
    Except String String → Except String (Stage (List Finding))
  | .error _ =>
    .ok ⟨[], "package_analysis", .warn, "Could not fetch " ++ Tree.manifestName⟩
  | .ok text =>
    match Manifest.analyze engine.rules tree text with
    | .ok report =>
      .ok ⟨report.findings, "package_analysis", .ok,
        "Analyzed " ++ Tree.manifestName ++ ": " ++ toString report.dependencyCount ++ " dependencies"⟩
    | .error failure =>
      if failure.isExcessive then .error failure.message
      else .ok ⟨[], "package_analysis", .warn, "Could not parse " ++ Tree.manifestName⟩

/-- The value of a stage, or an interruption with the reason why there is none. -/
def demand {α : Type} : Except String α → Part α
  | .ok value => return value
  | .error reason => throw (.other reason)

/-- What is said when no worker may fetch files. -/
def noWorkers : String := "max_workers must be greater than 0"

/-- The stages of all selected files, in their order. -/
def scanFiles (engine : Engine) (owner name : String) (targets : List TreeEntry) :
    Part (List (Stage (Option (List Finding)))) := do
  if !targets.isEmpty && engine.limits.fetchWorkers ≤ 0 then throw (.other noWorkers)
  targets.mapM fun entry => do
    let content ← ask (.file owner name entry.path)
    demand (fileStage engine entry.path content)

/-- The stages that have findings. -/
def scanned (stages : List (Stage (Option (List Finding)))) : List (List Finding) :=
  stages.filterMap (·.value)

/-- The mean of scores with at most one decimal. -/
def averageText (scores : Scores) : String :=
  let tenths := scores.sum * 2
  if tenths % 10 = 0 then toString (tenths / 10)
  else toString (tenths / 10) ++ "." ++ toString (tenths % 10)

/-- Looks at the files of a tree: all findings in the order in which they were made. -/
def inspectTree (engine : Engine) (auditId owner name : String) (tree : List TreeEntry) :
    Part (List Finding) := do
  let sensitive := Tree.sensitiveFiles engine.rules tree
  for finding in sensitive do
    keeping (note auditId "sensitive_file" .warn
      ("Found sensitive file: " ++ finding.filePath.getD "None"))
  let layout := Tree.layout engine.rules tree
  let keyFiles := Tree.importantFiles engine.rules tree
  if keyFiles.isEmpty then
    keeping (note auditId "key_files" .warn "No recognised project files detected")
  else
    keeping (note auditId "key_files" .ok ("Detected key files: " ++ ", ".intercalate keyFiles))
  let targets := Engine.selectFiles engine.rules engine.limits tree
  keeping (note auditId "scan_files" .ok
    ("Scanning " ++ toString targets.length ++ " files for patterns"))
  let stages ← scanFiles engine owner name targets
  for stage in stages do
    if stage.value.isNone then record auditId stage
  let findings := sensitive ++ layout ++ (scanned stages).flatten
  keeping (note auditId "pattern_scan" .ok
    ("Scanned " ++ toString (scanned stages).length ++ " files, found " ++
      toString findings.length ++ " issues"))
  if Tree.hasRootManifest tree then
    let stage ← demand (manifestStage engine tree (← ask (.file owner name Tree.manifestName)))
    record auditId stage
    return findings ++ stage.value
  else return findings

/-- Keeps the findings, and ends the scan with scores, a summary and a plan. -/
def conclude (auditId owner name : String) (findings : List Finding) : Part Unit := do
  let unique := Finding.distinct findings
  for finding in unique do
    match ← ask (.createFinding auditId (FindingRecord.ofFinding finding)) with
    | .ok _ => pure ()
    | .error error => throw (.store error)
  let scores := Scores.ofFindings unique
  keeping (note auditId "complete" .ok
    ("Scan complete: " ++ toString unique.length ++ " findings, " ++ averageText scores ++
      " avg score"))
  let now ← ask .now
  keeping (update auditId
    [(.status, .text Store.complete), (.scores, scores.toJson),
      (.executiveSummary, .text (Summary.finished owner name unique scores)),
      (.remediationPlan, Json.ofList Phase.toJson (Plan.ofFindings unique)),
      (.scannedAt, .text now.text)])

/-- Scans a repository that the host knows. -/
def explore (engine : Engine) (auditId owner name : String) (snapshot : Snapshot) : Part Unit := do
  let languages := languagesStage (← ask (.languages owner name))
  record auditId languages
  let snapshot := { snapshot with languages := languages.value }
  keeping (update auditId [(.repoMeta, snapshot.toJson)])
  let tree := treeStage (← ask (.tree owner name snapshot.defaultBranch))
  record auditId tree
  keeping (update auditId [(.fileTree, Json.ofList TreeEntry.toJson tree.value)])
  let findings ← inspectTree engine auditId owner name tree.value
  conclude auditId owner name findings

/-- The scan of an audit. -/
def body (engine : Engine) (auditId : String) : Part Unit := do
  match ← ask (.getAudit auditId) with
  | none => throw (.other ("Audit " ++ auditId ++ " not found"))
  | some audit =>
    let owner := audit.ownerName.display
    let name := audit.repoName.display
    let host ← ask .hostName
    keeping (note auditId "connect" .ok ("Connected to " ++ host))
    let repository := repositoryStage owner name (← ask (.repository owner name))
    record auditId repository
    match repository.value with
    | some snapshot => explore engine auditId owner name snapshot
    | none =>
      let now ← ask .now
      keeping (update auditId (ending now (Summary.unreachable none)))

/-- Ends a scan that was interrupted. -/
def recover (auditId : String) (interruption : Interruption) : Logging Unit := do
  note auditId "error" .error interruption.shown
  let now ← liftM (Program.ask .now)
  update auditId (ending now (Summary.interrupted (some interruption.shown)))

/-- Runs the scan of an audit to its end, and gives the audit after it. -/
def run (engine : Engine) (auditId : String) : Program (Except StoreError (Option AuditRecord)) := do
  let (result, log) ← (body engine auditId).run.run {}
  let ended ← match result with
    | .ok () => pure (Except.ok ())
    | .error interruption => do
      let (ended, _) ← (recover auditId interruption).run.run log
      pure ended
  match ended with
  | .error error => return .error error
  | .ok () => return .ok (← Program.ask (.getAudit auditId))

end RepoAudit.Scan
