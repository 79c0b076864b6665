import RepoAudit.Proofs.Scan.Tenure
import Mathlib.Data.List.Forall2

/-!
# What a scan does

The whole of a scan, told by what the host answered. A scan that holds its audit ends in one of three ways
(`Concluded`): it keeps its findings and completes the audit with scores and a plan, it does not reach the
repository, or it is interrupted. In each of them the last write is the one that completes the audit, and
findings are stored in the first way only, after everything that can fail. `keeps_run` shows that every scan
keeps its tenure up to one of these ends; before it, each part of a scan has a rule of its own.
-/

namespace RepoAudit.Scan

/-- The line of a stage. -/
def Stage.line {α : Type} (stage : Stage α) : Line := (stage.step, stage.status.name, stage.message)

/-- What the host answered a scan that it gave the repository to: first about the repository, then for each
file that was asked for, and at last for the manifest. -/
structure Answers where
  host : String
  snapshot : Snapshot
  languages : Except String (List (String × Int))
  tree : Except String (List TreeEntry)
  files : List (String × Except String String) := []
  manifest : Option (Except String String) := none

/-- The stages of files with what the host answered for each. -/
def scanAll (engine : Engine) (files : List (String × Except String String)) :
    Except String (List (Stage (Option (List Finding)))) :=
  files.mapM fun file => fileStage engine file.1 file.2

namespace Answers

variable (engine : Engine) (owner name : String) (answers : Answers)

/-- The entries of the tree; none when the host did not give it. -/
def entries : List TreeEntry := (treeStage answers.tree).value

/-- The snapshot with the languages. -/
def known : Snapshot :=
  { answers.snapshot with languages := (languagesStage answers.languages).value }

/-- The paths of the files that are to be scanned. -/
def targets : List String :=
  (Engine.selectFiles engine.rules engine.limits answers.entries).map (·.path)

/-- What the host was asked, and its answers. -/
def exchanges : List Exchange :=
  [⟨.hostName, answers.host⟩, ⟨.repository owner name, .ok answers.snapshot⟩,
    ⟨.languages owner name, answers.languages⟩,
    ⟨.tree owner name answers.snapshot.defaultBranch, answers.tree⟩] ++
  answers.files.map (fun file => ⟨.file owner name file.1, file.2⟩) ++
  answers.manifest.toList.map fun reply => ⟨.file owner name Tree.manifestName, reply⟩

/-- The audit with what is known of its repository. -/
def noted (base : AuditRecord) : AuditRecord :=
  { base with
    repoMeta := answers.known.toJson
    fileTree := Json.ofList TreeEntry.toJson answers.entries }

/-- The stages of all files that are to be scanned. -/
structure Scanned (stages : List (Stage (Option (List Finding)))) : Prop where
  asked : answers.files.map (·.1) = answers.targets engine
  scans : scanAll engine answers.files = .ok stages

/-- The stage of the manifest, which is asked for when there is one. -/
structure Analyzed (stage : Option (Stage (List Finding))) : Prop where
  asked : answers.manifest.isSome = Tree.hasRootManifest answers.entries
  analyzes : answers.manifest.map (manifestStage engine answers.entries) = stage.map .ok

/-- What a scan finds in the tree and in the files. -/
def detected (stages : List (Stage (Option (List Finding)))) : List Finding :=
  Tree.sensitiveFiles engine.rules answers.entries ++ Tree.layout engine.rules answers.entries ++
    (scanned stages).flatten

/-- The lines about the repository. -/
def openingLines : List Line :=
  [("connect", StepStatus.ok.name, "Connected to " ++ answers.host),
    (repositoryStage owner name (.ok answers.snapshot)).line, (languagesStage answers.languages).line,
    (treeStage answers.tree).line]

/-- The line about the files that tell what a project is. -/
def keyLine : Line :=
  if (Tree.importantFiles engine.rules answers.entries).isEmpty then
    ("key_files", StepStatus.warn.name, "No recognised project files detected")
  else
    ("key_files", StepStatus.ok.name,
      "Detected key files: " ++ ", ".intercalate (Tree.importantFiles engine.rules answers.entries))

/-- The lines about the tree. -/
def treeLines : List Line :=
  (Tree.sensitiveFiles engine.rules answers.entries).map (fun finding =>
    ("sensitive_file", StepStatus.warn.name,
      "Found sensitive file: " ++ finding.filePath.getD "None")) ++
  [answers.keyLine engine, ("scan_files", StepStatus.ok.name,
    "Scanning " ++ toString (answers.targets engine).length ++ " files for patterns")]

/-- The lines about the files. -/
def fileLines (stages : List (Stage (Option (List Finding)))) : List Line :=
  (stages.filter (·.value.isNone)).map Stage.line ++
  [("pattern_scan", StepStatus.ok.name,
    "Scanned " ++ toString (scanned stages).length ++ " files, found " ++
      toString (answers.detected engine stages).length ++ " issues")]

/-- The lines up to the files. -/
def earlyLines : List Line := answers.openingLines owner name ++ answers.treeLines engine

end Answers

/-- Where a scan is interrupted, with the lines about files before that, and the reason: no worker may fetch
files, the scan of a file fails, or the analysis of the manifest does. -/
inductive Stumbles (engine : Engine) (answers : Answers) : List Line → String → Prop
  | noWorkers : answers.targets engine ≠ [] → engine.limits.fetchWorkers ≤ 0 → answers.files = [] →
    Stumbles engine answers [] noWorkers
  | file {files path reply reason} : answers.files = files ++ [(path, reply)] →
    answers.files.map (·.1) <+: answers.targets engine →
    fileStage engine path reply = .error reason → Stumbles engine answers [] reason
  | manifest {stages reply reason} : answers.Scanned engine stages →
    Tree.hasRootManifest answers.entries = true → answers.manifest = some reply →
    manifestStage engine answers.entries reply = .error reason →
    Stumbles engine answers (answers.fileLines engine stages) reason

/-- The line of a scan that came to its end. -/
def completeLine (unique : List Finding) : Line :=
  ("complete", StepStatus.ok.name,
    "Scan complete: " ++ toString unique.length ++ " findings, " ++
      averageText (Scores.ofFindings unique) ++ " avg score")

/-- The audit as a scan that came to its end leaves it. -/
def finishedAudit (base : AuditRecord) (owner name : String) (unique : List Finding) (log : ScanLog)
    (now : Instant) : AuditRecord :=
  { base with
    scanLog := Json.ofList LogEntry.toJson log.entries
    status := .text Store.complete
    scores := (Scores.ofFindings unique).toJson
    executiveSummary := .text (Summary.finished owner name unique (Scores.ofFindings unique))
    remediationPlan := Json.ofList Phase.toJson (Plan.ofFindings unique)
    scannedAt := .text now.text }

/-- The audit as a scan that cannot go on leaves it. -/
def brokenOffAudit (base : AuditRecord) (summary : String) (log : ScanLog) (now : Instant) :
    AuditRecord :=
  { base with
    scanLog := Json.ofList LogEntry.toJson log.entries
    status := .text Store.complete
    scannedAt := .text now.text
    executiveSummary := .text summary }

/-- The record of a finding that is kept for the audit, under some id. -/
def KeptAs (auditId : String) (finding : Finding) (record : FindingRecord) : Prop :=
  ∃ id, record = Ledger.filed (FindingRecord.ofFinding finding) id auditId

/-- The ways in which a scan of an audit ends. -/
inductive Concluded (engine : Engine) (auditId : String) (base : AuditRecord) (owner name : String) :
    Progress → Prop
  | finished {answers : Answers} {stages last} {unique : List Finding} {kept : List FindingRecord}
      {log : ScanLog} {now : Instant} :
    answers.Scanned engine stages → answers.Analyzed engine last →
    unique = Finding.distinct (answers.detected engine stages ++ (last.map (·.value)).getD []) →
    log.lines = answers.earlyLines engine owner name ++ answers.fileLines engine stages ++
      (last.map Stage.line).toList ++ [completeLine unique] →
    List.Forall₂ (KeptAs auditId) unique kept →
    Concluded engine auditId base owner name
      ⟨finishedAudit (answers.noted base) owner name unique log now, kept,
        answers.exchanges owner name⟩
  | unreachable {host reason : String} {log : ScanLog} {now : Instant} :
    log.lines = [("connect", StepStatus.ok.name, "Connected to " ++ host),
      (repositoryStage owner name (.error reason)).line] →
    Concluded engine auditId base owner name
      ⟨brokenOffAudit base (Summary.unreachable none) log now, [],
        [⟨.hostName, host⟩, ⟨.repository owner name, .error reason⟩]⟩
  | interrupted {answers : Answers} {told reason} {log : ScanLog} {now : Instant} :
    Stumbles engine answers told reason →
    log.lines = answers.earlyLines engine owner name ++ told ++
      [("error", StepStatus.error.name, reason)] →
    Concluded engine auditId base owner name
      ⟨brokenOffAudit (answers.noted base) (Summary.interrupted (some reason)) log now, [],
        answers.exchanges owner name⟩

section Parts

variable {engine : Engine} {auditId owner name : String} {base : AuditRecord} {log : ScanLog}
variable {stored : List FindingRecord} {heard : List Exchange}

lemma keeps_told {step message : String} {status : StepStatus}
    {post : Except Interruption Unit → ScanLog → Progress → Prop} (running : base.isRunning = true)
    (next : ∀ longer : ScanLog, longer.lines = log.lines ++ [(step, status.name, message)] →
      post (.ok ()) longer (standing base longer stored heard)) :
    Keeps (tenure auditId) post (keeping (note auditId step status message)) log
      (standing base log stored heard) :=
  keeps_keeping (keeps_note running next)

lemma keeps_record {α : Type} {stage : Stage α}
    {post : Except Interruption Unit → ScanLog → Progress → Prop} (running : base.isRunning = true)
    (next : ∀ longer : ScanLog, longer.lines = log.lines ++ [stage.line] →
      post (.ok ()) longer (standing base longer stored heard)) :
    Keeps (tenure auditId) post (record auditId stage) log (standing base log stored heard) :=
  keeps_told running next

lemma keeps_question {c : Call} {post : Except Interruption c.Reply → ScanLog → Progress → Prop}
    (asks : c.asksHost = true)
    (next : ∀ reply, post (.ok reply) log (standing base log stored (heard ++ [⟨c, reply⟩]))) :
    Keeps (tenure auditId) post (ask c) log (standing base log stored heard) := by
  cases c with
  | hostName | repository | languages | tree | file => exact keeps_ask trivial fun reply _ => next reply
  | _ => cases asks

lemma keeps_completion {changes : List (AuditField × Json)} {final : AuditRecord}
    {post : Except StoreError Unit → ScanLog → Progress → Prop} (running : base.isRunning = true)
    (completes : Completes changes) (plain : ∀ change ∈ changes, change.2.isPlain 3 = true)
    (changed : (standing base log stored heard).audit.change changes = final)
    (ended : final.isRunning = false)
    (sameLog : final.scanLog = Json.ofList LogEntry.toJson log.entries)
    (next : post (.ok ()) log ⟨final, stored, heard⟩) :
    Keeps (tenure auditId) post (update auditId changes) log (standing base log stored heard) := by
  subst changed
  refine keeps_update ⟨rfl, running, ⟨_, [], rfl, ?_⟩, ?_, plain⟩ next
  · rw [sameLog, List.append_nil]; rfl
  · exact iff_of_true ended completes

/-- The findings of a scan that came to its end are stored in order, and the audit is completed. -/
lemma keeps_conclude {found : List Finding}
    {post : Except Interruption Unit → ScanLog → Progress → Prop} (running : base.isRunning = true)
    (next : ∀ (longer : ScanLog) (kept : List FindingRecord) (now : Instant),
      longer.lines = log.lines ++ [completeLine (Finding.distinct found)] →
      List.Forall₂ (KeptAs auditId) (Finding.distinct found) kept →
      post (.ok ()) longer
        ⟨finishedAudit base owner name (Finding.distinct found) longer now, kept, heard⟩) :
    Keeps (tenure auditId) post (conclude auditId owner name found) log
      (standing base log [] heard) := by
  -- The invariant: the findings that are done are stored in their order, and the audit stands as before.
  refine keeps_bind (keeps_forIn (fun rest l p => ∃ done kept,
    done ++ rest = Finding.distinct found ∧ List.Forall₂ (KeptAs auditId) done kept ∧ l = log ∧
      p = standing base log kept heard) ⟨[], [], rfl, .nil, rfl, rfl⟩ ?_ ?_)
  · rintro finding rest l p ⟨done, kept, split, kepts, rfl, rfl⟩
    refine keeps_bind (keeps_ask ⟨rfl, running, finding, rfl⟩ ?_)
    rintro reply ⟨id, rfl⟩
    refine keeps_pure ⟨rfl, done ++ [finding], kept ++ [_], by simpa using split, ?_, rfl, rfl⟩
    exact List.rel_append kepts (.cons ⟨id, rfl⟩ .nil)
  · rintro l p ⟨done, kept, split, kepts, rfl, rfl⟩
    refine keeps_bind (keeps_told running fun longer lines => ?_)
    refine keeps_bind (keeps_ask trivial fun now _ => ?_)
    obtain rfl : done = Finding.distinct found := by simpa using split
    refine keeps_keeping (keeps_completion running (by simp [Completes]) ?_ rfl rfl rfl ?_)
    · simp [Json.isPlain_ofList]
    · exact next longer kept now lines kepts

/-- The files are asked for in their order, and the first one whose scan fails ends the part. -/
lemma keeps_scanFiles {targets : List TreeEntry}
    {post : Except Interruption (List (Stage (Option (List Finding)))) → ScanLog → Progress → Prop}
    (next : ∀ files stages, files.map (·.1) = targets.map (·.path) →
      scanAll engine files = .ok stages →
      post (.ok stages) log (standing base log stored
        (heard ++ files.map fun file => ⟨.file owner name file.1, file.2⟩)))
    (unmanned : targets ≠ [] → engine.limits.fetchWorkers ≤ 0 →
      post (.error (.other noWorkers)) log (standing base log stored heard))
    (fails : ∀ files path reply reason,
      (files ++ [(path, reply)]).map (·.1) <+: targets.map (·.path) →
      fileStage engine path reply = .error reason →
      post (.error (.other reason)) log (standing base log stored
        (heard ++ (files ++ [(path, reply)]).map fun file => ⟨.file owner name file.1, file.2⟩))) :
    Keeps (tenure auditId) post (scanFiles engine owner name targets) log
      (standing base log stored heard) := by
  have visits : Keeps (tenure auditId) post
      (targets.mapM fun entry => do
        let content ← ask (.file owner name entry.path)
        demand (fileStage engine entry.path content)) log (standing base log stored heard) := by
    -- The invariant: what was asked so far leads to the stages that are done.
    refine keeps_mapM (fun done rest l p => ∃ files,
      files.map (·.1) ++ rest.map (·.path) = targets.map (·.path) ∧
      scanAll engine files = .ok done ∧ l = log ∧ p = standing base log stored
        (heard ++ files.map fun file => ⟨.file owner name file.1, file.2⟩)) []
      ⟨[], rfl, rfl, rfl, by simp⟩ ?_ ?_
    · rintro done entry rest l p ⟨files, split, scans, rfl, rfl⟩
      refine keeps_bind (keeps_question rfl fun reply => keeps_demand ?_ ?_)
      · intro stage scan
        refine ⟨files ++ [(entry.path, reply)], by simpa using split, ?_, rfl, by simp⟩
        rw [scanAll] at scans ⊢
        simp only [List.mapM_append, scans, List.mapM_cons, scan, List.mapM_nil]
        rfl
      · intro reason failed
        simpa using fails files entry.path reply reason
          ⟨rest.map (·.path), by simpa using split⟩ failed
    · rintro all l p ⟨files, split, scans, rfl, rfl⟩
      exact next files all (by simpa using split) scans
  simp only [scanFiles]
  split
  case isTrue nobody =>
    obtain ⟨some, none⟩ : targets ≠ [] ∧ engine.limits.fetchWorkers ≤ 0 := by simpa using nobody
    exact keeps_bind (keeps_throw (unmanned some none))
  case isFalse => exact visits

/-- Answers about files and the manifest come after those about the repository. -/
lemma exchanges_with {answers : Answers} (unasked : answers.files = [] ∧ answers.manifest = none)
    (files : List (String × Except String String)) (manifest : Option (Except String String)) :
    ({ answers with files, manifest } : Answers).exchanges owner name =
      answers.exchanges owner name ++
        files.map (fun file => ⟨.file owner name file.1, file.2⟩) ++
        manifest.toList.map fun reply => ⟨.file owner name Tree.manifestName, reply⟩ := by
  simp [Answers.exchanges, unasked]

/-- The files that the host did not give are told, and then how many were scanned. -/
lemma keeps_fileLines {answers : Answers} {stages : List (Stage (Option (List Finding)))} {α : Type}
    {following : Part α} {post : Except Interruption α → ScanLog → Progress → Prop}
    (running : base.isRunning = true)
    (next : ∀ longer : ScanLog, longer.lines = log.lines ++ answers.fileLines engine stages →
      Keeps (tenure auditId) post following longer (standing base longer stored heard)) :
    Keeps (tenure auditId) post (do
      for stage in stages do
        if stage.value.isNone then record auditId stage
      keeping (note auditId "pattern_scan" .ok
        ("Scanned " ++ toString (scanned stages).length ++ " files, found " ++
          toString (answers.detected engine stages).length ++ " issues"))
      following) log (standing base log stored heard) := by
  refine keeps_bind (keeps_forIn (fun rest l p => ∃ done, done ++ rest = stages ∧
    ScanLog.lines l = log.lines ++ (done.filter (·.value.isNone)).map Stage.line ∧
    p = standing base l stored heard) ⟨[], rfl, by simp, rfl⟩ ?_ ?_)
  · rintro stage rest l p ⟨done, split, lines, rfl⟩
    by_cases skipped : stage.value.isNone = true
    · rw [if_pos skipped]
      refine keeps_bind (keeps_record running fun longer longerLines => keeps_pure ?_)
      refine ⟨rfl, done ++ [stage], by simpa using split, ?_, rfl⟩
      simp [longerLines, lines, skipped]
    · rw [if_neg skipped]
      refine keeps_pure ⟨rfl, done ++ [stage], by simpa using split, ?_, rfl⟩
      simp [lines, skipped]
  · rintro l p ⟨done, split, lines, rfl⟩
    obtain rfl : done = stages := by simpa using split
    refine keeps_bind (keeps_told running fun longer longerLines => next longer ?_)
    simp [longerLines, lines, Answers.fileLines]

/-- The sensitive files are told one after the other. -/
lemma keeps_sensitiveFiles {sensitive : List Finding} {α : Type} {following : Part α}
    {post : Except Interruption α → ScanLog → Progress → Prop} (running : base.isRunning = true)
    (next : ∀ longer : ScanLog, longer.lines = log.lines ++ sensitive.map (fun finding =>
        ("sensitive_file", StepStatus.warn.name, "Found sensitive file: " ++ finding.filePath.getD "None")) →
      Keeps (tenure auditId) post following longer (standing base longer stored heard)) :
    Keeps (tenure auditId) post (do
      for finding in sensitive do
        keeping (note auditId "sensitive_file" .warn ("Found sensitive file: " ++ finding.filePath.getD "None"))
      following) log (standing base log stored heard) := by
  refine keeps_bind (keeps_forIn (fun rest l p => ∃ done, done ++ rest = sensitive ∧
    ScanLog.lines l = log.lines ++ done.map (fun finding =>
      ("sensitive_file", StepStatus.warn.name, "Found sensitive file: " ++ finding.filePath.getD "None")) ∧
    p = standing base l stored heard) ⟨[], rfl, by simp, rfl⟩ ?_ ?_)
  · rintro finding rest l p ⟨done, split, lines, rfl⟩
    refine keeps_bind (keeps_told running fun longer longerLines => keeps_pure ?_)
    exact ⟨rfl, done ++ [finding], by simpa using split, by simp [longerLines, lines], rfl⟩
  · rintro l p ⟨done, split, lines, rfl⟩
    obtain rfl : done = sensitive := by simpa using split
    exact next l lines

lemma keeps_keyFiles {answers : Answers} {post : Except Interruption Unit → ScanLog → Progress → Prop}
    (running : base.isRunning = true)
    (next : ∀ longer : ScanLog, longer.lines = log.lines ++ [answers.keyLine engine] →
      post (.ok ()) longer (standing base longer stored heard)) :
    Keeps (tenure auditId) post
      (if (Tree.importantFiles engine.rules answers.entries).isEmpty = true then
        keeping (note auditId "key_files" .warn "No recognised project files detected")
      else keeping (note auditId "key_files" .ok
        ("Detected key files: " ++ ", ".intercalate (Tree.importantFiles engine.rules answers.entries))))
      log (standing base log stored heard) := by
  unfold Answers.keyLine at next
  split
  case isTrue none => exact keeps_told running fun longer lines => next longer (by rw [lines, if_pos none])
  case isFalse some => exact keeps_told running fun longer lines => next longer (by rw [lines, if_neg some])

/-- What a scan finds in a tree and in its files, with the lines that tell of it. -/
lemma keeps_inspectTree (answers : Answers)
    {post : Except Interruption (List Finding) → ScanLog → Progress → Prop}
    (running : base.isRunning = true) (unasked : answers.files = [] ∧ answers.manifest = none)
    (opened : log.lines = answers.openingLines owner name)
    (next : ∀ files manifest stages last longer, let full : Answers := { answers with files, manifest }
      full.Scanned engine stages → full.Analyzed engine last →
      ScanLog.lines longer = full.earlyLines engine owner name ++ full.fileLines engine stages ++
        (last.map Stage.line).toList →
      post (.ok (full.detected engine stages ++ (last.map (·.value)).getD [])) longer
        (standing base longer [] (full.exchanges owner name)))
    (fails : ∀ files manifest told reason longer, let full : Answers := { answers with files, manifest }
      Stumbles engine full told reason →
      ScanLog.lines longer = full.earlyLines engine owner name ++ told →
      post (.error (.other reason)) longer (standing base longer [] (full.exchanges owner name))) :
    Keeps (tenure auditId) post (inspectTree engine auditId owner name answers.entries) log
      (standing base log [] (answers.exchanges owner name)) := by
  simp only [inspectTree]
  refine keeps_sensitiveFiles running fun sensed sensedLines => ?_
  refine keeps_either (keeps_bind (keeps_keyFiles running fun keyed keyedLines => ?_))
  refine keeps_bind (keeps_told running fun listed listedLines => ?_)
  have early : listed.lines = answers.earlyLines engine owner name := by
    simp [listedLines, keyedLines, sensedLines, opened, Answers.earlyLines, Answers.treeLines, Answers.targets]
  -- The files are asked for: all of them, or nobody fetches, or one of them ends the scan.
  refine keeps_bind (keeps_scanFiles ?_ ?_ ?_)
  · intro files stages asked scans
    refine keeps_fileLines running fun told toldLines => ?_
    have upTo : told.lines = answers.earlyLines engine owner name ++ answers.fileLines engine stages := by
      rw [toldLines, early]
    split
    case isTrue present =>
      refine keeps_bind (keeps_question rfl fun reply => keeps_bind (keeps_demand ?_ ?_))
      · intro stage analyzed
        refine keeps_bind (keeps_record running fun longer longerLines => keeps_pure ?_)
        have ends := next files (some reply) stages (some stage) longer ⟨asked, scans⟩
          ⟨present.symm, congrArg some analyzed⟩ (by rw [longerLines, upTo]; rfl)
        rw [exchanges_with unasked] at ends
        simpa [Answers.detected, Answers.entries] using ends
      · intro reason failed
        have ends := fails files (some reply) (answers.fileLines engine stages) reason told
          (.manifest ⟨asked, scans⟩ present rfl failed) upTo
        rw [exchanges_with unasked] at ends
        simpa using ends
    case isFalse absent =>
      have ends := next files none stages none told ⟨asked, scans⟩
        ⟨by simpa [Answers.entries] using absent, rfl⟩ (upTo.trans (List.append_nil _).symm)
      rw [exchanges_with unasked] at ends
      refine keeps_pure ?_
      simpa [Answers.detected, Answers.entries] using ends
  · intro some nobody
    have selected : answers.targets engine ≠ [] := by simpa [Answers.targets] using some
    have ends := fails [] none [] noWorkers listed (.noWorkers selected nobody rfl) (by rwa [List.append_nil])
    rw [exchanges_with unasked] at ends
    simpa using ends
  · intro files path reply reason asked failed
    have ends := fails (files ++ [(path, reply)]) none [] reason listed (.file rfl asked failed)
      (by rwa [List.append_nil])
    rw [exchanges_with unasked] at ends
    simpa using ends

/-- How a scan stands when it is interrupted: its audit is noted, and nothing is stored. -/
def BrokenOff (engine : Engine) (base : AuditRecord) (owner name reason : String) (log : ScanLog)
    (p : Progress) : Prop :=
  ∃ answers told, Stumbles engine answers told reason ∧
    log.lines = answers.earlyLines engine owner name ++ told ∧
    p = standing (answers.noted base) log [] (answers.exchanges owner name)

/-- What the body of a scan comes to: one of the ends, or a state that can be recovered from. -/
def Arrives (engine : Engine) (auditId : String) (base : AuditRecord) (owner name : String)
    (result : Except Interruption Unit) (log : ScanLog) (p : Progress) : Prop :=
  match result with
  | .ok _ => Concluded engine auditId base owner name p
  | .error interruption =>
    ∃ reason, interruption = .other reason ∧ BrokenOff engine base owner name reason log p

lemma keeps_explore {host : String} {snapshot : Snapshot} (running : base.isRunning = true)
    (opened : log.lines = [("connect", StepStatus.ok.name, "Connected to " ++ host),
      (repositoryStage owner name (.ok snapshot)).line]) :
    Keeps (tenure auditId) (Arrives engine auditId base owner name)
      (explore engine auditId owner name snapshot) log
      (standing base log [] [⟨.hostName, host⟩, ⟨.repository owner name, .ok snapshot⟩]) := by
  refine keeps_bind (keeps_question rfl fun languages => ?_)
  refine keeps_bind (keeps_record running fun told toldLines => ?_)
  refine keeps_bind (keeps_keeping (keeps_change running (by simp) (by simp) ?_))
  refine keeps_bind (keeps_question rfl fun tree => ?_)
  refine keeps_bind (keeps_record running fun grown grownLines => ?_)
  refine keeps_bind (keeps_keeping (keeps_change running (by simp) (by simp [Json.isPlain_ofList]) ?_))
  refine keeps_bind (keeps_inspectTree ⟨host, snapshot, languages, tree, [], none⟩
    running ⟨rfl, rfl⟩ ?_ ?_ ?_)
  · rw [grownLines, toldLines, opened]; rfl
  · intro files manifest stages last longer full scanned analyzed lines
    refine keeps_conclude running fun final kept now finalLines kepts => ?_
    exact .finished scanned analyzed rfl (by rw [finalLines, lines]) kepts
  · intro files manifest told reason longer full stumbles lines
    exact ⟨reason, rfl, full, told, stumbles, lines, rfl⟩

lemma keeps_body (running : base.isRunning = true) :
    Keeps (tenure auditId)
      (Arrives engine auditId base base.ownerName.display base.repoName.display) (body engine auditId) {}
      (standing base {} [] []) := by
  refine keeps_bind (keeps_ask rfl fun reply found => ?_)
  obtain rfl : reply = some (standing base {} [] []).audit := found running
  refine keeps_bind (keeps_question rfl fun host => ?_)
  refine keeps_bind (keeps_told running fun connected connectedLines => ?_)
  refine keeps_bind (keeps_question rfl fun reply => keeps_bind (keeps_record running fun asked askedLines => ?_))
  have lines : asked.lines = [("connect", StepStatus.ok.name, "Connected to " ++ host),
      (repositoryStage base.ownerName.display base.repoName.display reply).line] := by
    rw [askedLines, connectedLines]; rfl
  cases reply with
  | ok snapshot => exact keeps_explore running lines
  | error reason =>
    refine keeps_bind (keeps_ask trivial fun now _ => ?_)
    refine keeps_keeping (keeps_completion running (by simp [Completes, ending]) ?_ rfl rfl rfl ?_)
    · simp [ending]
    · exact .unreachable lines

/-- A scan that was interrupted completes its audit with the reason. -/
lemma keeps_recover {reason : String} {p : Progress} (running : base.isRunning = true)
    (broken : BrokenOff engine base owner name reason log p) :
    Keeps (tenure auditId) (fun result _ p => result = .ok () ∧ Concluded engine auditId base owner name p)
      (recover auditId (.other reason)) log p := by
  obtain ⟨answers, told, stumbles, lines, rfl⟩ := broken
  refine keeps_bind (keeps_note running fun longer longerLines => ?_)
  refine keeps_bind (keeps_call trivial fun now _ => ?_)
  refine keeps_completion running (by simp [Completes, ending]) ?_ rfl rfl rfl ⟨rfl, ?_⟩
  · simp [ending]
  · exact .interrupted stumbles (by rw [longerLines, lines])

/-- A scan that holds its audit keeps its tenure, comes to one of its ends, and does not fail. -/
lemma keeps_run (running : base.isRunning = true) :
    (run engine auditId).Keeps (tenure auditId)
      (fun result p => (∃ reading, result = .ok reading) ∧
        Concluded engine auditId base base.ownerName.display base.repoName.display p)
      (standing base {} [] []) := by
  refine Program.keeps_bind.mpr (Program.Keeps.mono ?_ (keeps_body running))
  rintro ⟨result, log⟩ p arrives
  have closes {p : Progress}
      (concluded : Concluded engine auditId base base.ownerName.display base.repoName.display p) :
      (do return .ok (← Program.ask (.getAudit auditId)) :
        Program (Except StoreError (Option AuditRecord))).Keeps (tenure auditId)
        (fun result p => (∃ reading, result = .ok reading) ∧
          Concluded engine auditId base base.ownerName.display base.repoName.display p) p :=
    ⟨rfl, fun reading _ => ⟨⟨reading, rfl⟩, concluded⟩⟩
  cases result with
  | ok _ => exact closes arrives
  | error interruption =>
    obtain ⟨reason, rfl, broken⟩ := arrives
    refine Program.keeps_bind.mpr (Program.Keeps.mono ?_ (keeps_recover running broken))
    rintro ⟨_, _⟩ p ⟨rfl, concluded⟩
    exact closes concluded

end Parts

end RepoAudit.Scan
