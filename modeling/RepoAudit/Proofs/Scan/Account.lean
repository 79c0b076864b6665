import RepoAudit.Proofs.Scan.Rescan
import RepoAudit.Proofs.Scan.Tolerance
import RepoAudit.Proofs.Scan.Unmarked

/-!
# What a log accounts for

The log of a scan that has ended is a word of a small grammar (`Scan.IsWord`): the scan did not reach its repository,
it took its whole course, or it broke off on the way and says so. In the log of a whole course the numbers fit: those
that different steps tell fit each other, the tree, and the findings that were added (`Scan.logs_account_for_scans`).
-/

namespace RepoAudit

/-- A step of a log and how it went. -/
abbrev Mark := String × String

/-- The mark of a line. -/
def Line.mark (line : Line) : Mark := (line.1, line.2.1)

/-- The marks of a log. -/
def ScanLog.marks (log : ScanLog) : List Mark := log.lines.map Line.mark

/-- The lines about a step. -/
def Line.about (step : String) (lines : List Line) : List Line := lines.filter (·.1 == step)

/-- The messages of lines about a step. -/
def Line.messages (step : String) (lines : List Line) : List String := (Line.about step lines).map (·.2.2)

/-- The messages of a log about a step. -/
def ScanLog.messages (log : ScanLog) (step : String) : List String := Line.messages step log.lines

namespace Line

variable {step : String} {lines more : List Line}

@[simp] lemma about_append : about step (lines ++ more) = about step lines ++ about step more :=
  List.filter_append _ _

@[simp] lemma messages_append : messages step (lines ++ more) = messages step lines ++ messages step more := by
  simp [messages]

/-- Lines about other steps are not about this one. -/
lemma about_of_ne (other : ∀ line ∈ lines, line.1 ≠ step) : about step lines = [] := by
  simpa [about] using other

end Line

namespace Scan

/-- The course of a scan that nothing breaks off: how those of its steps went that may go in two ways, whether there
was a manifest, how many sensitive files there are, and how many files were skipped. -/
structure Course where
  languages : StepStatus
  tree : StepStatus
  keyFiles : StepStatus
  manifest : Option StepStatus
  sensitive : Nat
  skipped : Nat
  languages_mem : languages ∈ [.ok, .warn]
  tree_mem : tree ∈ [.ok, .error]
  keyFiles_mem : keyFiles ∈ [.ok, .warn]
  manifest_mem : ∀ status ∈ manifest, status ∈ [.ok, .warn]

namespace Course

/-- The marks up to the files. -/
def earlyMarks (course : Course) : List Mark :=
  [("connect", "ok"), ("fetch_repo", "ok"), ("languages", course.languages.name), ("file_tree", course.tree.name)] ++
    List.replicate course.sensitive ("sensitive_file", "warn") ++
    [("key_files", course.keyFiles.name), ("scan_files", "ok")]

/-- The marks of the files. -/
def fileMarks (course : Course) : List Mark :=
  List.replicate course.skipped ("fetch_file", "warn") ++ [("pattern_scan", "ok")]

/-- The mark of the manifest, if there is one. -/
def manifestMarks (course : Course) : List Mark :=
  (course.manifest.map fun status => ("package_analysis", status.name)).toList

/-- All marks of a course. -/
def marks (course : Course) : List Mark :=
  course.earlyMarks ++ course.fileMarks ++ course.manifestMarks ++ [("complete", "ok")]

lemma count_sensitive (course : Course) :
    (course.marks.map Prod.fst).count "sensitive_file" = course.sensitive := by
  cases given : course.manifest <;>
    simp [marks, earlyMarks, fileMarks, manifestMarks, given, List.count_replicate]

lemma count_skipped (course : Course) : (course.marks.map Prod.fst).count "fetch_file" = course.skipped := by
  cases given : course.manifest <;>
    simp [marks, earlyMarks, fileMarks, manifestMarks, given, List.count_replicate]

lemma mem_manifest (course : Course) :
    "package_analysis" ∈ course.marks.map Prod.fst ↔ course.manifest.isSome = true := by
  cases given : course.manifest <;> simp [marks, earlyMarks, fileMarks, manifestMarks, given]

end Course

/-- The marks that the log of a scan can have at its end. -/
inductive IsWord : List Mark → Prop
  | unreachable : IsWord [("connect", "ok"), ("fetch_repo", "error")]
  | whole (course : Course) : IsWord course.marks
  | brokenOff (course : Course) {marks : List Mark} : marks <+: course.marks → marks ≠ course.marks →
    IsWord (marks ++ [("error", "error")])

section Stages

variable {engine : Engine} {owner name : String} {answers : Answers}
variable {stages : List (Stage (Option (List Finding)))} {last : Option (Stage (List Finding))}

lemma languagesStage_status (reply : Except String (List (String × Int))) :
    (languagesStage reply).status ∈ [StepStatus.ok, .warn] := by
  cases reply <;> simp [languagesStage]

lemma treeStage_status (reply : Except String (List TreeEntry)) :
    (treeStage reply).status ∈ [StepStatus.ok, .error] := by
  cases reply <;> simp [treeStage]

lemma manifestStage_status {tree : List TreeEntry} {reply : Except String String} {stage : Stage (List Finding)}
    (analyzes : manifestStage engine tree reply = .ok stage) :
    stage.step = "package_analysis" ∧ stage.status ∈ [StepStatus.ok, .warn] := by
  cases reply with
  | error reason =>
    obtain rfl := Except.ok.inj analyzes
    simp
  | ok text =>
    simp only [manifestStage] at analyzes
    split at analyzes
    · obtain rfl := Except.ok.inj analyzes
      simp
    · split at analyzes
      · cases analyzes
      · obtain rfl := Except.ok.inj analyzes
        simp

namespace Answers

/-- The status of the step about the files that tell what a project is. -/
def keyStatus (engine : Engine) (answers : Answers) : StepStatus :=
  if (Tree.importantFiles engine.rules answers.entries).isEmpty then .warn else .ok

/-- The course that a scan takes with these answers, if nothing breaks it off. -/
def course (engine : Engine) (answers : Answers) (manifest : Option StepStatus)
    (manifest_mem : ∀ status ∈ manifest, status ∈ [StepStatus.ok, .warn]) : Course where
  languages := (languagesStage answers.languages).status
  tree := (treeStage answers.tree).status
  keyFiles := answers.keyStatus engine
  manifest := manifest
  sensitive := (Tree.sensitiveFiles engine.rules answers.entries).length
  skipped := (skipped answers.files).length
  languages_mem := languagesStage_status _
  tree_mem := treeStage_status _
  keyFiles_mem := by unfold keyStatus; split <;> simp
  manifest_mem := manifest_mem

lemma keyLine_eq (answers : Answers) (engine : Engine) :
    ∃ message, answers.keyLine engine = ("key_files", (answers.keyStatus engine).name, message) := by
  unfold keyLine keyStatus
  split
  · exact ⟨_, rfl⟩
  · exact ⟨_, rfl⟩

/-- The stage of languages and that of the tree keep their names. -/
lemma openingLines_eq (answers : Answers) (owner name : String) :
    ∃ connected fetched languages tree, answers.openingLines owner name =
      [("connect", "ok", connected), ("fetch_repo", "ok", fetched),
        ("languages", (languagesStage answers.languages).status.name, languages),
        ("file_tree", (treeStage answers.tree).status.name, tree)] := by
  unfold openingLines
  cases answers.languages <;> cases answers.tree <;> exact ⟨_, _, _, _, rfl⟩

lemma marks_earlyLines {manifest : Option StepStatus}
    (manifest_mem : ∀ status ∈ manifest, status ∈ [StepStatus.ok, .warn]) :
    (answers.earlyLines engine owner name).map Line.mark =
      (answers.course engine manifest manifest_mem).earlyMarks := by
  obtain ⟨connected, fetched, languages, tree, opening⟩ := answers.openingLines_eq owner name
  obtain ⟨message, key⟩ := answers.keyLine_eq engine
  simp [earlyLines, treeLines, opening, key, Course.earlyMarks, course, Line.mark, StepStatus.name, Function.comp_def]

lemma marks_skipped (files : List (String × Except String String)) :
    (skipped files).map Line.mark = List.replicate (skipped files).length ("fetch_file", "warn") := by
  rw [List.eq_replicate_iff]
  refine ⟨List.length_map _, fun mark member => ?_⟩
  obtain ⟨line, told, rfl⟩ := List.mem_map.mp member
  obtain ⟨⟨path, reply⟩, -, is⟩ := List.mem_filterMap.mp told
  cases reply with
  | ok content => cases is
  | error reason =>
    obtain rfl := Option.some.inj is
    rfl

lemma marks_fileLines {manifest : Option StepStatus}
    (manifest_mem : ∀ status ∈ manifest, status ∈ [StepStatus.ok, .warn])
    (scans : scanAll engine answers.files = .ok stages) :
    (answers.fileLines engine stages).map Line.mark = (answers.course engine manifest manifest_mem).fileMarks := by
  rw [fileLines, skipped_eq scans, List.map_append, marks_skipped]
  rfl

lemma Analyzed.status_mem (analyzed : answers.Analyzed engine last) :
    ∀ stage ∈ last, stage.step = "package_analysis" ∧ stage.status ∈ [StepStatus.ok, .warn] := by
  rintro stage rfl
  obtain ⟨reply, -, analyzes⟩ := Option.map_eq_some_iff.mp analyzed.analyzes
  exact manifestStage_status analyzes

lemma length_scanned {files : List (String × Except String String)} (scans : scanAll engine files = .ok stages) :
    (scanned stages).length + (skipped files).length = files.length := by
  have split : (scanned stages).length + (stages.filter (·.value.isNone)).length = stages.length := by
    rw [scanned, List.length_filterMap_eq_countP, ← List.countP_eq_length_filter]
    rw [stages.length_eq_countP_add_countP (p := fun stage => stage.value.isSome)]
    exact congrArg _ (List.countP_congr fun stage _ => by simp)
  rw [← skipped_eq scans, List.length_map, split]
  exact (forall₂_of_mapM scans).length_eq.symm

end Answers

end Stages

section Whole

variable {engine : Engine} {owner name : String} {answers : Answers}
variable {stages : List (Stage (Option (List Finding)))} {last : Option (Stage (List Finding))}
variable {unique : List Finding} {log : ScanLog}

namespace Answers

/-- The lines about files that were skipped are all about this step. -/
lemma step_of_mem_skipped {files : List (String × Except String String)} {line : Line} (told : line ∈ skipped files) :
    line.1 = "fetch_file" := by
  have mark : line.mark ∈ (skipped files).map Line.mark := List.mem_map_of_mem told
  rw [marks_skipped] at mark
  exact congrArg Prod.fst (List.eq_of_mem_replicate mark)

lemma messages_skipped {step : String} (other : step ≠ "fetch_file") (files : List (String × Except String String)) :
    Line.messages step (skipped files) = [] := by
  rw [Line.messages, Line.about_of_ne fun line told same => other (same.symm.trans (step_of_mem_skipped told))]
  rfl

lemma Analyzed.step_of_mem_last (analyzed : answers.Analyzed engine last) {line : Line}
    (told : line ∈ (last.map Stage.line).toList) : line.1 = "package_analysis" := by
  obtain ⟨stage, present, rfl⟩ := List.mem_map.mp (Option.toList_map .. ▸ told)
  exact (analyzed.status_mem stage (by simpa using present)).1

lemma Analyzed.messages_last (analyzed : answers.Analyzed engine last) {step : String}
    (other : step ≠ "package_analysis") : Line.messages step (last.map Stage.line).toList = [] := by
  rw [Line.messages, Line.about_of_ne fun line told same => other (same.symm.trans (analyzed.step_of_mem_last told))]
  rfl

/-- In the lines up to the files one message tells how many there are. -/
lemma messages_earlyLines (answers : Answers) (engine : Engine) (owner name : String) :
    Line.messages "scan_files" (answers.earlyLines engine owner name) =
      ["Scanning " ++ toString (answers.targets engine).length ++ " files for patterns"] ∧
    Line.messages "pattern_scan" (answers.earlyLines engine owner name) = [] ∧
    Line.messages "complete" (answers.earlyLines engine owner name) = [] := by
  obtain ⟨connected, fetched, languages, tree, opening⟩ := answers.openingLines_eq owner name
  obtain ⟨message, key⟩ := answers.keyLine_eq engine
  simp [earlyLines, treeLines, opening, key, Line.messages, Line.about, List.filter_map, Function.comp_def]

lemma about_earlyLines : Line.about "fetch_file" (answers.earlyLines engine owner name) = [] := by
  obtain ⟨connected, fetched, languages, tree, opening⟩ := answers.openingLines_eq owner name
  obtain ⟨message, key⟩ := answers.keyLine_eq engine
  simp [earlyLines, treeLines, opening, key, Line.about, List.filter_map, Function.comp_def]

lemma about_fileLines (scans : scanAll engine answers.files = .ok stages) :
    Line.about "fetch_file" (answers.fileLines engine stages) = skipped answers.files := by
  have all : Line.about "fetch_file" (skipped answers.files) = skipped answers.files :=
    List.filter_eq_self.mpr fun line told => beq_iff_eq.mpr (step_of_mem_skipped told)
  rw [fileLines, skipped_eq scans, Line.about_append, all]
  simp [Line.about]

/-- In the lines about the files one message tells how many were scanned. -/
lemma messages_fileLines (scans : scanAll engine answers.files = .ok stages) :
    Line.messages "scan_files" (answers.fileLines engine stages) = [] ∧
    Line.messages "pattern_scan" (answers.fileLines engine stages) =
      ["Scanned " ++ toString (scanned stages).length ++ " files, found " ++
        toString (answers.detected engine stages).length ++ " issues"] ∧
    Line.messages "complete" (answers.fileLines engine stages) = [] := by
  rw [fileLines, skipped_eq scans]
  simp only [Line.messages_append, messages_skipped (by decide : ("scan_files" : String) ≠ "fetch_file"),
    messages_skipped (by decide : ("pattern_scan" : String) ≠ "fetch_file"),
    messages_skipped (by decide : ("complete" : String) ≠ "fetch_file")]
  simp [Line.messages, Line.about]

end Answers

/-- The numbers in the log of a whole course fit. Here are the answers that the scan was given: it tells of all the
sensitive files of their tree, each file that it was to scan was scanned or skipped, the manifest has a step where the
tree has one, and the findings that it tells of are those that were added. -/
structure Accounts (engine : Engine) (owner name : String) (es : List Exchange) (log : ScanLog) (course : Course)
    (answers : Answers) : Prop where
  asked : es.filter (·.call.asksHost) = answers.exchanges owner name
  sensitive : course.sensitive = (Tree.sensitiveFiles engine.rules answers.entries).length
  files : ∃ scanned found : Nat,
    log.messages "scan_files" = ["Scanning " ++ toString (scanned + course.skipped) ++ " files for patterns"] ∧
    log.messages "pattern_scan" =
      ["Scanned " ++ toString scanned ++ " files, found " ++ toString found ++ " issues"]
  manifest : course.manifest.isSome = true ↔ ∃ entry ∈ answers.entries, entry.isFile ∧ entry.path = "package.json"
  added : ∃ average, log.messages "complete" =
    ["Scan complete: " ++ toString (es.filterMap Exchange.added?).length ++ " findings, " ++ average ++ " avg score"]

/-- The course of a scan that came to its end. -/
lemma Answers.Analyzed.marks_eq (analyzed : answers.Analyzed engine last)
    (scans : scanAll engine answers.files = .ok stages)
    (lines : log.lines = answers.earlyLines engine owner name ++ answers.fileLines engine stages ++
      (last.map Stage.line).toList ++ [completeLine unique]) :
    ∃ manifest_mem, log.marks = (answers.course engine (last.map (·.status)) manifest_mem).marks := by
  have manifest_mem : ∀ status ∈ last.map (·.status), status ∈ [StepStatus.ok, .warn] := by
    intro status given
    obtain ⟨stage, present, rfl⟩ := Option.map_eq_some_iff.mp given
    exact (analyzed.status_mem stage present).2
  refine ⟨manifest_mem, ?_⟩
  have manifest : (last.map Stage.line).toList.map Line.mark =
      (answers.course engine (last.map (·.status)) manifest_mem).manifestMarks := by
    cases last with
    | none => rfl
    | some stage =>
      have step := (analyzed.status_mem stage rfl).1
      simp [Course.manifestMarks, Answers.course, Stage.line, Line.mark, step]
  rw [ScanLog.marks, lines, List.map_append, List.map_append, List.map_append, Answers.marks_earlyLines manifest_mem,
    Answers.marks_fileLines manifest_mem scans, manifest]
  rfl

/-- The log of a whole course accounts for what the scan did. -/
lemma accounts {es : List Exchange} {course : Course} (scans : answers.Scanned engine stages)
    (analyzed : answers.Analyzed engine last)
    (lines : log.lines = answers.earlyLines engine owner name ++ answers.fileLines engine stages ++
      (last.map Stage.line).toList ++ [completeLine unique])
    (asked : es.filter (·.call.asksHost) = answers.exchanges owner name)
    (added : (es.filterMap Exchange.added?).length = unique.length) (is : log.marks = course.marks) :
    Accounts engine owner name es log course answers := by
  obtain ⟨manifest_mem, marks⟩ := analyzed.marks_eq scans.scans lines
  -- The marks tell the numbers of a course, so they are those of the answers.
  have steps := congrArg (List.map Prod.fst) (is.symm.trans marks)
  have sensitive := congrArg (List.count "sensitive_file") steps
  have skipped := congrArg (List.count "fetch_file") steps
  have manifest := course.mem_manifest
  rw [course.count_sensitive, Course.count_sensitive] at sensitive
  rw [course.count_skipped, Course.count_skipped] at skipped
  rw [steps, Course.mem_manifest] at manifest
  obtain ⟨listed, unlisted, uncompleted⟩ := answers.messages_earlyLines engine owner name
  obtain ⟨unlisted', told, uncompleted'⟩ := Answers.messages_fileLines scans.scans
  have files : (scanned stages).length + course.skipped = (answers.targets engine).length := by
    rw [skipped, ← scans.asked, List.length_map]
    exact Answers.length_scanned scans.scans
  refine ⟨asked, sensitive, ⟨(scanned stages).length, (answers.detected engine stages).length, ?_, ?_⟩, ?_, ?_⟩
  · rw [ScanLog.messages, lines, files]
    simp only [Line.messages_append, listed, unlisted',
      analyzed.messages_last (by decide : ("scan_files" : String) ≠ _)]
    simp [Line.messages, Line.about, completeLine]
  · rw [ScanLog.messages, lines]
    simp only [Line.messages_append, unlisted, told, analyzed.messages_last (by decide : ("pattern_scan" : String) ≠ _)]
    simp [Line.messages, Line.about, completeLine]
  · have present : (last.map (·.status)).isSome = Tree.hasRootManifest answers.entries := by
      have same := congrArg Option.isSome analyzed.analyzes
      rw [Option.isSome_map, Option.isSome_map] at same
      rw [← analyzed.asked, same, Option.isSome_map]
    rw [← manifest]
    change (last.map (·.status)).isSome = true ↔ _
    rw [present, Tree.hasRootManifest, Tree.filePaths]
    simp [and_assoc, Tree.manifestName]
  · refine ⟨averageText (Scores.ofFindings unique), ?_⟩
    rw [ScanLog.messages, lines, added]
    simp only [Line.messages_append, uncompleted, uncompleted',
      analyzed.messages_last (by decide : ("complete" : String) ≠ _)]
    simp [Line.messages, Line.about, completeLine]

/-- The log of a scan that was broken off ends with an error, after a part of a course. -/
lemma isWord_brokenOff {told : List Line} {reason : String} (stumbles : Stumbles engine answers told reason)
    (lines : log.lines = answers.earlyLines engine owner name ++ told ++ [("error", StepStatus.error.name, reason)]) :
    ∃ marks, IsWord (marks ++ [("error", "error")]) ∧ log.marks = marks ++ [("error", "error")] := by
  have manifest_mem : ∀ status ∈ (none : Option StepStatus), status ∈ [StepStatus.ok, .warn] := by simp
  let course := answers.course engine none manifest_mem
  have early : (answers.earlyLines engine owner name).map Line.mark = course.earlyMarks :=
    Answers.marks_earlyLines manifest_mem
  -- What is left of the course: the steps about the files and the last one, or the last one only.
  have left : ∃ rest, rest ≠ [] ∧ (answers.earlyLines engine owner name ++ told).map Line.mark ++ rest =
      course.marks := by
    have marks : course.marks = course.earlyMarks ++ (course.fileMarks ++ [("complete", "ok")]) := by
      simp [Course.marks, Course.manifestMarks, course, Answers.course]
    rw [List.map_append, early, marks]
    cases stumbles with
    | noWorkers | file => exact ⟨course.fileMarks ++ [("complete", "ok")], by simp, by simp⟩
    | manifest scanned =>
      rw [Answers.marks_fileLines manifest_mem scanned.scans]
      exact ⟨[("complete", "ok")], by simp, List.append_assoc _ _ _⟩
  obtain ⟨rest, more, split⟩ := left
  refine ⟨_, .brokenOff course ⟨rest, split⟩ fun same => more ?_, ?_⟩
  · simpa [same] using split
  · rw [ScanLog.marks, lines, List.map_append]
    rfl

end Whole

/-- The log of a scan is a word of the grammar, and it accounts for what the scan did if the scan took its whole
course. This is so for every engine and for whatever the host answers at any time, as long as nothing else changes the
audit and no write fails. -/
theorem logs_account_for_scans {engine : Engine} {auditId : String} {audit : AuditRecord}
    {around : List Exchange → World → World} {world after : World} {es : List Exchange}
    {result : Except StoreError (Option AuditRecord)} (found : world.ledger.store.audit? auditId = some audit)
    (apart : ∀ es world, (around es world).ledger.store.audit? auditId = world.ledger.store.audit? auditId)
    (runs : (run engine auditId).runAmid around [] world = (result, es, after)) (saved : ∀ e ∈ es, e.Saved) :
    ∃ (final : AuditRecord) (log : ScanLog), after.ledger.store.audit? auditId = some final ∧
      final.scanLog = Json.ofList LogEntry.toJson log.entries ∧ IsWord log.marks ∧
      ∀ course : Course, log.marks = course.marks →
        ∃ answers, Accounts engine audit.ownerName.display audit.repoName.display es log course answers := by
  obtain ⟨p, concluded, final, stored, heard⟩ := concluded_amid found apart (by rw [runs]; exact saved)
  rw [runs] at final stored heard
  dsimp only at final stored heard
  -- A log that ends otherwise is not that of a whole course: its second or its last mark differs.
  cases concluded with
  | @finished answers stages last unique kept log now scanned analyzed is lines kepts =>
    obtain ⟨_, marks⟩ := analyzed.marks_eq scanned.scans lines
    refine ⟨_, log, final, rfl, marks ▸ .whole _, fun course same => ⟨answers, ?_⟩⟩
    have added : (es.filterMap Exchange.added?).length = unique.length := by
      rw [← stored]
      exact kepts.length_eq.symm
    exact accounts scanned analyzed lines heard.symm added same
  | @unreachable host reason log now lines =>
    have marks : log.marks = [("connect", "ok"), ("fetch_repo", "error")] := by
      rw [ScanLog.marks, lines]
      rfl
    refine ⟨_, log, final, rfl, marks ▸ .unreachable, fun course same => ?_⟩
    have second := congrArg (·[1]?) (marks.symm.trans same)
    simp [Course.marks, Course.earlyMarks] at second
  | @interrupted answers told reason log now stumbles lines =>
    obtain ⟨marks, word, is⟩ := isWord_brokenOff stumbles lines
    refine ⟨_, log, final, rfl, is ▸ word, fun course same => ?_⟩
    have last := congrArg List.getLast? (is.symm.trans same)
    simp [Course.marks] at last

section Sample

/-- A host that gives a tree with a sensitive file and a manifest, and no other file. -/
def sparingHost : SourceHost where
  name := "host"
  repository := fun _ _ => .ok {}
  languages := fun _ _ => .error "unreachable"
  tree := fun _ _ _ => .ok [{ path := ".env" }, { path := "package.json" }, { path := "a.js" }]
  file := fun _ _ path => if path == "package.json" then .ok "oops" else .error "gone"

/-- An audit that was never scanned, at this host. -/
def sparingWorld : World := { emptyWorld with host := sparingHost }

/-- The course of its scan: the manifest is a file to scan as well, but it is no JSON. -/
def sparingCourse : Course where
  languages := .warn
  tree := .ok
  keyFiles := .ok
  manifest := some .warn
  sensitive := 1
  skipped := 2
  languages_mem := by decide
  tree_mem := by decide
  keyFiles_mem := by decide
  manifest_mem := by decide

/-- The marks of the log as an audit has it. -/
def publishedMarks (audit : AuditRecord) : List (Option String × Option String) :=
  match audit.scanLog with
  | .array entries => entries.map fun entry => ((entry.getD "step").text?, (entry.getD "status").text?)
  | _ => []

lemma publishedMarks_eq {audit : AuditRecord} {log : ScanLog}
    (published : audit.scanLog = Json.ofList LogEntry.toJson log.entries) :
    publishedMarks audit = log.marks.map fun mark => (some mark.1, some mark.2) := by
  rw [publishedMarks, published]
  simp [Json.ofList, ScanLog.marks, ScanLog.lines, Line.mark, LogEntry.toJson, Json.getD, Json.get?, Json.Member.get?,
    List.lookup_cons, Json.text?, Function.comp_def]

/-- The scan takes its whole course, and its log accounts for two files that were skipped. -/
theorem logs_account_for_scans_skipping :
    (∀ e ∈ ((run oneFamily "i").runAmid (fun _ world => world) [] sparingWorld).2.1, e.Saved) ∧
    ∃ log : ScanLog, log.marks = sparingCourse.marks ∧ ∃ answers, Accounts oneFamily "owner" "name"
      ((run oneFamily "i").runAmid (fun _ world => world) [] sparingWorld).2.1 log sparingCourse answers := by
  have saved : ∀ e ∈ ((run oneFamily "i").runAmid (fun _ world => world) [] sparingWorld).2.1, e.Saved := by
    decide +kernel
  have found : sparingWorld.ledger.store.audit? "i" = some unscanned := rfl
  have parts {α β γ : Type} (p : α × β × γ) : p = (p.1, p.2.1, p.2.2) := rfl
  have marks : (((run oneFamily "i").runAmid (fun _ world => world) [] sparingWorld).2.2.ledger.store.audit? "i").map
      publishedMarks = some (sparingCourse.marks.map fun mark => (some mark.1, some mark.2)) := by decide +kernel
  obtain ⟨final, log, is, published, -, accounts⟩ :=
    logs_account_for_scans found (fun _ _ => rfl) (parts ((run oneFamily "i").runAmid _ [] sparingWorld)) saved
  rw [is, Option.map_some, publishedMarks_eq published, Option.some.injEq] at marks
  have same : log.marks = sparingCourse.marks := by
    refine List.map_injective_iff.mpr ?_ marks
    rintro ⟨step, status⟩ ⟨step', status'⟩ alike
    simpa using alike
  exact ⟨saved, log, same, accounts sparingCourse same⟩

end Sample

end Scan

end RepoAudit
