import RepoAudit.Proofs.Partial
import RepoAudit.Proofs.Rule.Evidence
import RepoAudit.Proofs.Scan.Conduct
import RepoAudit.Scan.Assembly

/-!
# What a scan puts up with

An answer that is of no use weakens the stage that asked for it, and the log tells so. With built-in families, and
with workers to fetch the files, nothing that the host gives stops a scan, except for a manifest that is beyond what
is read: its failure is none that the stage expects.
-/

namespace RepoAudit

/-- An engine whose families are built-in ones. -/
def Engine.IsBuiltin (engine : Engine) : Prop :=
  ∃ rules context, ∃ chosen : List BuiltinFamily, engine.families = chosen.map (·.toFamily rules context)

/-- The engine of settings has the rules that they give, and the built-in families that they ask for. -/
lemma Engine.build_ok {settings : RuleSettings} {limits : Limits} {engine : Engine}
    (builds : Engine.build settings limits = .ok engine) : Ruleset.build settings {} = .ok engine.rules ∧
      ∃ chosen : List BuiltinFamily, chosen.Sublist BuiltinFamily.all ∧
        engine.families = chosen.map (·.toFamily engine.rules limits.snippetContext) := by
  obtain ⟨ruleset, derives, builds⟩ := exists_of_bind_ok builds
  obtain ⟨families, discovers, builds⟩ := exists_of_bind_ok builds
  obtain rfl := Except.ok.inj builds
  refine ⟨eq_ok_of_mapError derives, ?_⟩
  have found := eq_ok_of_mapError discovers
  -- There are no plugins, so nothing is added to the built-in families.
  simp only [Discovery.discover, List.foldlM_nil, pure, Except.pure] at found
  split at found
  · exact ⟨_, List.filter_sublist, (Except.ok.inj found).symm⟩
  · cases found

lemma Engine.isBuiltin_build {settings : RuleSettings} {limits : Limits} {engine : Engine}
    (builds : Engine.build settings limits = .ok engine) : engine.IsBuiltin := by
  obtain ⟨-, chosen, -, families⟩ := Engine.build_ok builds
  exact ⟨_, _, chosen, families⟩

namespace Scan

/-- With built-in families the stage of a file never fails. -/
lemma fileStage_builtin {engine : Engine} (builtin : engine.IsBuiltin) (path : String)
    (reply : Except String String) : ∃ stage, fileStage engine path reply = .ok stage := by
  obtain ⟨rules, context, chosen, families⟩ := builtin
  cases reply with
  | error reason => exact ⟨_, rfl⟩
  | ok content =>
    have scans : ∃ findings, engine.scanFile path content.toList = .ok findings := by
      rw [Engine.scanFile, families]
      exact ⟨_, BuiltinFamily.scanFile_builtin rules engine.limits chosen path content.toList⟩
    obtain ⟨findings, scans⟩ := scans
    rw [fileStage, scans]
    exact ⟨_, rfl⟩

/-- The stage of the manifest fails just when the text is beyond what is read. -/
lemma manifestStage_eq_error {engine : Engine} {tree : List TreeEntry} {reply : Except String String}
    {reason : String} : manifestStage engine tree reply = .error reason ↔
      ∃ text error, reply = .ok text ∧ Json.read text = .error error ∧ error.isExcessive = true ∧
        reason = error.message := by
  constructor
  · intro fails
    cases reply with
    | error _ => cases fails
    | ok text =>
      cases reads : Json.read text with
      | error error =>
        refine ⟨text, error, rfl, reads, ?_⟩
        simp only [manifestStage, Manifest.analyze, reads] at fails
        cases error with
        | malformed problem position => cases fails
        | integerTooLong digits | tooDeep inArray =>
          cases fails
          exact ⟨rfl, rfl⟩
      | ok value =>
        simp only [manifestStage, Manifest.analyze, reads] at fails
        cases value <;> cases fails
  · rintro ⟨text, error, rfl, reads, excessive, rfl⟩
    simp only [manifestStage, Manifest.analyze, reads]
    cases error with
    | malformed problem position => cases excessive
    | integerTooLong digits | tooDeep inArray => rfl

namespace Answers

/-- The line about languages that the host did not give. -/
def languagesComplaint : Except String (List (String × Int)) → List Line
  | .error _ => [("languages", StepStatus.warn.name, "Could not fetch language data")]
  | .ok _ => []

/-- The line about a tree that the host did not give. -/
def treeComplaint : Except String (List TreeEntry) → List Line
  | .error reason => [("file_tree", StepStatus.error.name, "Cannot fetch file tree: " ++ reason)]
  | .ok _ => []

/-- The lines about files that the host did not give. -/
def skipped (files : List (String × Except String String)) : List Line :=
  files.filterMap fun file =>
    match file.2 with
    | .error reason => some ("fetch_file", StepStatus.warn.name, "Skipped " ++ file.1 ++ ": " ++ reason)
    | .ok _ => none

/-- The line about a manifest that is of no use. -/
def manifestComplaint : Except String String → List Line
  | .error _ => [("package_analysis", StepStatus.warn.name, "Could not fetch " ++ Tree.manifestName)]
  | .ok text =>
    match Json.read text with
    | .ok (.object _) => []
    | _ => [("package_analysis", StepStatus.warn.name, "Could not parse " ++ Tree.manifestName)]

/-- The lines about all answers that are of no use. -/
def complaints (answers : Answers) : List Line :=
  languagesComplaint answers.languages ++ treeComplaint answers.tree ++ skipped answers.files ++
    (answers.manifest.map manifestComplaint).getD []

/-- The manifest that the host gave is beyond what is read, and fails so. -/
def Overtaxes (answers : Answers) (error : Json.ReadError) : Prop :=
  ∃ text, answers.manifest = some (.ok text) ∧ Json.read text = .error error ∧ error.isExcessive = true

/-- If there are files to fetch, there are workers to fetch them. -/
def Manned (engine : Engine) (answers : Answers) : Prop :=
  answers.targets engine = [] ∨ 0 < engine.limits.fetchWorkers

variable {engine : Engine} {answers : Answers} {stages : List (Stage (Option (List Finding)))}
variable {last : Option (Stage (List Finding))}

/-- The stages of files that were not given have their lines. -/
lemma skipped_eq {files : List (String × Except String String)} :
    ∀ {stages : List (Stage (Option (List Finding)))}, scanAll engine files = .ok stages →
      (stages.filter (·.value.isNone)).map Stage.line = skipped files := by
  induction files with
  | nil =>
    intro stages scans
    obtain rfl := Except.ok.inj scans
    rfl
  | cons file files ih =>
    intro stages scans
    rw [scanAll, List.mapM_cons] at scans
    obtain ⟨stage, this, scans⟩ := exists_of_bind_ok scans
    obtain ⟨others, rest, scans⟩ := exists_of_bind_ok scans
    obtain rfl := Except.ok.inj scans
    have told := ih rest
    obtain ⟨path, reply⟩ := file
    cases reply with
    | error reason =>
      obtain rfl := Except.ok.inj this
      simp [skipped, Stage.line, told]
    | ok content =>
      obtain ⟨findings, -, made⟩ := exists_of_bind_ok this
      obtain rfl := Except.ok.inj made
      simp [skipped, told]

lemma manifestComplaint_sublist {tree : List TreeEntry} {reply : Except String String}
    {stage : Stage (List Finding)} (analyzes : manifestStage engine tree reply = .ok stage) :
    (manifestComplaint reply).Sublist [stage.line] := by
  cases reply with
  | error reason =>
    obtain rfl := Except.ok.inj analyzes
    exact .refl _
  | ok text =>
    cases reads : Json.read text with
    | ok value =>
      simp only [manifestStage, Manifest.analyze, manifestComplaint, reads] at analyzes ⊢
      cases value with
      | object members => exact List.nil_sublist _
      | _ =>
        obtain rfl := Except.ok.inj analyzes
        exact .refl _
    | error error =>
      simp only [manifestStage, Manifest.analyze, manifestComplaint, reads] at analyzes ⊢
      cases error with
      | malformed problem position =>
        obtain rfl := Except.ok.inj analyzes
        exact .refl _
      | integerTooLong | tooDeep => cases analyzes

/-- The lines of a scan tell of all answers that are of no use, in the order in which they were given. -/
lemma complaints_sublist (scanned : answers.Scanned engine stages) (analyzed : answers.Analyzed engine last)
    (owner name : String) : answers.complaints.Sublist (answers.earlyLines engine owner name ++
      answers.fileLines engine stages ++ (last.map Stage.line).toList) := by
  have opening : (languagesComplaint answers.languages ++ treeComplaint answers.tree).Sublist
      (answers.earlyLines engine owner name) := by
    have both : ([(languagesStage answers.languages).line] ++ [(treeStage answers.tree).line]).Sublist
        (answers.earlyLines engine owner name) :=
      List.Sublist.trans (.cons _ (.cons _ (.refl _))) (List.sublist_append_left _ _)
    refine List.Sublist.trans (List.Sublist.append ?_ ?_) both
    · cases answers.languages with
      | error reason => exact .refl _
      | ok languages => exact List.nil_sublist _
    · cases answers.tree with
      | error reason => exact .refl _
      | ok tree => exact List.nil_sublist _
  have files : (skipped answers.files).Sublist (answers.fileLines engine stages) := by
    rw [fileLines, skipped_eq scanned.scans]
    exact List.sublist_append_left _ _
  have manifest : ((answers.manifest.map manifestComplaint).getD []).Sublist (last.map Stage.line).toList := by
    have analyzes := analyzed.analyzes
    cases given : answers.manifest with
    | none => exact List.nil_sublist _
    | some reply =>
      rw [given] at analyzes
      cases last with
      | none => cases analyzes
      | some stage => exact manifestComplaint_sublist (Option.some.inj analyzes)
  exact (opening.append files).append manifest

/-- A manifest that overtaxes was not analyzed. -/
lemma Analyzed.not_overtaxes (analyzed : answers.Analyzed engine last) (error : Json.ReadError) :
    ¬answers.Overtaxes error := by
  rintro ⟨text, given, reads, excessive⟩
  have analyzes := analyzed.analyzes
  have fails : manifestStage engine answers.entries (.ok text) = .error error.message :=
    manifestStage_eq_error.mpr ⟨text, error, rfl, reads, excessive, rfl⟩
  rw [given, Option.map_some, fails] at analyzes
  cases last with
  | none => cases analyzes
  | some stage => cases analyzes

end Answers

variable {engine : Engine} {answers : Answers}

/-- With built-in families and with workers, what stops a scan is a manifest that is beyond what is read. -/
lemma Stumbles.overtaxes {told : List Line} {reason : String} (builtin : engine.IsBuiltin)
    (manned : answers.Manned engine) (stumbles : Stumbles engine answers told reason) :
    ∃ error, answers.Overtaxes error ∧ reason = error.message := by
  cases stumbles with
  | noWorkers some nobody =>
    obtain none | workers := manned
    · exact absurd none some
    · exact absurd workers (by omega)
  | @file files path reply reason asked listed fails =>
    obtain ⟨stage, succeeds⟩ := fileStage_builtin builtin path reply
    rw [succeeds] at fails
    cases fails
  | manifest scanned present given fails =>
    obtain ⟨text, error, rfl, reads, excessive, is⟩ := manifestStage_eq_error.mp fails
    exact ⟨error, ⟨text, given, reads, excessive⟩, is⟩

lemma Answers.Overtaxes.unique {error other : Json.ReadError} (beyond : answers.Overtaxes error)
    (beyond' : answers.Overtaxes other) : error = other := by
  obtain ⟨text, given, reads, -⟩ := beyond
  obtain ⟨text', given', reads', -⟩ := beyond'
  obtain rfl := Except.ok.inj (Option.some.inj (given.symm.trans given'))
  exact Except.error.inj (reads.symm.trans reads')

end Scan

/-! ## What scans find

A finding checks none of its values, so that they are known words rests on each rule that makes one. Whatever a scan
with built-in families finds, in the tree, in a file or in the manifest, is of a listed category, severity and effort,
and it is open, detected and not kept yet (`Finding.IsRegular`).
-/

/-- A finding as rules make it. -/
structure Finding.IsRegular (finding : Finding) : Prop where
  category : ∃ category : Category, finding.category = category.name
  severity : ∃ severity : Severity, finding.severity = severity.name
  effort : ∃ effort : Effort, finding.effort = effort.name
  status : finding.status = Handling.open.name
  detected : finding.autoDetected = true
  id : finding.id = none
  auditId : finding.auditId = none

section Rules

variable {rules : Ruleset} {tree : List TreeEntry} {finding : Finding}

namespace Tree

lemma isRegular_findingWhen {condition : Bool} {given : Finding} (regular : given.IsRegular)
    (found : finding ∈ findingWhen condition given) : finding.IsRegular := by
  unfold findingWhen at found
  split at found
  · exact List.mem_singleton.mp found ▸ regular
  · cases found

lemma isRegular_sensitiveFiles (found : finding ∈ sensitiveFiles rules tree) : finding.IsRegular := by
  obtain ⟨file, -, is⟩ := List.mem_filterMap.mp found
  obtain ⟨path, -, rfl⟩ := Option.map_eq_some_iff.mp is
  exact ⟨⟨.security, rfl⟩, ⟨file.severity, rfl⟩, ⟨.small, rfl⟩, rfl, rfl, rfl, rfl⟩

lemma isRegular_layout (found : finding ∈ layout rules tree) : finding.IsRegular := by
  obtain found | noPipeline := List.mem_append.mp found
  · obtain noIgnore | noLock := List.mem_append.mp found
    · refine isRegular_findingWhen ?_ noIgnore
      exact ⟨⟨.security, rfl⟩, ⟨.high, rfl⟩, ⟨.small, rfl⟩, rfl, rfl, rfl, rfl⟩
    · refine isRegular_findingWhen ?_ noLock
      exact ⟨⟨.stability, rfl⟩, ⟨.high, rfl⟩, ⟨.small, rfl⟩, rfl, rfl, rfl, rfl⟩
  · refine isRegular_findingWhen ?_ noPipeline
    exact ⟨⟨.cicd, rfl⟩, ⟨.medium, rfl⟩, ⟨.medium, rfl⟩, rfl, rfl, rfl, rfl⟩

end Tree

lemma Manifest.isRegular_analyze {text : String} {report : Report} (analyzes : analyze rules tree text = .ok report)
    (found : finding ∈ report.findings) : finding.IsRegular := by
  unfold analyze at analyzes
  split at analyzes
  · cases analyzes
  · cases analyzes
    obtain noLinter | noTypecheck := List.mem_append.mp found
    · refine Tree.isRegular_findingWhen ?_ noLinter
      exact ⟨⟨.maintainability, rfl⟩, ⟨.low, rfl⟩, ⟨.small, rfl⟩, rfl, rfl, rfl, rfl⟩
    · refine Tree.isRegular_findingWhen ?_ noTypecheck
      exact ⟨⟨.stability, rfl⟩, ⟨.medium, rfl⟩, ⟨.small, rfl⟩, rfl, rfl, rfl, rfl⟩
  · cases analyzes

namespace BuiltinFamily

/-- Whatever family a finding is of, the words of the rule that fires are listed ones. -/
lemma isRegular_evaluate {context : Int} {source : Source} {family : BuiltinFamily}
    (found : finding ∈ family.evaluate rules context source) : finding.IsRegular := by
  rcases mem_evaluate.mp found with ⟨rule, -, fires⟩ | about
  · obtain ⟨first, rest, -, rfl⟩ := findingFor_inv fires
    exact ⟨⟨rule.category, rfl⟩, ⟨rule.severity, rfl⟩, ⟨.small, rfl⟩, rfl, rfl, rfl, rfl⟩
  · obtain rfl := eq_lengthReport about
    exact ⟨⟨.maintainability, rfl⟩, ⟨_, rfl⟩, ⟨.medium, rfl⟩, rfl, rfl, rfl, rfl⟩

end BuiltinFamily

end Rules

namespace Scan

variable {engine : Engine} {finding : Finding}

lemma isRegular_fileStage (builtin : engine.IsBuiltin) {path : String} {reply : Except String String}
    {stage : Stage (Option (List Finding))} {findings : List Finding} (scans : fileStage engine path reply = .ok stage)
    (given : stage.value = some findings) (found : finding ∈ findings) : finding.IsRegular := by
  obtain ⟨rules, context, chosen, families⟩ := builtin
  cases reply with
  | error reason =>
    cases scans
    cases given
  | ok content =>
    obtain ⟨findings', scan, is⟩ := exists_of_bind_ok scans
    obtain rfl := Except.ok.inj is
    obtain rfl := Option.some.inj given
    have evaluates : engine.scanFile path content.toList =
        .ok (chosen.map fun family => family.evaluate rules context (.of path content.toList)).flatten := by
      rw [Engine.scanFile, families]
      exact BuiltinFamily.scanFile_builtin rules engine.limits chosen path content.toList
    obtain rfl := Except.ok.inj (evaluates.symm.trans scan)
    obtain ⟨_, listed, found⟩ := List.mem_flatten.mp found
    obtain ⟨family, -, rfl⟩ := List.mem_map.mp listed
    exact BuiltinFamily.isRegular_evaluate found

lemma isRegular_manifestStage {tree : List TreeEntry} {reply : Except String String} {stage : Stage (List Finding)}
    (analyzes : manifestStage engine tree reply = .ok stage) (found : finding ∈ stage.value) : finding.IsRegular := by
  cases reply with
  | error reason =>
    cases analyzes
    cases found
  | ok text =>
    simp only [manifestStage] at analyzes
    split at analyzes
    · next analyzed =>
      cases analyzes
      exact Manifest.isRegular_analyze analyzed found
    · split at analyzes
      · cases analyzes
      · cases analyzes
        cases found

end Scan

end RepoAudit
