import RepoAudit.Proofs.Scan.Contract
import RepoAudit.Proofs.Scan.Opening
import RepoAudit.Proofs.Scan.Tolerance
import RepoAudit.Proofs.Store.Records

/-!
# What programs enter

Whatever it is replied, a scan with built-in families enters no findings but those that it found, which are of listed
words and say that they were detected (`Scan.entering_run`). A request for a scan enters none (`Scan.entering_start`).
To see this of a scan, the values that its parts give are followed as well (`Scan.Yields`): what is entered at the end
was found in the tree, in the files or in the manifest.
-/

namespace RepoAudit

/-- A call that enters findings as is asked for. -/
def Call.Enters (origin : Bool → Prop) : Call → Prop
  | createFinding _ draft => draft.Enters origin
  | _ => True

/-- The contract of a program that enters findings as is asked for, and may not count on anything. -/
def entering (origin : Bool → Prop) : Contract Unit where
  allows _ := Call.Enters origin
  next _ _ := ()

/-- What is kept of a finding that a rule makes are listed words. -/
lemma Finding.IsRegular.enters {finding : Finding} (regular : finding.IsRegular) :
    (FindingRecord.ofFinding finding).Enters (· = true) := by
  obtain ⟨⟨category, isCategory⟩, ⟨severity, isSeverity⟩, ⟨effort, isEffort⟩, isOpen, detected, -, -⟩ := regular
  refine ⟨fun field => ?_, true, rfl, congrArg Json.bool detected⟩
  have word {words : List String} {word given : String} (listed : word ∈ words) (is : given = word) :
      ∀ others ∈ some words, ∃ word ∈ others, Json.text given = .text word := by
    rintro _ ⟨⟩
    exact ⟨word, listed, congrArg Json.text is⟩
  cases field with
  | category => exact word (by cases category <;> decide) isCategory
  | severity => exact word (by cases severity <;> decide) isSeverity
  | effort => exact word (by cases effort <;> decide) isEffort
  | status => exact word (by decide) isOpen
  | _ => exact fun words none => nomatch none

namespace Scan

/-- A part of a scan that enters no findings but detected ones, and that gives values of which the first argument
holds. -/
def Yields {ε α : Type} (P : α → Prop) (part : Staged ε α) : Prop :=
  ∀ log, Keeps (entering (· = true)) (fun result _ _ => ∀ value, result = .ok value → P value) part log ()

section Yields

variable {ε α β ι : Type} {P : α → Prop} {Q : β → Prop}

lemma Yields.pure {value : α} (holds : P value) : Yields P (pure value : Staged ε α) := by
  rintro log _ ⟨⟩
  exact holds

lemma Yields.throw (error : ε) : Yields P (throw error : Staged ε α) := by
  rintro log _ ⟨⟩

lemma Yields.bind {part : Staged ε α} {next : α → Staged ε β} (first : Yields P part)
    (second : ∀ value, P value → Yields Q (next value)) : Yields Q (part >>= next) := by
  refine fun log => keeps_bind (Keeps.mono ?_ (first log))
  rintro (error | value) log ⟨⟩ holds
  · rintro _ ⟨⟩
  · exact second value (holds value rfl) log

lemma Yields.call {c : Call} (enters : c.Enters (· = true)) :
    Yields (fun _ => True) (liftM (Program.ask c) : Staged ε c.Reply) :=
  fun _ => keeps_call enters fun _ _ _ _ => trivial

lemma Yields.ask {c : Call} (enters : c.Enters (· = true)) : Yields (fun _ => True) (ask c) := .call enters

lemma Yields.modify (change : ScanLog → ScanLog) : Yields (fun _ => True) (modify change : Staged ε PUnit) :=
  fun _ _ _ => trivial

lemma Yields.get : Yields (fun _ => True) (get : Staged ε ScanLog) := fun _ _ _ => trivial

lemma Yields.keeping {part : Logging α} (yields : Yields P part) : Yields P (keeping part) := by
  refine fun log => keeps_keeping (Keeps.mono ?_ (yields log))
  rintro (error | value) log ⟨⟩ holds
  · rintro _ ⟨⟩
  · rintro _ ⟨⟩
    exact holds value rfl

lemma Yields.demand {result : Except String α} (holds : ∀ value, result = .ok value → P value) :
    Yields P (demand result) := by
  cases result with
  | ok value => exact .pure (holds value rfl)
  | error reason => exact .throw _

/-- One of two parts, and then a third one. -/
lemma Yields.either {c : Prop} [Decidable c] {one other : Staged ε α} {next : α → Staged ε β} (first : Yields P one)
    (second : Yields P other) (third : ∀ value, P value → Yields Q (next value)) :
    Yields Q (if c then one >>= next else other >>= next) := by
  split
  · exact first.bind third
  · exact second.bind third

lemma Yields.forIn {body : ι → Staged ε (ForInStep PUnit)} {items : List ι}
    (round : ∀ item ∈ items, Yields (· = .yield ⟨⟩) (body item)) :
    Yields (fun _ => True) (forIn items PUnit.unit fun item _ => body item) := by
  refine fun log => keeps_forIn (fun left _ _ => ∀ item ∈ left, Yields (· = .yield ⟨⟩) (body item)) round ?_ ?_
  · intro item rest log ⟨⟩ rounds
    obtain ⟨this, others⟩ := List.forall_mem_cons.mp rounds
    refine Keeps.mono ?_ (this log)
    rintro (error | step) log ⟨⟩ holds
    · exact fun _ _ => trivial
    · exact ⟨holds step rfl, others⟩
  · exact fun _ _ _ _ _ => trivial

lemma Yields.mapM {body : ι → Staged ε α} {items : List ι} (each : ∀ item ∈ items, Yields P (body item)) :
    Yields (fun values => ∀ value ∈ values, P value) (items.mapM body) := by
  induction items with
  | nil => exact .pure fun _ none => nomatch none
  | cons item items ih =>
    obtain ⟨this, others⟩ := List.forall_mem_cons.mp each
    rw [List.mapM_cons]
    exact this.bind fun value holds => (ih others).bind fun values all => .pure (List.forall_mem_cons.mpr ⟨holds, all⟩)

end Yields

section Parts

variable {engine : Engine} {auditId owner name : String}

lemma yields_update (changes : List (AuditField × Json)) : Yields (fun _ => True) (update auditId changes) := by
  refine .bind (.call trivial) ?_
  rintro (error | found) -
  · exact .throw error
  · exact .pure trivial

lemma yields_note (step message : String) (status : StepStatus) :
    Yields (fun _ => True) (note auditId step status message) :=
  .bind (.call trivial) fun _ _ => .bind (.modify _) fun _ _ => .bind .get fun _ _ => yields_update _

lemma yields_record {α : Type} (stage : Stage α) : Yields (fun _ => True) (record auditId stage) :=
  .keeping (yields_note _ _ _)

/-- A stage of a file whose findings, if the host gave it, are regular. -/
def Stage.FindsRegular (stage : Stage (Option (List Finding))) : Prop :=
  ∀ findings, stage.value = some findings → ∀ finding ∈ findings, finding.IsRegular

lemma yields_scanFiles (builtin : engine.IsBuiltin) (targets : List TreeEntry) :
    Yields (fun stages => ∀ stage ∈ stages, stage.FindsRegular) (scanFiles engine owner name targets) := by
  have visits : Yields (fun stages => ∀ stage ∈ stages, stage.FindsRegular) (targets.mapM fun entry => do
      let content ← ask (.file owner name entry.path)
      demand (fileStage engine entry.path content)) := by
    refine .mapM fun entry _ => .bind (.ask trivial) fun content _ => .demand ?_
    exact fun stage scans findings given finding => isRegular_fileStage builtin scans given
  simp only [scanFiles]
  split
  · exact .bind (P := fun _ => True) (.throw _) fun _ _ => visits
  · exact visits

/-- All that is found about a tree is regular. -/
lemma yields_inspectTree (builtin : engine.IsBuiltin) (tree : List TreeEntry) :
    Yields (fun findings => ∀ finding ∈ findings, finding.IsRegular) (inspectTree engine auditId owner name tree) := by
  have told (step message : String) (status : StepStatus) :
      Yields (fun _ => True) (keeping (note auditId step status message)) := .keeping (yields_note step message status)
  simp only [inspectTree]
  refine .bind (.forIn fun finding _ => .bind (told _ _ _) fun _ _ => .pure rfl) fun _ _ => ?_
  refine .either (told _ _ _) (told _ _ _) fun _ _ => .bind (told _ _ _) fun _ _ => ?_
  refine .bind (yields_scanFiles builtin _) fun stages scanned => ?_
  refine .bind (.forIn fun stage _ => ?_) fun _ _ => .bind (told _ _ _) fun _ _ => ?_
  · split
    · exact .bind (told _ _ _) fun _ _ => .pure rfl
    · exact .pure rfl
  have regular : ∀ finding ∈ Tree.sensitiveFiles engine.rules tree ++ Tree.layout engine.rules tree ++
      (Scan.scanned stages).flatten, finding.IsRegular := by
    intro finding found
    obtain inTree | inFiles := List.mem_append.mp found
    · obtain sensitive | lacking := List.mem_append.mp inTree
      · exact Tree.isRegular_sensitiveFiles sensitive
      · exact Tree.isRegular_layout lacking
    · obtain ⟨findings, listed, found⟩ := List.mem_flatten.mp inFiles
      obtain ⟨stage, member, given⟩ := List.mem_filterMap.mp listed
      exact scanned stage member findings given finding found
  split
  · refine .bind (.ask trivial) fun reply _ => .bind (P := fun stage => ∀ finding ∈ stage.value, finding.IsRegular)
      (.demand ?_) fun stage analyzed => .bind (told _ _ _) fun _ _ => .pure fun finding found => ?_
    · exact fun stage analyzes finding => isRegular_manifestStage analyzes
    · exact (List.mem_append.mp found).elim (regular finding) (analyzed finding)
  · exact .pure regular

/-- What is entered at the end of a scan was found. -/
lemma yields_conclude {findings : List Finding} (regular : ∀ finding ∈ findings, finding.IsRegular) :
    Yields (fun _ => True) (conclude auditId owner name findings) := by
  refine .bind (.forIn fun finding listed => .bind (.ask ?_) ?_) fun _ _ => ?_
  · exact (regular finding ((Finding.distinctFrom_sublist _ _).subset listed)).enters
  · rintro (_ | _) -
    · exact .bind (P := fun _ => True) (.throw _) fun _ _ => .pure rfl
    · exact .pure rfl
  · exact .bind (.keeping (yields_note _ _ _)) fun _ _ => .bind (.ask trivial) fun _ _ => .keeping (yields_update _)

lemma yields_explore (builtin : engine.IsBuiltin) (snapshot : Snapshot) :
    Yields (fun _ => True) (explore engine auditId owner name snapshot) :=
  .bind (.ask trivial) fun _ _ => .bind (yields_record _) fun _ _ => .bind (.keeping (yields_update _)) fun _ _ =>
    .bind (.ask trivial) fun _ _ => .bind (yields_record _) fun _ _ => .bind (.keeping (yields_update _)) fun _ _ =>
    .bind (yields_inspectTree builtin _) fun _ regular => yields_conclude regular

lemma yields_body (builtin : engine.IsBuiltin) : Yields (fun _ => True) (body engine auditId) := by
  refine .bind (.ask trivial) ?_
  rintro (_ | audit) -
  · exact .throw _
  · refine .bind (.ask trivial) fun _ _ => .bind (.keeping (yields_note _ _ _)) fun _ _ => ?_
    refine .bind (.ask trivial) fun reply _ => .bind (yields_record _) fun _ _ => ?_
    cases reply with
    | ok snapshot => exact yields_explore builtin snapshot
    | error reason => exact .bind (.ask trivial) fun _ _ => .keeping (yields_update _)

lemma yields_recover (interruption : Interruption) : Yields (fun _ => True) (recover auditId interruption) :=
  .bind (yields_note _ _ _) fun _ _ => .bind (.call trivial) fun _ _ => yields_update _

/-- Whatever it is replied, a scan with built-in families enters no findings but detected ones of listed words. -/
lemma entering_run (builtin : engine.IsBuiltin) :
    (run engine auditId).Keeps (entering (· = true)) (fun _ _ => True) () := by
  refine Program.keeps_bind.mpr (Program.Keeps.mono ?_ (yields_body builtin {}))
  rintro ⟨interruption | ⟨⟩, log⟩ ⟨⟩ -
  · refine Program.keeps_bind.mpr (Program.Keeps.mono ?_ (yields_recover interruption log))
    rintro ⟨error | ⟨⟩, log'⟩ ⟨⟩ -
    · trivial
    · exact ⟨trivial, fun _ _ => trivial⟩
  · exact ⟨trivial, fun _ _ => trivial⟩

/-- A request for a scan enters no finding. -/
lemma entering_start : (start auditId).run.Keeps (entering fun _ => False) (fun _ _ => True) () := by
  have opens : (start auditId).run.Keeps (opening auditId) _ .fresh := opens_start
  refine Program.Keeps.mono (fun _ _ _ => trivial) (opens.weaken (fun phase _ c allowed => ?_) fun _ _ _ _ => trivial)
  cases c with
  | createFinding => exact absurd allowed (not_openingAllows_createFinding phase)
  | _ => trivial

end Parts

end Scan

end RepoAudit
