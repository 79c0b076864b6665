import RepoAudit.Proofs.Finding.Distinct
import RepoAudit.Proofs.Scan.Tolerance

/-!
# The results of a scan fit its findings

A scan hands one list of findings to the store, to the scores, to the summary and to the plan. What the store gives
back are the same findings under ids of their own (`Scan.KeptAs.unfiled_toFinding`), and no result looks at an id. So
the results that an audit shows are those of the findings that are read back (`AuditRecord.Fits`).
-/

namespace RepoAudit

namespace Finding

/-- The finding apart from where it is kept. -/
def unfiled (finding : Finding) : Finding := { finding with id := none, auditId := none }

/-- A finding as a rule makes it: detected, and not kept yet. -/
structure IsNew (finding : Finding) : Prop where
  detected : finding.autoDetected = true
  id : finding.id = none
  auditId : finding.auditId = none

lemma IsRegular.isNew {finding : Finding} (regular : finding.IsRegular) : finding.IsNew :=
  ⟨regular.detected, regular.id, regular.auditId⟩

lemma IsNew.unfiled_eq {finding : Finding} (new : finding.IsNew) : finding.unfiled = finding := by
  obtain ⟨-, id, auditId⟩ := new
  cases finding
  cases id
  cases auditId
  rfl

end Finding

/-! ### Results do not look at ids -/

section Unfiled

variable (findings : List Finding)

lemma Scores.ofFindings_unfiled : ofFindings (findings.map Finding.unfiled) = ofFindings findings := by
  simp only [ofFindings, ofFunction, ofCategory, remainder, List.filter_map, List.foldl_map]
  rfl

lemma Summary.count_unfiled (severity : Severity) :
    count severity (findings.map Finding.unfiled) = count severity findings := by
  simp only [count, List.filter_map, List.length_map]
  rfl

lemma Plan.titles_unfiled (severity : Severity) :
    titles severity (findings.map Finding.unfiled) = titles severity findings := by
  simp only [titles, List.filter_map, List.map_map]
  rfl

lemma Plan.ofFindings_unfiled : ofFindings (findings.map Finding.unfiled) = ofFindings findings := by
  simp only [ofFindings, phases, titles_unfiled]

end Unfiled

/-! ### What summaries and plans tell -/

/-- What a summary says first: what was scanned, and how many findings there are. -/
def Summary.opening (owner repo : String) (total criticals highs mediums : Nat) : String :=
  s!"Automated scan of {owner}/{repo} identified {total} issues: " ++
    s!"{criticals} critical, {highs} high, {mediums} medium severity. "

lemma Summary.finished_opening (owner repo : String) (findings : List Finding) (scores : Scores) :
    ∃ rest, finished owner repo findings scores =
      opening owner repo findings.length (count .critical findings) (count .high findings) (count .medium findings) ++
        rest := by
  unfold finished opening
  simp only [String.append_assoc]
  exact ⟨_, rfl⟩

namespace Plan

open Summary (count)

/-- The phases that a plan may have, in their order: the name of each, and what it repairs. -/
def stages : List (String × Severity) :=
  [("Stop the Bleeding", .critical), ("Stabilize", .high), ("Harden", .medium)]

/-- What a plan says of such a phase: its name, and the first titles of what it repairs. -/
def told (findings : List Finding) (stage : String × Severity) : String × List String :=
  (stage.1, (titles stage.2 findings).take (min 5 (count stage.2 findings)))

/-- The plan is one for the findings. -/
structure Fits (findings : List Finding) (plan : List Phase) : Prop where
  /-- There is a phase for each of these severities that findings have. -/
  phases : (∃ stage ∈ stages, count stage.2 findings ≠ 0) →
    plan.map (fun phase => (phase.name, phase.tasks)) =
      (stages.filter fun stage => count stage.2 findings ≠ 0).map (told findings)
  /-- The plan is just that there is nothing to repair when there is nothing. -/
  maintenance : plan = [maintenance] ↔ ∀ stage ∈ stages, count stage.2 findings = 0

variable (findings : List Finding)

/-- A phase is there when there are titles, and lists the first of them. -/
lemma phase?_told (name days : String) (severity : Severity) :
    (phase? name days (titles severity findings)).map (fun phase => (phase.name, phase.tasks)) =
      ([(name, severity)].filter fun stage => count stage.2 findings ≠ 0).map (told findings) := by
  have length : (titles severity findings).length = count severity findings := List.length_map _
  unfold phase?
  split
  · next none =>
    have zero : count severity findings = 0 := by
      rw [← length, List.isEmpty_iff.mp none, List.length_nil]
    simp [zero]
  · next some =>
    have positive : count severity findings ≠ 0 := by
      rw [← length, ne_eq, List.length_eq_zero_iff, ← List.isEmpty_iff]
      exact some
    have first : (titles severity findings).take taskLimit =
        (titles severity findings).take (min 5 (count severity findings)) := by
      rw [← length, ← List.take_take, List.take_length, taskLimit]
    simp [positive, first, told]

lemma phases_told : (phases findings).map (fun phase => (phase.name, phase.tasks)) =
    (stages.filter fun stage => count stage.2 findings ≠ 0).map (told findings) := by
  simp only [phases, List.map_append, phase?_told]
  rw [← List.map_append, ← List.map_append, ← List.filter_append, ← List.filter_append]
  rfl

/-- A plan has no phase just when there is nothing to repair. -/
lemma phases_eq_nil_iff : phases findings = [] ↔ ∀ stage ∈ stages, count stage.2 findings = 0 := by
  rw [← List.map_eq_nil_iff (f := fun phase : Phase => (phase.name, phase.tasks)), phases_told, List.map_eq_nil_iff,
    List.filter_eq_nil_iff]
  simp

/-- No phase that repairs something is that of a plan without such phases. -/
lemma maintenance_notMem_phases : maintenance ∉ phases findings := by
  intro listed
  have named := List.mem_map_of_mem (f := fun phase : Phase => (phase.name, phase.tasks)) listed
  rw [phases_told] at named
  obtain ⟨stage, present, same⟩ := List.mem_map.mp named
  have other : ∀ stage ∈ stages, stage.1 ≠ maintenance.name := by decide
  exact other stage (List.mem_of_mem_filter present) (congrArg Prod.fst same)

lemma fits_ofFindings : Fits findings (ofFindings findings) := by
  unfold ofFindings
  split
  · next none =>
    have nothing := (phases_eq_nil_iff findings).mp none
    exact ⟨fun ⟨stage, known, positive⟩ => absurd (nothing stage known) positive, iff_of_true rfl nothing⟩
  · next some =>
    refine ⟨fun _ => phases_told findings, iff_of_false (fun same => ?_) fun nothing => ?_⟩
    · exact maintenance_notMem_phases findings (same ▸ List.mem_singleton_self _)
    · exact some ((phases_eq_nil_iff findings).mpr nothing)

end Plan

/-- The results of the audit are those of the findings: its scores, its summary and its plan. -/
structure AuditRecord.Fits (audit : AuditRecord) (findings : List Finding) : Prop where
  scores : audit.scores = (Scores.ofFindings findings).toJson
  /-- The summary starts with the number of findings, and with how many there are of the higher severities. -/
  summary : ∃ rest, audit.executiveSummary = .text
    (Summary.opening audit.ownerName.display audit.repoName.display findings.length (Summary.count .critical findings)
      (Summary.count .high findings) (Summary.count .medium findings) ++ rest)
  plan : ∃ plan, audit.remediationPlan = Json.ofList Phase.toJson plan ∧ Plan.Fits findings plan

namespace Scan

section Stages

variable {engine : Engine} {finding : Finding}
variable {answers : Answers} {stages : List (Stage (Option (List Finding)))} {last : Option (Stage (List Finding))}

/-- All that a scan with built-in families finds: in the tree, in the files and in the manifest. -/
def Answers.found (engine : Engine) (answers : Answers) (stages : List (Stage (Option (List Finding))))
    (last : Option (Stage (List Finding))) : List Finding :=
  answers.detected engine stages ++ (last.map (·.value)).getD []

lemma Answers.isNew_found (builtin : engine.IsBuiltin) (scanned : answers.Scanned engine stages)
    (analyzed : answers.Analyzed engine last) (found : finding ∈ answers.found engine stages last) : finding.IsNew := by
  obtain inTree | inManifest := List.mem_append.mp found
  · obtain inTree | inFiles := List.mem_append.mp inTree
    · obtain sensitive | lacking := List.mem_append.mp inTree
      · exact (Tree.isRegular_sensitiveFiles sensitive).isNew
      · exact (Tree.isRegular_layout lacking).isNew
    · obtain ⟨findings, listed, found⟩ := List.mem_flatten.mp inFiles
      obtain ⟨stage, member, given⟩ := List.mem_filterMap.mp listed
      obtain ⟨file, -, scans⟩ := exists_of_mem_mapM_ok scanned.scans stage member
      exact (isRegular_fileStage builtin scans given found).isNew
  · cases last with
    | none => cases inManifest
    | some stage =>
      obtain ⟨reply, -, analyzes⟩ := Option.map_eq_some_iff.mp analyzed.analyzes
      exact (isRegular_manifestStage analyzes inManifest).isNew

end Stages

/-! ### What is read back -/

section Kept

variable {auditId : String} {finding : Finding} {record : FindingRecord}

/-- A record that is read back is the finding that it was made of, under its id. -/
lemma KeptAs.toFinding_eq (kept : KeptAs auditId finding record) :
    record.toFinding = { finding with id := some record.id, auditId := some auditId } := by
  obtain ⟨id, rfl⟩ := kept
  obtain ⟨_, _, _, _, _, _, _, filePath, lineStart, lineEnd, snippet, _, _, _, _⟩ := finding
  cases filePath <;> cases lineStart <;> cases lineEnd <;> cases snippet <;> rfl

lemma KeptAs.unfiled_toFinding (kept : KeptAs auditId finding record) (new : finding.IsNew) :
    record.toFinding.unfiled = finding := by
  rw [kept.toFinding_eq, ← new.unfiled_eq]
  rfl

/-- All findings that a scan has kept are read back, and they are detected ones. -/
lemma unfiled_kept {unique : List Finding} {kept : List FindingRecord}
    (keeps : List.Forall₂ (KeptAs auditId) unique kept) (new : ∀ finding ∈ unique, finding.IsNew) :
    (kept.map FindingRecord.toFinding).map Finding.unfiled = unique ∧
      ∀ record ∈ kept, record.autoDetected.isTruthy = true := by
  induction keeps with
  | nil => exact ⟨rfl, fun record none => nomatch none⟩
  | @cons finding record unique kept keptAs _ ih =>
    obtain ⟨first, rest⟩ := List.forall_mem_cons.mp new
    obtain ⟨back, detected⟩ := ih rest
    refine ⟨?_, List.forall_mem_cons.mpr ⟨?_, detected⟩⟩
    · rw [List.map_cons, List.map_cons, back, keptAs.unfiled_toFinding first]
    · obtain ⟨id, rfl⟩ := keptAs
      exact first.detected

variable {engine : Engine} {base : AuditRecord} {p : Progress}

/-- Once a scan with built-in families has ended with scores, the findings that it stored are read back as what it found
without repetitions, they are detected ones, and the results are theirs. -/
lemma Concluded.fits (builtin : engine.IsBuiltin)
    (concluded : Concluded engine auditId base base.ownerName.display base.repoName.display p)
    (unscored : base.scores = .null) (scored : p.audit.scores ≠ .null) :
    (∃ answers stages last, Answers.Scanned engine answers stages ∧ Answers.Analyzed engine answers last ∧
      p.heard = answers.exchanges base.ownerName.display base.repoName.display ∧
      (p.stored.map FindingRecord.toFinding).map Finding.unfiled =
        Finding.distinct (answers.found engine stages last)) ∧
    (∀ record ∈ p.stored, record.autoDetected.isTruthy = true) ∧
    ((p.stored.map FindingRecord.toFinding).map Finding.signature).Nodup ∧
    p.audit.Fits (p.stored.map FindingRecord.toFinding) := by
  cases concluded with
  | unreachable => exact absurd unscored scored
  | interrupted => exact absurd unscored scored
  | @finished answers stages last unique kept log now scanned analyzed distinct _ keeps =>
    have new : ∀ finding ∈ unique, finding.IsNew := by
      intro finding member
      rw [distinct] at member
      exact answers.isNew_found builtin scanned analyzed ((Finding.distinctFrom_sublist _ _).subset member)
    obtain ⟨back, detected⟩ := unfiled_kept keeps new
    generalize kept.map FindingRecord.toFinding = findings at back ⊢
    subst back
    refine ⟨⟨answers, stages, last, scanned, analyzed, rfl, distinct⟩, detected, ?_, ?_⟩
    · have signatures : findings.map Finding.signature = (findings.map Finding.unfiled).map Finding.signature := by
        rw [List.map_map]
        rfl
      rw [signatures, distinct]
      exact Finding.nodup_signatures_distinct _
    · obtain ⟨rest, opens⟩ := Summary.finished_opening base.ownerName.display base.repoName.display
        (findings.map Finding.unfiled) (Scores.ofFindings (findings.map Finding.unfiled))
      simp only [Summary.count_unfiled, List.length_map] at opens
      refine ⟨congrArg Scores.toJson (Scores.ofFindings_unfiled findings), ⟨rest, congrArg Json.text opens⟩,
        _, rfl, ?_⟩
      rw [Plan.ofFindings_unfiled]
      exact Plan.fits_ofFindings findings

end Kept

end Scan

end RepoAudit
