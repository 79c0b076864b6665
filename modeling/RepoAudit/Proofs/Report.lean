import Mathlib.Algebra.GroupWithZero.Nat
import Mathlib.Data.Set.List
import RepoAudit.Proofs.Partial
import RepoAudit.Proofs.Repetition
import RepoAudit.Proofs.Store.Records
import RepoAudit.Proofs.Text.Basic
import RepoAudit.Report.Markdown

/-!
# Findings in a report

A report lists findings under the words of their severities. Groups are told apart by what values name
(`Group.sameSeverity`), and of texts that is the text itself, so each finding is in the group of its own word and in no
other. The groups then divide the findings, and the counts in the text are those of the groups.
-/

namespace RepoAudit.Report

/-- The findings of a severity, in their order. -/
def ofWord (findings : List FindingRecord) (word : String) : List FindingRecord :=
  findings.filter (·.severity.isText word)

/-- The words are the severities of the findings, each once: first the known ones, in their own order, and then the
others as they first appear. -/
structure Headings (findings : List FindingRecord) (words : List String) : Prop where
  nodup : words.Nodup
  occurs : ∀ word, word ∈ words ↔ ∃ finding ∈ findings, finding.severity = .text word
  order : ∃ knownWords others, words = knownWords ++ others ∧
    knownWords.Sublist (Severity.all.map Severity.name) ∧
    (∀ word ∈ others, word ∉ Severity.all.map Severity.name) ∧
    others.Pairwise fun word other =>
      findings.findIdx (·.severity.isText word) < findings.findIdx (·.severity.isText other)

/-- What a report tells before the findings. -/
def above (report : Report) : String :=
  headText report ++ summaryText report ++ scoresText report ++ planText report

/-- The text of a severity: its word, the number of its findings, and what is told of each of them. -/
def wordText (findings : List FindingRecord) (word : String) : String :=
  line ("### " ++ Text.capitalize word ++ " (" ++ toString (ofWord findings word).length ++ ")") ++ line "" ++
  String.join ((ofWord findings word).map findingText)

/-- What stands under the title of the findings. -/
def wordsText (findings : List FindingRecord) (words : List String) : String :=
  if words.isEmpty then line "No issues detected." else String.join (words.map (wordText findings))

/-- A report lists the findings under the words. -/
structure Lists (report : Report) (findings : List FindingRecord) (words : List String) : Prop where
  headings : Headings findings words
  groups : report.groups = words.map fun word => ⟨.text word, ofWord findings word⟩
  /-- No finding is lost or repeated. -/
  whole : (words.flatMap (ofWord findings)).Perm findings
  total : report.total = findings.length
  sum : (words.map fun word => (ofWord findings word).length).sum = report.total
  text : report.text = above report ++ line ("## Findings (" ++ toString report.total ++ ")") ++ line "" ++
    line (Text.stripEnd (wordsText findings words))

/-! ### Groups of words -/

lemma sameSeverity_text (word : String) (value : Json) : Group.sameSeverity (.text word) value = value.isText word := by
  cases value with
  | text other => exact BEq.comm
  | _ => rfl

section Words

variable {findings : List FindingRecord} {severities words : List String}

/-- The words that have groups: of the known severities and those of the findings, the ones that occur. -/
def headingWords (findings : List FindingRecord) (severities : List String) : List String :=
  (Severity.all.map Severity.name ++ severities).eraseDups.filter fun word => findings.any (·.severity.isText word)

lemma any_isText_iff {word : String} :
    findings.any (·.severity.isText word) = true ↔ ∃ finding ∈ findings, finding.severity = .text word := by
  simp [List.any_eq_true, Json.isText_iff]

/-- The groups are those of the words. -/
lemma ofFindings_eq (are : findings.map (·.severity) = severities.map .text) : Group.ofFindings findings =
    (headingWords findings severities).map fun word => ⟨.text word, ofWord findings word⟩ := by
  have seeds : Group.severities findings = (Severity.all.map Severity.name ++ severities).eraseDups.map .text := by
    rw [Group.severities, Group.known, are, ← Function.comp_def Json.text Severity.name, ← List.map_map,
      ← List.map_append, eraseDupsBy_map]
    rfl
  have occurs (word : String) : (!(Group.ofSeverity findings (.text word)).findings.isEmpty) =
      findings.any (·.severity.isText word) := by
    simp only [Group.ofSeverity, sameSeverity_text]
    rw [Bool.eq_iff_iff]
    simp [List.any_eq_true]
  rw [Group.ofFindings, seeds, List.map_map, List.filter_map, headingWords]
  simp only [Function.comp_def, occurs]
  refine List.map_congr_left fun word _ => ?_
  simp only [Group.ofSeverity, sameSeverity_text, ofWord]

/-- A word first appears with the finding that has it first. -/
lemma findIdx_isText (are : findings.map (·.severity) = severities.map .text) (word : String) :
    findings.findIdx (·.severity.isText word) = severities.idxOf word := by
  have through := List.findIdx_map findings (·.severity) (Json.isText word)
  rw [are, List.findIdx_map] at through
  exact through.symm

lemma headings_headingWords (are : findings.map (·.severity) = severities.map .text) :
    Headings findings (headingWords findings severities) := by
  have isSeverity {word : String} (occurs : ∃ finding ∈ findings, finding.severity = .text word) :
      word ∈ severities := by
    obtain ⟨finding, isFinding, is⟩ := occurs
    have inside : Json.text word ∈ severities.map .text := are ▸ is ▸ List.mem_map_of_mem isFinding
    obtain ⟨word', inside, same⟩ := List.mem_map.mp inside
    exact Json.text.inj same ▸ inside
  let occurs (word : String) : Bool := findings.any (·.severity.isText word)
  let known := Severity.all.map Severity.name
  have divided : headingWords findings severities =
      known.filter occurs ++ (severities.removeAll known).eraseDups.filter occurs := by
    rw [headingWords, List.eraseDups_append, List.filter_append]
    rfl
  have unknown : ∀ word ∈ (severities.removeAll known).eraseDups, (!decide (word ∈ known)) = true := by
    intro word inside
    rw [← List.elem_eq_mem]
    exact (List.mem_filter.mp (List.mem_eraseDups.mp inside)).2
  refine ⟨(nodup_eraseDups _).filter _, fun word => ?_, _, _, divided, List.filter_sublist, fun word inside => ?_, ?_⟩
  · rw [headingWords, List.mem_filter, any_isText_iff, List.mem_eraseDups]
    exact ⟨And.right, fun occurs => ⟨List.mem_append_right _ (isSeverity occurs), occurs⟩⟩
  · simpa only [Bool.not_eq_true', decide_eq_false_iff_not] using unknown word (List.mem_filter.mp inside).1
  · refine ((pairwise_eraseDups _).imp_of_mem fun {word other} inside inside' before => ?_).filter occurs
    rw [findIdx_isText are, findIdx_isText are]
    simp only [List.removeAll, List.elem_eq_mem] at before
    exact idxOf_lt_of_filter (p := fun word => !decide (word ∈ known)) (unknown word inside) (unknown other inside')
      before

/-- Each finding is in the group of its own word. -/
lemma perm_flatMap_ofWord (worded : ∀ finding ∈ findings, ∃ word, finding.severity = .text word)
    (headings : Headings findings words) : (words.flatMap (ofWord findings)).Perm findings := by
  refine perm_flatMap_filter (fun word (finding : FindingRecord) => finding.severity.isText word) ?_
    fun finding inside => ?_
  · refine headings.nodup.imp fun {word other} apart finding is => ?_
    rw [Bool.eq_false_iff]
    intro isOther
    rw [Json.isText_iff] at is isOther
    exact apart (Json.text.inj (is.symm.trans isOther))
  · obtain ⟨word, is⟩ := worded finding inside
    exact ⟨word, (headings.occurs word).mpr ⟨finding, inside, is⟩, Json.isText_iff.mpr is⟩

end Words

/-! ### The text -/

section Text

variable {report : Report} {findings : List FindingRecord} {words : List String}

/-- The title of the findings stays, since something solid follows it. -/
lemma text_eq (groups : report.groups = words.map fun word => ⟨.text word, ofWord findings word⟩) :
    report.text = above report ++ line ("## Findings (" ++ toString report.total ++ ")") ++ line "" ++
      line (Text.stripEnd (wordsText findings words)) := by
  have body : (if report.groups.isEmpty then line "No issues detected." else "") ++
      String.join (report.groups.map groupText) = wordsText findings words := by
    rw [groups, List.map_map]
    cases words with
    | nil => exact String.append_empty
    | cons word rest => exact String.empty_append
  have solid : ∃ c ∈ (wordsText findings words).toList, Text.isBlank c = false := by
    cases words with
    | nil => exact ⟨'N', by simp [wordsText, line], by decide⟩
    | cons word rest => exact ⟨'#', by simp [wordsText, wordText, line], by decide⟩
  have whole : headText report ++ summaryText report ++ scoresText report ++ planText report ++ findingsText report =
      above report ++ line ("## Findings (" ++ toString report.total ++ ")") ++ line "" ++
        wordsText findings words := by
    rw [findingsText, ← body, above]
    simp only [String.append_assoc]
  rw [text, whole, Text.stripEnd_append _ solid]
  simp only [line, String.append_assoc]

end Text

/-! ### The report -/

/-- The findings do not tell whether there is a report, only what it lists. -/
lemma ofRecords_eq (audit : AuditRecord) {findings : List FindingRecord}
    (worded : ∀ finding ∈ findings, ∃ word, finding.severity = .text word) :
    ofRecords audit findings = (ofRecords audit []).map fun report =>
      { report with groups := Group.ofFindings findings, total := findings.length } := by
  have groups : groupsOf findings = .ok (Group.ofFindings findings) := by
    have can : findings.find? (!Group.canName ·.severity) = none := by
      refine List.find?_eq_none.mpr fun finding inside => ?_
      obtain ⟨word, is⟩ := worded finding inside
      simp [is, Group.canName]
    rw [groupsOf, can]
  have none : groupsOf [] = .ok [] := rfl
  change _ = (fun report : Report => { report with groups := Group.ofFindings findings, total := findings.length }) <$>
    ofRecords audit []
  simp only [ofRecords, groups, none, map_bind, map_pure]
  rfl

/-- A report lists every finding once, whatever words their severities are. -/
theorem reports_list_findings_once (audit : AuditRecord) {findings : List FindingRecord}
    (worded : ∀ finding ∈ findings, ∃ word, finding.severity = .text word) :
    (∀ problem, ofRecords audit findings = .error problem ↔ ofRecords audit [] = .error problem) ∧
      ∀ report, ofRecords audit findings = .ok report → ∃ words, Lists report findings words := by
  rw [ofRecords_eq audit worded]
  refine ⟨fun problem => ?_, fun report made => ?_⟩
  · cases ofRecords audit [] <;> simp [Except.map]
  · have are : ∃ severities : List String, severities.map .text = findings.map (·.severity) := by
      have inside : findings.map (·.severity) ∈ Set.range (List.map Json.text) := by
        rw [Set.range_list_map]
        intro severity inside
        obtain ⟨finding, isFinding, rfl⟩ := List.mem_map.mp inside
        obtain ⟨word, is⟩ := worded finding isFinding
        exact ⟨word, is.symm⟩
      exact inside
    obtain ⟨severities, are⟩ := are
    obtain ⟨other, -, rfl⟩ := exists_of_map_ok made
    have headings := headings_headingWords are.symm
    have whole := perm_flatMap_ofWord worded headings
    refine ⟨_, headings, ofFindings_eq are.symm, whole, rfl, ?_, text_eq (ofFindings_eq are.symm)⟩
    rw [← List.length_flatMap, whole.length_eq]

section Sample

/-- An audit that was not scanned yet. -/
def sampleAudit : AuditRecord where
  id := "a1"
  ownerName := .text "acme"
  repoName := .text "app"

/-- A finding of a severity. -/
def sampleFinding (id severity : String) : FindingRecord where
  id
  category := .text "security"
  severity := .text severity
  title := .text "Title"
  description := .text "Description"
  businessImpact := .text "Impact"
  fixSteps := .text "Fix"

/-- Findings of two severities that are known and two that are not. -/
def sampleFindings : List FindingRecord :=
  [sampleFinding "f1" "urgent", sampleFinding "f2" "low", sampleFinding "f3" "odd", sampleFinding "f4" "urgent",
    sampleFinding "f5" "critical"]

theorem reports_list_findings_once_unknown : ∃ report, ofRecords sampleAudit sampleFindings = .ok report ∧
    Lists report sampleFindings ["critical", "low", "urgent", "odd"] := by
  have worded : ∀ finding ∈ sampleFindings, ∃ word, finding.severity = .text word := by
    simp [sampleFindings, sampleFinding]
  refine ⟨_, rfl, ?_⟩
  obtain ⟨words, lists⟩ := (reports_list_findings_once sampleAudit worded).2 _ rfl
  have same : words.map Json.text = ["critical", "low", "urgent", "odd"].map Json.text := by
    have severities := congrArg (List.map Group.severity) lists.groups
    rw [List.map_map] at severities
    exact severities.symm
  rw [← List.map_injective_iff.mpr (fun _ _ => Json.text.inj) same]
  exact lists

end Sample

end RepoAudit.Report
