import Mathlib.Tactic.Common
import RepoAudit.Rule.Engine

/-!
# What families find

A rule has at most one finding in a file, and it does not depend on the other rules (`BuiltinFamily.findingFor`). The
findings of the families differ in their words, and in whether they tell the line of the first match and show the lines
around it; `BuiltinFamily.findingFor_inv` says it once for all of them.
-/

namespace RepoAudit

open Pattern (Span)

/-- Why there is a finding in a file: a rule that fires, or the length of the file. -/
inductive Cause where
  | ofRule (family : BuiltinFamily) (rule : Rule)
  | ofLength

namespace Cause

def category : Cause → Category
  | ofRule _ rule => rule.category
  | ofLength => .maintainability

def severity (source : Source) : Cause → Severity
  | ofRule _ rule => rule.severity
  | ofLength => if 1000 < (Text.lines source.content).length then .medium else .low

/-- The number that a finding tells: that of the matches of its rule, or of the lines of the file. -/
def count (source : Source) : Cause → Nat
  | ofRule _ rule => (rule.pattern.occurrences source.text).length
  | ofLength => (Text.lines source.content).length

def title (source : Source) (cause : Cause) : String :=
  match cause with
  | ofRule .stability rule =>
    rule.name ++ " (" ++ toString (cause.count source) ++ " occurrences in " ++ source.path ++ ")"
  | ofRule .maintainability rule =>
    rule.name ++ " (" ++ toString (cause.count source) ++ " in " ++ source.path ++ ")"
  | ofRule .security rule => rule.name ++ " in " ++ source.path
  | ofRule _ rule => rule.name ++ " Found in Source Code"
  | ofLength => "Large File: " ++ source.path ++ " (" ++ toString (cause.count source) ++ " lines)"

def description (source : Source) (cause : Cause) : String :=
  match cause with
  | ofRule .stability _ => "Found " ++ toString (cause.count source) ++ " instances of this pattern in a single file."
  | ofRule .maintainability _ =>
    "Found " ++ toString (cause.count source) ++ " instances of this pattern in a single file."
  | ofRule .security rule =>
    "Pattern detected: " ++ rule.name ++ ". Found " ++ toString (cause.count source) ++ " occurrence(s) in this file."
  | ofRule _ rule => "A " ++ Text.lower rule.name ++ " was detected in " ++ source.path ++
      ". This secret is accessible to anyone who can read the repository."
  | ofLength => "This file has " ++ toString (cause.count source) ++ " lines. Large files are harder to review, " ++
      "test, and maintain."

end Cause

namespace BuiltinFamily

/-- The rules of a family; the one that looks at lengths has none. -/
def table (rules : Ruleset) : BuiltinFamily → List Rule
  | secrets => rules.secrets
  | security => rules.security
  | stability => rules.stability
  | maintainability => rules.maintainability
  | largeFile => []

/-- The finding of a family for a rule of it. -/
def findingFor (rules : Ruleset) (context : Int) (source : Source) : BuiltinFamily → Rule → Option Finding
  | secrets => evaluateSecret rules context source
  | security => evaluateSecurity context source
  | stability => evaluateThreshold stabilityPolicy source
  | maintainability => evaluateThreshold maintainabilityPolicy source
  | largeFile => fun _ => none

/-- What a family finds without a rule. -/
def aboutLength (source : Source) : BuiltinFamily → List Finding
  | largeFile => evaluateLength {} source
  | _ => []

/-- The matches that the finding for a rule is about. -/
def reported (rules : Ruleset) (source : Source) (rule : Rule) : BuiltinFamily → List Span
  | secrets => secretMatches rules source rule
  | _ => rule.pattern.occurrences source.text

/-- True of the families whose findings tell the line of the first match. -/
def locates : BuiltinFamily → Bool
  | secrets => true
  | security => true
  | stability => true
  | _ => false

/-- The text that the excerpt of a rule is cut from. -/
def evidence (rules : Ruleset) (source : Source) (rule : Rule) : BuiltinFamily → List Char
  | secrets => Excerpt.mask (secretMatches rules source rule) source.content
  | _ => source.content

/-- The finding for a rule, at its first match. -/
def report (rules : Ruleset) (context : Int) (source : Source) (family : BuiltinFamily) (rule : Rule)
    (first : Span) : Finding where
  category := rule.category.name
  severity := rule.severity.name
  title := (Cause.ofRule family rule).title source
  description := (Cause.ofRule family rule).description source
  filePath := some source.path
  lineStart := if family.locates then some (startLine source first) else none
  lineEnd := if family.showsExcerpts then some (startLine source first) else none
  snippet :=
    if family.showsExcerpts then
      some (Excerpt.around (family.evidence rules source rule) (startLine source first) context)
    else none
  businessImpact := rule.impact
  fixSteps := rule.fix

/-- The finding for a file that is too long. -/
def lengthReport (source : Source) : Finding where
  category := Cause.ofLength.category.name
  severity := (Cause.ofLength.severity source).name
  title := Cause.ofLength.title source
  description := Cause.ofLength.description source
  filePath := some source.path
  lineStart := some 1
  lineEnd := some (Cause.ofLength.count source)
  businessImpact := "Large files increase cognitive load, slow down code reviews, and make it harder to isolate bugs."
  fixSteps := "1. Identify distinct responsibilities in the file\n2. Split into smaller modules by domain/function\n" ++
    "3. Use barrel exports (index.ts) for clean imports"
  effort := Effort.medium.name

variable {rules : Ruleset} {context : Int} {source : Source} {family : BuiltinFamily} {rule : Rule} {finding : Finding}

lemma mem_allRules (listed : rule ∈ family.table rules) : rule ∈ rules.allRules := by
  simp only [Ruleset.allRules, List.mem_append]
  cases family with
  | secrets => exact .inl (.inl (.inl listed))
  | security => exact .inl (.inl (.inr listed))
  | stability => exact .inl (.inr listed)
  | maintainability => exact .inr listed
  | largeFile => cases listed

lemma evaluate_eq (rules : Ruleset) (context : Int) (source : Source) (family : BuiltinFamily) :
    family.evaluate rules context source =
      (family.table rules).filterMap (family.findingFor rules context source) ++ family.aboutLength source := by
  cases family with
  | secrets => exact (List.append_nil _).symm
  | security => exact (List.append_nil _).symm
  | stability => exact (List.append_nil _).symm
  | maintainability => exact (List.append_nil _).symm
  | largeFile => rfl

lemma mem_evaluate : finding ∈ family.evaluate rules context source ↔
    (∃ rule ∈ family.table rules, family.findingFor rules context source rule = some finding) ∨
      finding ∈ family.aboutLength source := by
  rw [evaluate_eq, List.mem_append, List.mem_filterMap]

/-- A rule has no finding without a match, and with one it has this one. -/
lemma findingFor_inv (fires : family.findingFor rules context source rule = some finding) :
    ∃ first rest, family.reported rules source rule = first :: rest ∧
      finding = family.report rules context source rule first := by
  cases family with
  | secrets =>
    simp only [findingFor, evaluateSecret] at fires
    split at fires
    · cases fires
    · next first rest is =>
      obtain rfl := Option.some.inj fires
      refine ⟨first, rest, is, ?_⟩
      rw [← is]
      rfl
  | security =>
    simp only [findingFor, evaluateSecurity] at fires
    split at fires
    · cases fires
    · next first rest is =>
      -- The text counts the first match and those after it, which are all matches.
      have count : rest.length + 1 = Cause.count source (.ofRule .security rule) := by
        rw [Cause.count, is, List.length_cons]
      rw [count] at fires
      exact ⟨first, rest, is, (Option.some.inj fires).symm⟩
  | stability | maintainability =>
    simp only [findingFor, evaluateThreshold] at fires
    split at fires
    · cases fires
    · next many =>
      obtain rfl := Option.some.inj fires
      obtain ⟨first, rest, is⟩ := List.exists_cons_of_length_pos (Nat.zero_lt_of_lt (Nat.lt_of_not_le many))
      have head : (rule.pattern.occurrences source.text).head? = some first := by rw [is, List.head?_cons]
      refine ⟨first, rest, is, ?_⟩
      rw [head]
      rfl
  | largeFile => cases fires

lemma aboutLength_eq (source : Source) (family : BuiltinFamily) : family.aboutLength source =
    if family = largeFile ∧ 500 < (Text.lines source.content).length then [lengthReport source] else [] := by
  cases family with
  | largeFile =>
    unfold aboutLength evaluateLength
    dsimp only
    split
    · next short =>
      have short : ¬ 500 < (Text.lines source.content).length := by omega
      exact (if_neg fun long => short long.2).symm
    · next long =>
      have long : largeFile = largeFile ∧ 500 < (Text.lines source.content).length := ⟨rfl, by omega⟩
      have far : (1000 : Int) < (Text.lines source.content).length ↔ 1000 < (Text.lines source.content).length := by
        omega
      rw [if_pos long]
      simp only [far]
      rfl
  | _ => exact (if_neg fun long => nomatch long.1).symm

lemma eq_lengthReport (about : finding ∈ family.aboutLength source) : finding = lengthReport source := by
  rw [aboutLength_eq] at about
  split at about
  · exact List.mem_singleton.mp about
  · cases about

end BuiltinFamily

end RepoAudit
