import RepoAudit.Rule.Excerpt
import RepoAudit.Rule.Ruleset

/-!
# Rule families

A family is a group of rules with one policy of when a rule fires in a file. Five families are built
in: secrets and dangerous code fire once for each rule, unstable and unfinished code when a rule matches
more often than a threshold, and the last one looks at the length of the file.
-/

namespace RepoAudit

/-- A group of rules with a policy; an evaluation may fail with a message. -/
structure Family where
  name : String
  /-- The number of lines that excerpts show around a match, for families that show any. -/
  contextLines : Option Int := none
  evaluate : (path : String) → (content : List Char) → Except String (List Finding)

/-- The built-in families. -/
inductive BuiltinFamily where
  | secrets
  | security
  | stability
  | maintainability
  | largeFile
  deriving DecidableEq, Repr

/-- A file that is scanned, with its characters also by position. -/
structure Source where
  path : String
  content : List Char
  text : Array Char

/-- The source of a path and a content. -/
def Source.of (path : String) (content : List Char) : Source := ⟨path, content, content.toArray⟩

namespace BuiltinFamily

/-- All built-in families, in the order in which they report. -/
def all : List BuiltinFamily := [secrets, security, stability, maintainability, largeFile]

/-- The name of a family. -/
def name : BuiltinFamily → String
  | secrets => "secrets"
  | security => "security"
  | stability => "stability"
  | maintainability => "maintainability"
  | largeFile => "large_file"

/-- The line on which a match starts. -/
def startLine (source : Source) (span : Pattern.Span) : Int :=
  Excerpt.lineNumber source.content span.start

/-- The matches of a rule that are not known to be harmless. -/
def secretMatches (rules : Ruleset) (source : Source) (rule : Rule) : List Pattern.Span :=
  (rule.pattern.occurrences source.text).filter fun span => !rules.isAllowed (span.slice source.text)

/-- The finding for a secret, at its first match, with every match of the rule redacted. -/
def secretFinding (context : Int) (source : Source) (rule : Rule) (first : Pattern.Span)
    (spans : List Pattern.Span) : Finding :=
  let line := startLine source first
  { category := rule.category.name
    severity := rule.severity.name
    title := rule.name ++ " Found in Source Code"
    description := "A " ++ Text.lower rule.name ++ " was detected in " ++ source.path ++
      ". This secret is accessible to anyone who can read the repository."
    filePath := some source.path
    lineStart := some line
    lineEnd := some line
    snippet := some (Excerpt.around (Excerpt.mask spans source.content) line context)
    businessImpact := rule.impact
    fixSteps := rule.fix }

/-- The finding for a secret rule, if it matches. -/
def evaluateSecret (rules : Ruleset) (context : Int) (source : Source) (rule : Rule) :
    Option Finding :=
  match secretMatches rules source rule with
  | [] => none
  | first :: rest => some (secretFinding context source rule first (first :: rest))

/-- The finding for a rule about dangerous code, if it matches. -/
def evaluateSecurity (context : Int) (source : Source) (rule : Rule) : Option Finding :=
  match rule.pattern.occurrences source.text with
  | [] => none
  | first :: rest =>
    let line := startLine source first
    let count := rest.length + 1
    some
      { category := rule.category.name
        severity := rule.severity.name
        title := rule.name ++ " in " ++ source.path
        description := "Pattern detected: " ++ rule.name ++ ". Found " ++ toString count ++
          " occurrence(s) in this file."
        filePath := some source.path
        lineStart := some line
        lineEnd := some line
        snippet := some (Excerpt.around source.content line context)
        businessImpact := rule.impact
        fixSteps := rule.fix }

/-- A policy of firing above a number of matches. -/
structure Threshold where
  /-- The greatest number of matches that is let pass. -/
  tolerated : Nat
  /-- What the title says between the number of matches and the path. -/
  between : String
  /-- Whether the finding tells the line of the first match. -/
  locates : Bool
  deriving DecidableEq, Repr

/-- The policy for unstable code. -/
def stabilityPolicy : Threshold := ⟨2, " occurrences in ", true⟩

/-- The policy for unfinished code. -/
def maintainabilityPolicy : Threshold := ⟨3, " in ", false⟩

/-- The finding for a rule that matches more often than its threshold. -/
def evaluateThreshold (policy : Threshold) (source : Source) (rule : Rule) : Option Finding :=
  let spans := rule.pattern.occurrences source.text
  let count := spans.length
  if count ≤ policy.tolerated then none
  else
    some
      { category := rule.category.name
        severity := rule.severity.name
        title := rule.name ++ " (" ++ toString count ++ policy.between ++ source.path ++ ")"
        description := "Found " ++ toString count ++ " instances of this pattern in a single file."
        filePath := some source.path
        lineStart := if policy.locates then spans.head?.map (startLine source) else none
        businessImpact := rule.impact
        fixSteps := rule.fix }

/-- The numbers of lines above which a file is long, and very long. -/
structure LengthPolicy where
  warn : Int := 500
  escalate : Int := 1000
  deriving DecidableEq, Repr

/-- The finding for a file that is too long. -/
def evaluateLength (policy : LengthPolicy) (source : Source) : List Finding :=
  let count := (Text.lines source.content).length
  let shown := toString count
  if (count : Int) ≤ policy.warn then []
  else
    [{ category := Category.maintainability.name
       severity := (if policy.escalate < count then Severity.medium else Severity.low).name
       title := "Large File: " ++ source.path ++ " (" ++ shown ++ " lines)"
       description := "This file has " ++ shown ++ " lines. Large files are harder to review, " ++
         "test, and maintain."
       filePath := some source.path
       lineStart := some 1
       lineEnd := some count
       businessImpact := "Large files increase cognitive load, slow down code reviews, and make " ++
         "it harder to isolate bugs."
       fixSteps := "1. Identify distinct responsibilities in the file\n" ++
         "2. Split into smaller modules by domain/function\n" ++
         "3. Use barrel exports (index.ts) for clean imports"
       effort := Effort.medium.name }]

/-- The findings of a family for a file. -/
def evaluate (rules : Ruleset) (context : Int) (source : Source) : BuiltinFamily → List Finding
  | secrets => rules.secrets.filterMap (evaluateSecret rules context source)
  | security => rules.security.filterMap (evaluateSecurity context source)
  | stability => rules.stability.filterMap (evaluateThreshold stabilityPolicy source)
  | maintainability => rules.maintainability.filterMap (evaluateThreshold maintainabilityPolicy source)
  | largeFile => evaluateLength {} source

/-- True of the families whose findings show excerpts. -/
def showsExcerpts : BuiltinFamily → Bool
  | secrets => true
  | security => true
  | _ => false

/-- A built-in family for a rule set and a number of lines of context. -/
def toFamily (rules : Ruleset) (context : Int) (family : BuiltinFamily) : Family where
  name := family.name
  contextLines := if family.showsExcerpts then some context else none
  evaluate path content := .ok (family.evaluate rules context (Source.of path content))

end BuiltinFamily

end RepoAudit
