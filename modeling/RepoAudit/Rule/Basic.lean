import RepoAudit.Finding.Basic
import RepoAudit.Pattern.Basic

/-!
# Rules

A rule is a pattern with everything that is needed to turn a match into a finding.
-/

namespace RepoAudit

/-- A pattern to look for, and what to say about its matches. -/
structure Rule where
  name : String
  pattern : Pattern
  severity : Severity
  category : Category
  impact : String
  fix : String

/-- A file that should never be committed: a file name, or a part of one. -/
structure SensitiveFile where
  fragment : String
  severity : Severity
  title : String
  deriving DecidableEq, Repr

end RepoAudit
