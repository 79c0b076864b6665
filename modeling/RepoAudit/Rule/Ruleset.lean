import RepoAudit.Pattern.Reader
import RepoAudit.Rule.Catalog

/-!
# Rule sets

A rule set holds every table that a scan consults. One is derived from the catalog by leaving out rules
by name and by adding patterns of values that are known to be no secrets.
-/

namespace RepoAudit

/-- Every table that a scan consults. -/
structure Ruleset where
  secrets : List Rule := Catalog.secrets
  security : List Rule := Catalog.security
  stability : List Rule := Catalog.stability
  maintainability : List Rule := Catalog.maintainability
  sensitiveFiles : List SensitiveFile := Catalog.sensitiveFiles
  importantFiles : List String := Catalog.importantFiles
  scannableExtensions : List String := Catalog.scannableExtensions
  lockfiles : List String := Catalog.lockfiles
  linterPackages : List String := Catalog.linterPackages
  typecheckPackage : String := Catalog.typecheckPackage
  typecheckConfig : String := Catalog.typecheckConfig
  allowlist : List Pattern := []

/-- What a user asks of the rules. -/
structure RuleSettings where
  /-- The names of the rules to leave out. -/
  disabled : List String := []
  /-- The patterns of values that are no secrets. -/
  allowlist : List String := []
  /-- The families to use; all of them when nothing is given. -/
  families : Option (List String) := none
  deriving DecidableEq, Repr

namespace Ruleset

/-- True of a value that an allowed pattern matches somewhere. -/
def isAllowed (rules : Ruleset) (value : List Char) : Bool :=
  rules.allowlist.any (·.occursIn value)

/-- The rules of all tables. -/
def allRules (rules : Ruleset) : List Rule :=
  rules.secrets ++ rules.security ++ rules.stability ++ rules.maintainability

/-- The names of all rules, in order. -/
def ruleNames (rules : Ruleset) : List String := rules.allRules.map (·.name)

/-- Why a rule set cannot be derived. -/
inductive BuildError where
  /-- Names that no rule has, in lower case. -/
  | unknownRules (names : List String)
  /-- A pattern that cannot be read. -/
  | badPattern (pattern : String) (error : Pattern.ReadError)
  deriving DecidableEq, Repr

/-- The text of the failure. -/
def BuildError.message : BuildError → String
  | .unknownRules names => "Unknown rules in disabled list: " ++ Text.joinSorted names
  | .badPattern _ .tooManyRounds => Pattern.ReadError.tooManyRounds.message
  | .badPattern _ .incompatibleFlags => Pattern.ReadError.incompatibleFlags.message
  | .badPattern pattern error =>
    "Invalid secret allowlist pattern " ++ Text.quoted pattern ++ ": " ++ error.message

/-- The names to leave out, trimmed and in lower case; blank names stand for nothing. -/
def normalNames (names : List String) : List String :=
  (names.filter fun name => !Text.isBlankText name).map fun name => Text.lower (Text.strip name)

/-- The rules whose names are not among the given ones. -/
def without (names : List String) (rules : List Rule) : List Rule :=
  rules.filter fun rule => !names.contains (Text.lower rule.name)

/-- Reads the allowed patterns, up to the first that cannot be read. -/
def readAllowlist : List String → Except BuildError (List Pattern)
  | [] => .ok []
  | text :: rest =>
    match Pattern.read text with
    | .error error => .error (.badPattern text error)
    | .ok pattern => (readAllowlist rest).map (pattern :: ·)

/-- The rule set that the settings ask for. -/
def build (settings : RuleSettings) (base : Ruleset) : Except BuildError Ruleset :=
  let disabled := normalNames settings.disabled
  let known := base.ruleNames.map Text.lower
  let unknown := (disabled.filter fun name => !known.contains name).eraseDups
  if unknown.isEmpty then
    (readAllowlist settings.allowlist).map fun allowed =>
      { base with
        secrets := without disabled base.secrets
        security := without disabled base.security
        stability := without disabled base.stability
        maintainability := without disabled base.maintainability
        allowlist := base.allowlist ++ allowed }
  else .error (.unknownRules unknown)

end Ruleset

end RepoAudit
