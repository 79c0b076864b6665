import RepoAudit.Json.Reader
import RepoAudit.Tree.Inspection

/-!
# Dependency manifests

The manifest in the root of a tree names the packages a project depends on. From the names it is seen
whether code style and types are checked.
-/

namespace RepoAudit.Manifest

/-- Why a manifest cannot be analysed. -/
inductive Failure where
  /-- The text is not JSON. -/
  | unreadable (problem : Json.Problem)
  /-- The document is no object. -/
  | notAnObject
  /-- An integer has more digits than are read. -/
  | integerTooLong (digits : Nat)
  /-- The document is nested too deeply. -/
  | tooDeep (inArray : Bool)
  deriving DecidableEq, Repr

/-- The text of the failure. -/
def Failure.message : Failure → String
  | .unreadable problem => "Could not parse " ++ Tree.manifestName ++ ": " ++ problem.message
  | .notAnObject => Tree.manifestName ++ " must contain a JSON object"
  | .integerTooLong digits => (Json.ReadError.integerTooLong digits).message
  | .tooDeep inArray => (Json.ReadError.tooDeep inArray).message

/-- The failure of a text that cannot be read. -/
def Failure.ofReadError : Json.ReadError → Failure
  | .malformed problem _ => .unreadable problem
  | .integerTooLong digits => .integerTooLong digits
  | .tooDeep inArray => .tooDeep inArray

/-- True of a document that is beyond what is read. -/
def Failure.isExcessive : Failure → Bool
  | .unreadable _ => false
  | .notAnObject => false
  | .integerTooLong _ => true
  | .tooDeep _ => true

/-- What an analysis tells. -/
structure Report where
  dependencyCount : Nat
  findings : List Finding
  deriving DecidableEq, Repr

/-- The sections that name dependencies; a package in both has the value of the later one. -/
def sections : List String := ["dependencies", "devDependencies"]

/-- Adds the members of a section, when it is an object. -/
def addSection (dependencies : List (String × Json)) : Json → List (String × Json)
  | .object members => members.foldl (fun all (name, value) => Json.Member.put all name value) dependencies
  | _ => dependencies

/-- The packages of all sections with their versions. -/
def dependencies (document : Json) : List (String × Json) :=
  sections.foldl (fun all name => addSection all (document.getD name)) []

/-- True when a package is present with a version that says something. -/
def has (dependencies : List (String × Json)) (package : String) : Bool :=
  ((Json.Member.get? dependencies package).map (·.isTruthy)).getD false

/-- The finding for a project whose style is not checked. -/
def noLinterFinding : Finding :=
  { category := Category.maintainability.name
    severity := Severity.low.name
    title := "No Linter Configured"
    description := "No ESLint or Biome found in dependencies. Code quality is not being enforced " ++
      "automatically."
    filePath := some Tree.manifestName
    businessImpact := "Without a linter, code quality degrades over time and common bugs go " ++
      "undetected."
    fixSteps := "1. Install ESLint: npm install -D eslint\n" ++
      "2. Create .eslintrc configuration\n" ++
      "3. Add lint script to package.json\n" ++
      "4. Consider adding to CI pipeline" }

/-- The finding for a type checker without its configuration. -/
def noTypecheckFinding (config : String) : Finding :=
  { category := Category.stability.name
    severity := Severity.medium.name
    title := "TypeScript Installed but " ++ config ++ " Missing"
    description := "TypeScript is in dependencies but no " ++ config ++ " found. TypeScript may not " ++
      "be properly configured."
    filePath := some Tree.manifestName
    businessImpact := "Without proper TypeScript configuration, type checking may be too loose or " ++
      "not running at all."
    fixSteps := "1. Run npx tsc --init to generate " ++ config ++ "\n" ++
      "2. Configure strict mode for best type safety\n" ++
      "3. Set appropriate target and module settings" }

/-- What the packages of a project tell. -/
def inspect (rules : Ruleset) (tree : List TreeEntry) (packages : List (String × Json)) : Report where
  dependencyCount := packages.length
  findings :=
    Tree.findingWhen (!rules.linterPackages.any (has packages)) noLinterFinding ++
      Tree.findingWhen
        (has packages rules.typecheckPackage && !(Tree.filePaths tree).contains rules.typecheckConfig)
        (noTypecheckFinding rules.typecheckConfig)

/-- Analyses the text of a manifest. -/
def analyze (rules : Ruleset) (tree : List TreeEntry) (text : String) : Except Failure Report :=
  match Json.read text with
  | .error error => .error (.ofReadError error)
  | .ok (.object members) => .ok (inspect rules tree (dependencies (.object members)))
  | .ok _ => .error .notAnObject

end RepoAudit.Manifest
