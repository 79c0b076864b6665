import RepoAudit.Rule.Ruleset
import RepoAudit.Tree.Basic

/-!
# Inspection of trees

What the paths of a tree tell without looking into the files: files that should not be there, files that
are missing, and files that are worth noting.
-/

namespace RepoAudit.Tree

/-- The name of the dependency manifest. -/
def manifestName : String := "package.json"

/-- Where the workflows of the host live. -/
def workflowFolder : String := ".github/workflows/"

/-- True when a path ends with the text. -/
def endsWith (path ending : String) : Bool := ending.toList.isSuffixOf path.toList

/-- True when a path starts with the text. -/
def startsWith (path start : String) : Bool := start.toList.isPrefixOf path.toList

/-- True of a path that ends with the fragment or holds it after a slash. -/
def isSensitive (fragment path : String) : Bool :=
  endsWith path fragment || Text.occursIn ('/' :: fragment.toList) path.toList

/-- The finding for a file that should never be committed. -/
def sensitiveFinding (file : SensitiveFile) (path : String) : Finding :=
  { category := Category.security.name
    severity := file.severity.name
    title := file.title
    description := "The file \"" ++ path ++ "\" should never be committed to version control. It " ++
      "likely contains secrets, credentials, or sensitive configuration."
    filePath := some path
    businessImpact := "Anyone with access to the repository (including if it becomes public) can " ++
      "extract secrets from this file and gain unauthorized access to your systems."
    fixSteps := "1. Remove the file from the repository: git rm --cached " ++ path ++ "\n" ++
      "2. Add it to .gitignore\n" ++
      "3. Rotate any secrets that were in the file\n" ++
      "4. Use git filter-branch or BFG to remove from history" }

/-- For each kind of sensitive file, the finding for the first file of the tree that is one. -/
def sensitiveFiles (rules : Ruleset) (tree : List TreeEntry) : List Finding :=
  let paths := filePaths tree
  rules.sensitiveFiles.filterMap fun file =>
    (paths.find? (isSensitive file.fragment)).map (sensitiveFinding file)

/-- True of a path that names the file, in the root or in a folder. -/
def isNamed (name path : String) : Bool := path == name || endsWith path ("/" ++ name)

/-- True of a tree with a dependency manifest in any folder. -/
def hasManifest (tree : List TreeEntry) : Bool := (filePaths tree).any (isNamed manifestName)

/-- True of a tree with a dependency manifest in its root. -/
def hasRootManifest (tree : List TreeEntry) : Bool := (filePaths tree).contains manifestName

/-- The finding for a tree without rules of what to ignore. -/
def missingIgnoreFinding : Finding :=
  { category := Category.security.name
    severity := Severity.high.name
    title := "Missing .gitignore File"
    description := "No .gitignore file found in the repository. Without it, sensitive files, build " ++
      "artifacts, and dependency folders may be committed."
    businessImpact := "Secrets, node_modules, .env files, and other sensitive/unnecessary files " ++
      "may be committed to the repo."
    fixSteps := "1. Create a .gitignore file at the project root\n" ++
      "2. Use a template from gitignore.io for your stack\n" ++
      "3. At minimum include: node_modules/, .env*, dist/, build/, *.log" }

/-- The names in a sentence, the last one after "or". -/
def alternatives (names : List String) : String :=
  ", ".intercalate names.dropLast ++ ", or " ++ names.getLast?.getD ""

/-- The finding for a manifest without a file that fixes the versions. -/
def missingLockFinding (lockfiles : List String) : Finding :=
  { category := Category.stability.name
    severity := Severity.high.name
    title := "Missing Package Lock File"
    description := "No " ++ alternatives lockfiles ++ " found. Builds are non-deterministic " ++
      "without a lockfile."
    businessImpact := "Different installs will get different dependency versions. This leads to " ++
      "'works on my machine' bugs and can introduce breaking changes without warning."
    fixSteps := "1. Run npm install (or yarn/pnpm install) to generate a lockfile\n" ++
      "2. Commit the lockfile to version control\n" ++
      "3. Use npm ci in CI/CD for deterministic builds" }

/-- The finding for a tree without workflows. -/
def missingPipelineFinding : Finding :=
  { category := Category.cicd.name
    severity := Severity.medium.name
    title := "No CI/CD Pipeline Configured"
    description := "No GitHub Actions workflows found. There are no automated checks running on " ++
      "pull requests or deployments."
    businessImpact := "Without CI/CD, bugs and security issues reach production unchecked. Manual " ++
      "deployments are error-prone and not auditable."
    fixSteps := "1. Create .github/workflows/ci.yml\n" ++
      "2. Add steps for: lint, type-check, test, dependency audit\n" ++
      "3. Enable branch protection requiring CI to pass\n" ++
      "4. Consider adding secret scanning (gitleaks)"
    effort := Effort.medium.name }

/-- A finding in a list, when it is called for. -/
def findingWhen (condition : Bool) (finding : Finding) : List Finding :=
  if condition then [finding] else []

/-- The findings for what a tree lacks. -/
def layout (rules : Ruleset) (tree : List TreeEntry) : List Finding :=
  let paths := filePaths tree
  findingWhen (!paths.any (isNamed ".gitignore")) missingIgnoreFinding ++
    findingWhen (hasManifest tree && !paths.any rules.lockfiles.contains)
      (missingLockFinding rules.lockfiles) ++
    findingWhen (!tree.any fun entry => startsWith entry.path workflowFolder) missingPipelineFinding

/-- True when a tree holds the entry, or anything in the folder of that name. -/
def holds (tree : List TreeEntry) (name : String) : Bool :=
  tree.any fun entry => entry.path == name || startsWith entry.path (name ++ "/")

/-- The files worth noting that a tree holds, in the order of the catalog. -/
def importantFiles (rules : Ruleset) (tree : List TreeEntry) : List String :=
  rules.importantFiles.filter (holds tree)

end RepoAudit.Tree
