import RepoAudit.Rule.Discovery
import RepoAudit.Settings.Basic
import RepoAudit.Tree.Basic

/-!
# The rule engine

Selects the files of a tree that are worth scanning, and applies every family to the text of a file.
-/

namespace RepoAudit

/-- The families of a scan with the rule set and the limits they work under. -/
structure Engine where
  rules : Ruleset
  limits : Limits
  families : List Family

namespace Engine

/-- True of a file with a known extension that is small enough. -/
def shouldScan (rules : Ruleset) (limits : Limits) (entry : TreeEntry) : Bool :=
  entry.isFile && rules.scannableExtensions.contains (Tree.extension entry.path) &&
    entry.byteCount < limits.maxFileSize

/-- The files to scan, in the order of the tree, up to the greatest number of files. -/
def selectFiles (rules : Ruleset) (limits : Limits) (tree : List TreeEntry) : List TreeEntry :=
  Text.takeTo limits.maxFiles (tree.filter (shouldScan rules limits))

/-- The findings of all families for a file; the first family that fails ends the scan of the file. -/
def scanFile (engine : Engine) (path : String) (content : List Char) :
    Except String (List Finding) :=
  (engine.families.mapM fun (family : Family) => family.evaluate path content).map List.flatten

end Engine

end RepoAudit
