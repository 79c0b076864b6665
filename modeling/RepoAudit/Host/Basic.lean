import RepoAudit.Tree.Basic

/-!
# Source hosts

What a scan asks of a host: what is known about a repository, its languages, its tree, and the text of
its files. Every question may fail, with a text that says why.
-/

namespace RepoAudit

/-- What a host knows about a repository. -/
structure Snapshot where
  stars : Int := 0
  forks : Int := 0
  openIssues : Int := 0
  defaultBranch : String := "main"
  lastPush : String := ""
  isPrivate : Bool := false
  description : Option String := none
  size : Int := 0
  /-- The number of bytes in each language. -/
  languages : List (String × Int) := []
  deriving DecidableEq, Repr

/-- A host of repositories. The first two arguments of every question are the owner and the name of the
repository. -/
structure SourceHost where
  name : String
  repository : String → String → Except String Snapshot
  languages : String → String → Except String (List (String × Int))
  /-- The tree at a reference. -/
  tree : String → String → String → Except String (List TreeEntry)
  /-- The text of the file at a path. -/
  file : String → String → String → Except String String

end RepoAudit
