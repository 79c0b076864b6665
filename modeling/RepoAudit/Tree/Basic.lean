import RepoAudit.Text.Case

/-!
# File trees

A tree is a flat list of entries; that a file lies in a directory is seen from its path.
-/

namespace RepoAudit

/-- The size of a file as a host reports it. A truth value counts as one or zero. -/
inductive FileSize where
  | bytes (count : Int)
  | flag (value : Bool)
  deriving DecidableEq, Repr

/-- The number of bytes. -/
def FileSize.count : FileSize → Int
  | .bytes count => count
  | .flag value => if value then 1 else 0

/-- An entry of a tree: a file or anything else. -/
structure TreeEntry where
  path : String
  kind : String := "file"
  size : Option FileSize := none
  deriving DecidableEq, Repr

namespace TreeEntry

/-- True of files. -/
def isFile (entry : TreeEntry) : Bool := entry.kind == "file"

/-- The number of bytes, zero when it is not known. -/
def byteCount (entry : TreeEntry) : Int := (entry.size.map (·.count)).getD 0

end TreeEntry

namespace Tree

/-- The paths of the files of a tree, in order. -/
def filePaths (tree : List TreeEntry) : List String := (tree.filter (·.isFile)).map (·.path)

/-- The part of a path from its last point on, in lower case. A path without a point counts as all
extension. -/
def extension (path : String) : String :=
  let afterPoint := (path.toList.reverse.takeWhile (· != '.')).reverse
  "." ++ Text.lower (String.ofList afterPoint)

end Tree

end RepoAudit
