import RepoAudit.Text.Basic

/-!
# Paths

A path is a list of names, from the root or from the current directory. Empty names and single points do
not count; two points lead up.
-/

namespace RepoAudit

/-- A path. -/
structure Path where
  rooted : Bool
  parts : List String
  deriving DecidableEq, Repr, Inhabited

namespace Path

/-- The path that a text stands for. -/
def read (text : String) : Path :=
  let chars := text.toList
  let names := (Text.splitOn '/' chars).map String.ofList
  ⟨chars.head? == some '/', names.filter fun name => name != "" && name != "."⟩

/-- The text of a path. -/
def text (path : Path) : String :=
  if path.rooted then "/" ++ "/".intercalate path.parts
  else if path.parts.isEmpty then "."
  else "/".intercalate path.parts

/-- The last name. -/
def name (path : Path) : String := path.parts.getLast?.getD ""

/-- The path without its last name. -/
def parent (path : Path) : Path := ⟨path.rooted, path.parts.dropLast⟩

/-- A path that starts where another one ends, unless it starts at the root. -/
def join (path next : Path) : Path :=
  if next.rooted then next else ⟨path.rooted, path.parts ++ next.parts⟩

/-- The path of a name in a directory. -/
def child (path : Path) (name : String) : Path := ⟨path.rooted, path.parts ++ [name]⟩

/-- The path with another last name. -/
def withName (path : Path) (name : String) : Path := path.parent.child name

/-- The last name from its last point on, if something stands on both sides of the point. -/
def ending (path : Path) : String :=
  let reversed := path.name.toList.reverse
  let after := reversed.takeWhile (· != '.')
  match reversed.drop after.length with
  | '.' :: before =>
    if after.isEmpty || before.isEmpty then "" else String.ofList ('.' :: after.reverse)
  | _ => ""

/-- The names after leading up wherever two points stand. -/
def settle (parts : List String) : List String :=
  parts.foldl (fun done part => if part == ".." then done.dropLast else done ++ [part]) []

/-- The path from the root. -/
def resolve (current path : Path) : Path :=
  ⟨true, settle (if path.rooted then path.parts else current.parts ++ path.parts)⟩

/-- The path from a directory, if it lies in that directory. -/
def relativeTo? (directory path : Path) : Option Path :=
  if directory.rooted == path.rooted && directory.parts.isPrefixOf path.parts then
    some ⟨false, path.parts.drop directory.parts.length⟩
  else none

end Path

end RepoAudit
