import RepoAudit.Bytes.Percent
import RepoAudit.Text.Basic

/-!
# Targets

A request names its resource by a target. The path of a target has no query and no fragment, the segments
that stand for a directory itself or lead up are gone, and its escapes are decoded.
-/

namespace RepoAudit.Target

/-- The target without its query and its fragment. -/
def bare (target : List Char) : List Char := target.takeWhile fun c => c != '?' && c != '#'

/-- Adds a segment to the segments before it. Nothing leads above the root. -/
def addSegment (before : List (List Char)) (segment : List Char) : List (List Char) :=
  if segment == ['.'] then before
  else if segment == ['.', '.'] then
    if before.isEmpty || before == [[]] then before else before.dropLast
  else before ++ [segment]

/-- The segments without those that stand for a directory itself or lead up. -/
def settle (segments : List (List Char)) : List (List Char) := segments.foldl addSegment []

/-- The path of a target. -/
def path (target : String) : List Char :=
  let settled := Text.joinWith ['/'] (settle (Text.splitOn '/' (bare target.toList)))
  if settled.isEmpty then ['/'] else Percent.decode settled

end RepoAudit.Target
