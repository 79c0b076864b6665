import RepoAudit.Pattern.Basic
import RepoAudit.Text.Basic

/-!
# Excerpts

The lines around a match, with their numbers, and the redaction of secrets in them. A secret is
redacted at its own place, line by line, so that the lines keep their numbers.
-/

namespace RepoAudit.Excerpt

/-- The number of the line that holds the character at an index; the first line is line one. -/
def lineNumber (content : List Char) (index : Int) : Nat :=
  (Text.takeTo index content).count '\n' + 1

/-- The lines with their numbers, from a first number on. -/
def numbered (first : Int) : List (List Char) → List String
  | [] => []
  | line :: rest => (toString first ++ " | " ++ String.ofList line) :: numbered (first + 1) rest

/-- The lines at most `context` lines away from a line, as rows of number and text. -/
def rows (content : List Char) (line context : Int) : List String :=
  let lines := Text.lines content
  let start := max 0 (line - context - 1)
  let stop := min (lines.length : Int) (line + context)
  numbered (start + 1) (Text.between start stop lines)

/-- The rows around a line as a text. -/
def around (content : List Char) (line context : Int) : String :=
  "\n".intercalate (rows content line context)

/-- How much of a secret stays visible at its start and at its end. -/
structure Keep where
  start : Int := 12
  stop : Int := 4
  deriving DecidableEq, Repr

/-- What stands for the part of a secret that is taken out. -/
def ellipsis : List Char := ['.', '.', '.']

/-- A secret without its middle; of a short one only the first third stays, and at least a
character. -/
def redact (keep : Keep) (value : List Char) : List Char :=
  if (value.length : Int) ≤ keep.start + keep.stop then
    value.take (max 1 (value.length / 3)) ++ ellipsis
  else Text.takeTo keep.start value ++ ellipsis ++ Text.dropTo (-keep.stop) value

/-- A secret with each of its lines redacted; lines of white space stay. -/
def redactLines (value : List Char) : List Char :=
  Text.unlines ((Text.lines value).map fun part => if part.all Text.isBlank then part else redact {} part)

/-- The text with each piece replaced by a function of it. The text starts at the position `offset`, and
the pieces are in order and do not overlap. -/
def replaceFrom (f : List Char → List Char) : Nat → List Pattern.Span → List Char → List Char
  | _, [], content => content
  | offset, span :: rest, content =>
    let before := content.take (span.start - offset)
    let after := content.drop (span.start - offset)
    let width := span.stop - span.start
    before ++ f (after.take width) ++ replaceFrom f span.stop rest (after.drop width)

/-- The text with each of the given pieces redacted. -/
def mask (spans : List Pattern.Span) (content : List Char) : List Char :=
  replaceFrom redactLines 0 spans content

end RepoAudit.Excerpt
