import RepoAudit.Text.Quoted

/-!
# What can be wrong with a written pattern

Each problem is found at a place in the text of the pattern. A place is told by its position and, in a
pattern of several lines, also by line and column.
-/

namespace RepoAudit.Pattern

/-- What a written pattern does wrong. -/
inductive Problem where
  | escapeAtEnd
  | incompleteEscape (escape : String)
  | badEscape (escape : String)
  | octalOutOfRange (escape : String)
  | missing (what : String)
  | unterminatedName (terminator : Char)
  | unknownCharacterName (name : String)
  | openGroup
  | sameLookbehind
  | unknownGroup (number : Nat)
  | unterminatedSet
  | badRange (first last : String)
  | reversedBounds
  | nothingToRepeat
  | multipleRepeat
  | unexpectedEnd
  | badGroupName (name : String)
  | unknownGroupName (name : String)
  | unknownExtension (text : String)
  | unterminatedComment
  | unterminatedGroup
  | badGroupNumber
  | thirdBranch
  | lateGlobalFlags
  | groupNameTaken (name : String) (number earlier : Nat)
  | localeFlag
  | incompatibleTypes
  | unknownFlag
  | globalFlagOn
  | globalFlagOff
  | typeFlagOff
  | flagOnAndOff
  | unbalanced
  deriving DecidableEq, Repr

/-- The wording of a problem. -/
def Problem.message : Problem → String
  | .escapeAtEnd => "bad escape (end of pattern)"
  | .incompleteEscape escape => "incomplete escape " ++ escape
  | .badEscape escape => "bad escape " ++ escape
  | .octalOutOfRange escape => "octal escape value " ++ escape ++ " outside of range 0-0o377"
  | .missing what => "missing " ++ what
  | .unterminatedName terminator => "missing " ++ terminator.toString ++ ", unterminated name"
  | .unknownCharacterName name => "undefined character name " ++ Text.quoted name
  | .openGroup => "cannot refer to an open group"
  | .sameLookbehind => "cannot refer to group defined in the same lookbehind subpattern"
  | .unknownGroup number => "invalid group reference " ++ toString number
  | .unterminatedSet => "unterminated character set"
  | .badRange first last => "bad character range " ++ first ++ "-" ++ last
  | .reversedBounds => "min repeat greater than max repeat"
  | .nothingToRepeat => "nothing to repeat"
  | .multipleRepeat => "multiple repeat"
  | .unexpectedEnd => "unexpected end of pattern"
  | .badGroupName name => "bad character in group name " ++ Text.quoted name
  | .unknownGroupName name => "unknown group name " ++ Text.quoted name
  | .unknownExtension text => "unknown extension ?" ++ text
  | .unterminatedComment => "missing ), unterminated comment"
  | .unterminatedGroup => "missing ), unterminated subpattern"
  | .badGroupNumber => "bad group number"
  | .thirdBranch => "conditional backref with more than two branches"
  | .lateGlobalFlags => "global flags not at the start of the expression"
  | .groupNameTaken name number earlier =>
    "redefinition of group name " ++ Text.quoted name ++ " as group " ++ toString number ++
      "; was group " ++ toString earlier
  | .localeFlag => "bad inline flags: cannot use 'L' flag with a str pattern"
  | .incompatibleTypes => "bad inline flags: flags 'a', 'u' and 'L' are incompatible"
  | .unknownFlag => "unknown flag"
  | .globalFlagOn => "bad inline flags: cannot turn on global flag"
  | .globalFlagOff => "bad inline flags: cannot turn off global flag"
  | .typeFlagOff => "bad inline flags: cannot turn off flags 'a', 'u' and 'L'"
  | .flagOnAndOff => "bad inline flags: flag turned on and off"
  | .unbalanced => "unbalanced parenthesis"

/-- A place in the text of a pattern. -/
structure Place where
  position : Nat
  line : Nat
  column : Nat
  /-- Whether the pattern has several lines. -/
  multiline : Bool
  deriving DecidableEq, Repr

/-- The place of a position. -/
def Place.ofPosition (pattern : List Char) (position : Nat) : Place :=
  let before := pattern.take position
  { position
    line := before.count '\n' + 1
    column := (before.reverse.takeWhile (· != '\n')).length + 1
    multiline := pattern.contains '\n' }

/-- The text of a place. -/
def Place.text (place : Place) : String :=
  "at position " ++ toString place.position ++
    (if place.multiline then
      " (line " ++ toString place.line ++ ", column " ++ toString place.column ++ ")"
    else "")

/-- Why a written pattern cannot be read. -/
inductive ReadError where
  /-- A problem at a place. -/
  | located (problem : Problem) (place : Place)
  /-- A condition on the text before a position whose width is not fixed. -/
  | openWidth
  /-- A condition on the text before a position that is too wide. -/
  | tooWide
  /-- A number of rounds that is too large. -/
  | tooManyRounds
  /-- ASCII and full case rules at once. -/
  | incompatibleFlags
  deriving DecidableEq, Repr

/-- The wording of a failure. -/
def ReadError.message : ReadError → String
  | .located problem place => problem.message ++ " " ++ place.text
  | .openWidth => "look-behind requires fixed-width pattern"
  | .tooWide => "looks too much behind"
  | .tooManyRounds => "the repetition number is too large"
  | .incompatibleFlags => "ASCII and UNICODE flags are incompatible"

end RepoAudit.Pattern
