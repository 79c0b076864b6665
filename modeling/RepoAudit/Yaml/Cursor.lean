import RepoAudit.Yaml.Fault

/-!
# Cursors

A position in a YAML text: the characters that are left, and how many characters and lines are behind.
Lines end with a newline, a return, the next-line character, or a line or paragraph separator. The
columns of a line are counted without byte order marks.
-/

namespace RepoAudit.Yaml

/-- True of the characters that end a line. -/
def isBreak (c : Char) : Bool :=
  c == '\n' || c == '\r' || c.toNat == 0x85 || c.toNat == 0x2028 || c.toNat == 0x2029

/-- True of the space, the tab and the characters that end a line. -/
def isBlank (c : Char) : Bool := c == ' ' || c == '\t' || isBreak c

/-- True of the space and the characters that end a line. -/
def isSpace (c : Char) : Bool := c == ' ' || isBreak c

/-- True of the characters that may stand in names of anchors and handles. -/
def isNameChar (c : Char) : Bool := c.isAlphanum || c == '-' || c == '_'

/-- A position in a text. -/
structure Cursor where
  rest : List Char
  index : Nat := 0
  line : Nat := 0
  column : Int := 0

namespace Cursor

/-- The next character. -/
def peek (at_ : Cursor) : Option Char := at_.rest.head?

/-- The character after some others. -/
def peekAt (at_ : Cursor) (n : Nat) : Option Char := at_.rest[n]?

/-- True at the end of the text, or when the character after some others is of a class. -/
def endsOr (at_ : Cursor) (p : Char → Bool) (n : Nat) : Bool :=
  match at_.peekAt n with
  | none => true
  | some c => p c

/-- True when the next character is the given one. -/
def isAt (at_ : Cursor) (c : Char) : Bool := at_.peek == some c

/-- True when the next character is of a class. -/
def isAny (at_ : Cursor) (p : Char → Bool) : Bool := at_.peek.any p

/-- The position after the next character. -/
def step (at_ : Cursor) : Cursor :=
  match at_.rest with
  | [] => at_
  | c :: rest =>
    if isBreak c && !(c == '\r' && rest.head? == some '\n') then
      ⟨rest, at_.index + 1, at_.line + 1, 0⟩
    else ⟨rest, at_.index + 1, at_.line, if c.toNat == 0xFEFF then at_.column else at_.column + 1⟩

/-- The position after some characters. -/
def skip (at_ : Cursor) : Nat → Cursor
  | 0 => at_
  | n + 1 => skip at_.step n

/-- The characters of a class that come next. -/
def spanOf (at_ : Cursor) (p : Char → Bool) : List Char := at_.rest.takeWhile p

/-- The characters of a class that come next, and the position after them. -/
def takeWhile (at_ : Cursor) (p : Char → Bool) : List Char × Cursor :=
  let taken := at_.spanOf p
  (taken, at_.skip taken.length)

/-- The position after the characters of a class. -/
def skipWhile (at_ : Cursor) (p : Char → Bool) : Cursor := (at_.takeWhile p).2

/-- The end of a line: the text it stands for and the position after it. A newline, a return and the
next-line character count as one newline. -/
def lineBreak? (at_ : Cursor) : Option (Char × Cursor) :=
  match at_.rest with
  | '\r' :: '\n' :: _ => some ('\n', at_.skip 2)
  | c :: _ =>
    if c == '\n' || c == '\r' || c.toNat == 0x85 then some ('\n', at_.step)
    else if isBreak c then some (c, at_.step)
    else none
  | [] => none

/-- True at three hyphens or three points that stand for themselves. -/
def isMarker (at_ : Cursor) : Bool :=
  let head := at_.rest.take 3
  (head == ['-', '-', '-'] || head == ['.', '.', '.']) && at_.endsOr isBlank 3

/-- The position at the end of a comment, if there is one. -/
def skipComment (at_ : Cursor) : Cursor :=
  if at_.isAt '#' then at_.skipWhile (!isBreak ·) else at_

/-- The position after spaces, a comment and the end of the line; nothing else may be left on the
line. -/
def endLine (at_ : Cursor) : Except Fault Cursor :=
  let stop := (at_.skipWhile (· == ' ')).skipComment
  match stop.lineBreak? with
  | some (_, next) => .ok next
  | none => if stop.rest.isEmpty then .ok stop else .error .malformed

end Cursor

end RepoAudit.Yaml
