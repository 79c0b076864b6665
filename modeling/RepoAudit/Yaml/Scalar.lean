import RepoAudit.Text.Digit
import RepoAudit.Text.Quoted
import RepoAudit.Yaml.Cursor

/-!
# Reading scalars

The text of a scalar in each of its written forms: plain, between quotes, and as a block of lines. Line
breaks inside a scalar are folded: one break becomes a space, and each further break a newline.
-/

namespace RepoAudit.Yaml.Scalar

/-- What a step of reading gives: a text and the position after it. -/
abbrev Read := Except Fault (List Char × Cursor)

/-- The text of folded line breaks: a single newline becomes a space. -/
def foldBreaks (first : Char) (more : List Char) : List Char :=
  if first != '\n' then first :: more else if more.isEmpty then [' '] else more

/-! ### Between quotes -/

/-- The one-letter escapes. -/
def escapeOf? : Char → Option Char
  | '0' => some (Char.ofNat 0)
  | 'a' => some (Char.ofNat 7)
  | 'b' => some (Char.ofNat 8)
  | 't' => some '\t'
  | '\t' => some '\t'
  | 'n' => some '\n'
  | 'v' => some (Char.ofNat 11)
  | 'f' => some (Char.ofNat 12)
  | 'r' => some '\r'
  | 'e' => some (Char.ofNat 27)
  | ' ' => some ' '
  | '"' => some '"'
  | '\\' => some '\\'
  | '/' => some '/'
  | 'N' => some (Char.ofNat 0x85)
  | '_' => some (Char.ofNat 0xA0)
  | 'L' => some (Char.ofNat 0x2028)
  | 'P' => some (Char.ofNat 0x2029)
  | _ => none

/-- The number of digits of an escape by number. -/
def escapeWidth? : Char → Option Nat
  | 'x' => some 2
  | 'u' => some 4
  | 'U' => some 8
  | _ => none

/-- The number of hexadecimal digits, of which there have to be `width`. -/
def hexNumber? (width : Nat) (digits : List Char) : Option Nat :=
  if digits.length < width then none
  else (digits.take width).foldlM (fun n c => (Text.hexValue? c).map (n * 16 + ·)) 0

/-- The breaks and blanks between two lines of a quoted scalar: the text of the breaks. The markers
of documents may not stand there. The first argument bounds the number of lines. -/
def quotedBreaks : Nat → Cursor → List Char → Read
  | 0, _, _ => .error .malformed
  | steps + 1, at_, breaks =>
    if at_.isMarker then .error .malformed
    else
      let start := at_.skipWhile fun c => c == ' ' || c == '\t'
      match start.lineBreak? with
      | some (c, next) => quotedBreaks steps next (breaks ++ [c])
      | none => .ok (breaks, start)

/-- An escape, at the character after its backslash. -/
def escape (steps : Nat) (at_ : Cursor) : Read :=
  match at_.peek with
  | none => .error .malformed
  | some c =>
    match escapeOf? c, escapeWidth? c with
    | some value, _ => .ok ([value], at_.step)
    | none, some width =>
      match hexNumber? width at_.step.rest with
      | none => .error .malformed
      | some code =>
        if 0x10FFFF < code then .error (.noSuchCharacter code)
        else
          .ok ([if code.isValidChar then Char.ofNat code else Char.ofNat 0xFFFD], at_.skip (width + 1))
    | none, none =>
      match at_.lineBreak? with
      | some (_, next) => quotedBreaks steps next []
      | none => .error .malformed

/-- The characters of a quoted scalar up to a blank, a break or its closing quote. -/
def quotedWord (double : Bool) : Nat → Cursor → List Char → Read
  | 0, _, _ => .error .malformed
  | steps + 1, at_, text =>
    let (plain, next) := at_.takeWhile fun c => !(c == '\'' || c == '"' || c == '\\' || isBlank c)
    let text := text ++ plain
    match next.peek with
    | some '\'' =>
      if double then quotedWord double steps next.step (text ++ ['\''])
      else if next.peekAt 1 == some '\'' then quotedWord double steps (next.skip 2) (text ++ ['\''])
      else .ok (text, next)
    | some '"' =>
      if double then .ok (text, next) else quotedWord double steps next.step (text ++ ['"'])
    | some '\\' =>
      if double then do
        let (value, after) ← escape steps next.step
        quotedWord double steps after (text ++ value)
      else quotedWord double steps next.step (text ++ ['\\'])
    | _ => .ok (text, next)

/-- The blanks inside a quoted scalar, which are kept within a line and folded at its end. -/
def quotedSpace (steps : Nat) (at_ : Cursor) : Read :=
  let (blanks, next) := at_.takeWhile fun c => c == ' ' || c == '\t'
  match next.lineBreak? with
  | some (c, after) => do
    let (breaks, stop) ← quotedBreaks steps after []
    .ok (foldBreaks c breaks, stop)
  | none => if next.rest.isEmpty then .error .malformed else .ok (blanks, next)

/-- The rest of a quoted scalar up to its closing quote. -/
def quotedRest (double : Bool) : Nat → Cursor → List Char → Read
  | 0, _, _ => .error .malformed
  | steps + 1, at_, text => do
    let (word, next) ← quotedWord double (steps + 1) at_ []
    let text := text ++ word
    if next.isAt (if double then '"' else '\'') then .ok (text, next.step)
    else
      let (space, after) ← quotedSpace (steps + 1) next
      quotedRest double steps after (text ++ space)

/-- A scalar between quotes, at its opening quote. -/
def quoted (double : Bool) (at_ : Cursor) : Read :=
  quotedRest double (at_.rest.length + 1) at_.step []

/-! ### Plain -/

/-- The characters that have a meaning of their own inside brackets. -/
def isFlowMark (c : Char) : Bool := c == ',' || c == '[' || c == ']' || c == '\x7b' || c == '\x7d'

/-- The number of characters of a plain scalar up to a blank, or to a mark that ends it. -/
def plainLength (flow : Bool) : List Char → Nat
  | [] => 0
  | c :: rest =>
    let colonEnds := match rest with
      | [] => true
      | d :: _ => isBlank d || (flow && isFlowMark d)
    if isBlank c || (c == ':' && colonEnds) || (flow && (c == '?' || isFlowMark c)) then 0
    else plainLength flow rest + 1

/-- What stands between two words of a plain scalar. -/
structure PlainSpace where
  text : List Char
  next : Cursor
  /-- Whether a line ended. -/
  broken : Bool

/-- The further breaks and spaces between two lines of a plain scalar; `none` at a marker of
documents. -/
def plainBreaks : Nat → Cursor → List Char → Option (List Char) × Cursor
  | 0, at_, _ => (none, at_)
  | steps + 1, at_, breaks =>
    if at_.isAt ' ' then plainBreaks steps at_.step breaks
    else
      match at_.lineBreak? with
      | some (c, next) =>
        if next.isMarker then (none, next) else plainBreaks steps next (breaks ++ [c])
      | none => (some breaks, at_)

/-- The space after a word of a plain scalar. A marker of documents ends the scalar. -/
def plainSpace (at_ : Cursor) : PlainSpace :=
  let (spaces, next) := at_.takeWhile (· == ' ')
  match next.lineBreak? with
  | none => ⟨spaces, next, false⟩
  | some (c, after) =>
    if after.isMarker then ⟨[], after, true⟩
    else
      match plainBreaks (after.rest.length + 1) after [] with
      | (none, stop) => ⟨[], stop, true⟩
      | (some breaks, stop) => ⟨foldBreaks c breaks, stop, true⟩

/-- The text of a plain scalar, the position after it, and whether a line ended after its first word. -/
structure Plain where
  text : List Char
  next : Cursor
  broken : Bool

/-- The rest of a plain scalar whose further lines have to be indented by at least `indent`; `space` is
what stands before it. -/
def plainRest (flow : Bool) (indent : Int) : Nat → Cursor → List Char → List Char → Bool → Plain
  | 0, at_, text, _, broken => ⟨text, at_, broken⟩
  | steps + 1, at_, text, space, broken =>
    let length := if at_.isAt '#' then 0 else plainLength flow at_.rest
    if length = 0 then ⟨text, at_, broken⟩
    else
      let text := text ++ space ++ at_.rest.take length
      let found := plainSpace (at_.skip length)
      if found.text.isEmpty || found.next.isAt '#' || (!flow && found.next.column < indent) then
        ⟨text, found.next, found.broken⟩
      else plainRest flow indent steps found.next text found.text found.broken

/-- A plain scalar. -/
def plain (flow : Bool) (indent : Int) (at_ : Cursor) : Plain :=
  plainRest flow indent (at_.rest.length + 1) at_ [] [] false

/-! ### Blocks of lines -/

/-- What happens to the breaks at the end of a block: one stays, none stays, or all stay. -/
inductive Chomping where
  | clip
  | strip
  | keep
  deriving DecidableEq, Repr

/-- The marks of a block: the chomping, and the indentation when it is given. -/
structure BlockHeader where
  chomping : Chomping := .clip
  indentation : Option Nat := none

/-- A mark of chomping. -/
def chomping? : Option Char → Option Chomping
  | some '+' => some .keep
  | some '-' => some .strip
  | _ => none

/-- A mark of indentation, which may not be zero. -/
def indentation? (at_ : Cursor) : Except Fault (Option Nat) :=
  match at_.peek with
  | some c =>
    if c == '0' then .error .malformed
    else .ok (if c.isDigit then some (c.toNat - 48) else none)
  | none => .ok none

/-- The marks of a block, in either order. -/
def blockHeader (at_ : Cursor) : Except Fault (BlockHeader × Cursor) := do
  let (header, next) ← match chomping? at_.peek with
    | some chomping => do
      let indentation ← indentation? at_.step
      pure (⟨chomping, indentation⟩, if indentation.isSome then at_.skip 2 else at_.step)
    | none =>
      match ← indentation? at_ with
      | none => pure ({}, at_)
      | some n =>
        match chomping? at_.step.peek with
        | some chomping => pure (⟨chomping, some n⟩, at_.skip 2)
        | none => pure (⟨.clip, some n⟩, at_.step)
  if next.endsOr isSpace 0 then .ok (header, next) else .error .malformed

/-- The breaks before the first line of a block, and the greatest column that spaces reach. -/
def leadingBreaks : Nat → Cursor → List Char → Int → List Char × Int × Cursor
  | 0, at_, breaks, greatest => (breaks, greatest, at_)
  | steps + 1, at_, breaks, greatest =>
    if at_.isAt ' ' then
      let next := at_.step
      leadingBreaks steps next breaks (max greatest next.column)
    else
      match at_.lineBreak? with
      | some (c, next) => leadingBreaks steps next (breaks ++ [c]) greatest
      | none => (breaks, greatest, at_)

/-- The position after the spaces up to a column. -/
def skipIndent (indent : Int) : Nat → Cursor → Cursor
  | 0, at_ => at_
  | steps + 1, at_ =>
    if at_.column < indent && at_.isAt ' ' then skipIndent indent steps at_.step else at_

/-- The empty lines of a block up to a line that is indented. -/
def blockBreaks (indent : Int) : Nat → Cursor → List Char → List Char × Cursor
  | 0, at_, breaks => (breaks, at_)
  | steps + 1, at_, breaks =>
    let start := skipIndent indent at_.rest.length at_
    match start.lineBreak? with
    | some (c, next) => blockBreaks indent steps next (breaks ++ [c])
    | none => (breaks, start)

/-- The end of a line as a text. -/
def breakText : Option Char → List Char
  | some c => [c]
  | none => []

/-- The lines of a block. The text so far does not hold the empty lines in `breaks`. -/
def blockLines (folded : Bool) (indent : Int) : Nat → Cursor → List Char → List Char →
    List Char × Option Char × List Char × Cursor
  | 0, at_, text, breaks => (text, none, breaks, at_)
  | steps + 1, at_, text, breaks =>
    let leadingText := !(at_.isAt ' ' || at_.isAt '\t')
    let (line, stop) := at_.takeWhile (!isBreak ·)
    let text := text ++ breaks ++ line
    let (ending, after) := match stop.lineBreak? with
      | some (c, after) => (some c, after)
      | none => (none, stop)
    let (breaks, next) := blockBreaks indent (after.rest.length + 1) after []
    if next.column == indent && !next.rest.isEmpty then
      let folds := folded && ending == some '\n' && leadingText && !(next.isAt ' ' || next.isAt '\t')
      let joint := if folds then (if breaks.isEmpty then [' '] else []) else breakText ending
      blockLines folded indent steps next (text ++ joint) breaks
    else (text, ending, breaks, next)

/-- A block of lines, at its mark, inside a collection with the given indentation. -/
def block (folded : Bool) (outer : Int) (at_ : Cursor) : Read := do
  let (header, marked) ← blockHeader at_.step
  let start ← marked.endLine
  let least := max 1 (outer + 1)
  let steps := start.rest.length + 1
  let (indent, breaks, first) := match header.indentation with
    | some n =>
      let indent := least + n - 1
      let (breaks, first) := blockBreaks indent steps start []
      (indent, breaks, first)
    | none =>
      let (breaks, greatest, first) := leadingBreaks steps start [] 0
      (max least greatest, breaks, first)
  let (text, ending, breaks, next) :=
    if first.column == indent && !first.rest.isEmpty then blockLines folded indent steps first [] breaks
    else ([], none, breaks, first)
  let last := match header.chomping with
    | .clip => breakText ending
    | .strip => []
    | .keep => breakText ending ++ breaks
  .ok (text ++ last, next)

end RepoAudit.Yaml.Scalar
