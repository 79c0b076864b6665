import RepoAudit.Yaml.Scalar

/-!
# Tokens of YAML

The tokens of a text, with the starts and ends of its indented collections. A key may be recognised only
at the colon after it, so the place where it would begin is remembered: at most one place for each level
of brackets, on the same line and at most `keyReach` characters back.
-/

namespace RepoAudit.Yaml

/-- A tag as it is written: a handle, if there is one, and what follows it. -/
structure WrittenTag where
  handle : Option (List Char)
  suffix : List Char
  deriving DecidableEq, Repr

/-- A token. -/
inductive Token where
  | version (major minor : Nat)
  | shorthand (name uri : List Char)
  | otherDirective
  | documentStart
  | documentEnd
  | streamEnd
  | blockSequence
  | blockMapping
  | blockEnd
  | flowSequence
  | flowSequenceEnd
  | flowMapping
  | flowMappingEnd
  | flowEntry
  | entry
  | key
  | value
  | alias (name : List Char)
  | anchor (name : List Char)
  | tag (tag : WrittenTag)
  | scalar (text : List Char) (plain : Bool)
  deriving DecidableEq, Repr

namespace Token

/-- How far back a key may begin. -/
def keyReach : Nat := 1024

/-- A place where a key may begin. -/
structure KeyPlace where
  /-- The number of tokens before it. -/
  before : Nat
  /-- Whether nothing but a key can begin there. -/
  required : Bool
  index : Nat
  line : Nat
  column : Int

/-- The state of the reader of tokens. -/
structure Lexer where
  cursor : Cursor
  tokens : Array Token := #[]
  /-- The number of brackets that are open. -/
  flow : Nat := 0
  /-- The indentation of the innermost block, and those around it. -/
  indent : Int := -1
  outer : List Int := []
  keyAllowed : Bool := true
  /-- The places where a key may begin, by the number of open brackets. -/
  places : List (Nat × KeyPlace) := []

namespace Lexer

/-- Adds a token. -/
def push (s : Lexer) (token : Token) : Lexer := { s with tokens := s.tokens.push token }

/-- Forgets the place for a key on the present level; a place where only a key can begin may not be
forgotten. -/
def dropPlace (s : Lexer) : Except Fault Lexer :=
  match s.places.lookup s.flow with
  | none => .ok s
  | some place =>
    if place.required then .error .malformed
    else .ok { s with places := s.places.filter (·.1 != s.flow) }

/-- Remembers that a key may begin here. -/
def savePlace (s : Lexer) : Except Fault Lexer :=
  if s.keyAllowed then do
    let required := s.flow == 0 && s.indent == s.cursor.column
    let cleared ← s.dropPlace
    let place : KeyPlace :=
      ⟨s.tokens.size, required, s.cursor.index, s.cursor.line, s.cursor.column⟩
    .ok { cleared with places := (s.flow, place) :: cleared.places }
  else .ok s

/-- Forgets the places that are too far back. -/
def dropStale (s : Lexer) : Except Fault Lexer :=
  let isStale (place : KeyPlace) :=
    place.line != s.cursor.line || keyReach < s.cursor.index - place.index
  if s.places.any fun (_, place) => isStale place && place.required then .error .malformed
  else .ok { s with places := s.places.filter fun (_, place) => !isStale place }

/-- Ends the blocks that are indented further than a column. -/
def unwind (column : Int) : Nat → Lexer → Lexer
  | 0, s => s
  | steps + 1, s =>
    if column < s.indent then
      let (indent, outer) := match s.outer with
        | [] => (-1, [])
        | indent :: outer => (indent, outer)
      unwind column steps { s.push .blockEnd with indent, outer }
    else s

/-- Ends the blocks that are indented further than a column, outside of brackets. -/
def unwindTo (s : Lexer) (column : Int) : Lexer :=
  if s.flow == 0 then unwind column (s.outer.length + 1) s else s

/-- Begins a block at a column when it is indented further than the present one. -/
def beginBlock (s : Lexer) (column : Int) (token : Token) (place : Nat) : Lexer :=
  if s.indent < column then
    { s with
      tokens := s.tokens.insertIdxIfInBounds place token
      indent := column
      outer := s.indent :: s.outer }
  else s

/-- The position after blanks, comments and ends of lines; outside of brackets a key may begin on a new
line. -/
def skipSpace : Nat → Lexer → Lexer
  | 0, s => s
  | steps + 1, s =>
    let start := (s.cursor.skipWhile (· == ' ')).skipComment
    match start.lineBreak? with
    | some (_, next) =>
      skipSpace steps { s with cursor := next, keyAllowed := s.keyAllowed || s.flow == 0 }
    | none => { s with cursor := start }

/-- Moves past some characters. -/
def skip (s : Lexer) (n : Nat) : Lexer := { s with cursor := s.cursor.skip n }

/-! ### Directives -/

/-- A number of a directive. -/
def number (at_ : Cursor) : Except Fault (Nat × Cursor) :=
  let (digits, next) := at_.takeWhile Char.isDigit
  if digits.isEmpty then .error .malformed
  else .ok (Number.ofDigits (digits.map fun c => c.toNat - 48), next)

/-- The handle of a tag, from its exclamation mark on. -/
def tagHandle (at_ : Cursor) : Except Fault (List Char × Cursor) :=
  if !at_.isAt '!' then .error .malformed
  else
    let (name, next) := at_.step.takeWhile isNameChar
    if next.isAt '!' then .ok ('!' :: name ++ ['!'], next.step)
    else if name.isEmpty && next.isAt ' ' then .ok (['!'], next)
    else .error .malformed

/-- True of the characters of an address. -/
def isUriChar (c : Char) : Bool := c.isAlphanum || "-;/?:@&=+$,_.!~*'()[]%".toList.contains c

/-- The octets of escapes in an address. -/
def uriOctets : Nat → Cursor → Except Fault (List Nat × Cursor)
  | 0, at_ => .ok ([], at_)
  | steps + 1, at_ =>
    if at_.isAt '%' then
      match Scalar.hexNumber? 2 (at_.step.rest.take 2) with
      | none => .error .malformed
      | some octet => do
        let (more, next) ← uriOctets steps (at_.skip 3)
        .ok (octet :: more, next)
    else .ok ([], at_)

/-- An address with its escapes. Escaped octets outside of ASCII are kept one by one: an address that
has them is the name of no known tag in either case. -/
def uri : Nat → Cursor → Except Fault (List Char × Cursor)
  | 0, at_ => .ok ([], at_)
  | steps + 1, at_ =>
    match at_.peek with
    | none => .ok ([], at_)
    | some c =>
      if c == '%' then do
        let (octets, next) ← uriOctets (at_.rest.length + 1) at_
        let (more, stop) ← uri steps next
        .ok (octets.map Char.ofNat ++ more, stop)
      else if isUriChar c then do
        let (more, stop) ← uri steps at_.step
        .ok (c :: more, stop)
      else .ok ([], at_)

/-- An address, which may not be empty. -/
def tagUri (at_ : Cursor) : Except Fault (List Char × Cursor) := do
  let (text, next) ← uri (at_.rest.length + 1) at_
  if text.isEmpty then .error .malformed else .ok (text, next)

/-- A directive, from its percent sign on. -/
def directive (at_ : Cursor) : Except Fault (Token × Cursor) := do
  let (name, named) := at_.step.takeWhile isNameChar
  if name.isEmpty || !named.endsOr isSpace 0 then .error .malformed
  else if name == "YAML".toList then
    let (major, dotted) ← number (named.skipWhile (· == ' '))
    if !dotted.isAt '.' then .error .malformed
    else
      let (minor, next) ← number dotted.step
      if next.endsOr isSpace 0 then
        return (.version major minor, ← next.endLine)
      else .error .malformed
  else if name == "TAG".toList then
    let (handle, handled) ← tagHandle (named.skipWhile (· == ' '))
    if !handled.isAt ' ' then .error .malformed
    else
      let (address, next) ← tagUri (handled.skipWhile (· == ' '))
      if next.endsOr isSpace 0 then
        return (.shorthand handle address, ← next.endLine)
      else .error .malformed
  else return (.otherDirective, ← (named.skipWhile (!isBreak ·)).endLine)

/-! ### Names and tags -/

/-- The name of an anchor or an alias, after its mark. -/
def anchorName (at_ : Cursor) : Except Fault (List Char × Cursor) :=
  let (name, next) := at_.takeWhile isNameChar
  let isEnd (c : Char) := isBlank c || "?:,]\x7d%@".toList.contains c || c.toNat == 96
  if name.isEmpty || !next.endsOr isEnd 0 then .error .malformed else .ok (name, next)

/-- True when an exclamation mark follows before the next space. -/
def hasHandle (at_ : Cursor) : Bool :=
  (at_.rest.takeWhile (!isSpace ·)).contains '!'

/-- A tag, from its exclamation mark on. -/
def tag (at_ : Cursor) : Except Fault (WrittenTag × Cursor) := do
  let (found, next) ←
    if at_.peekAt 1 == some '<' then do
      let (address, next) ← tagUri (at_.skip 2)
      if next.isAt '>' then pure (⟨none, address⟩, next.step) else .error .malformed
    else if at_.endsOr isBlank 1 then pure (⟨none, ['!']⟩, at_.step)
    else if hasHandle at_.step then do
      let (handle, handled) ← tagHandle at_
      let (suffix, next) ← tagUri handled
      pure (⟨some handle, suffix⟩, next)
    else do
      let (suffix, next) ← tagUri at_.step
      pure (⟨some ['!'], suffix⟩, next)
  if next.endsOr isSpace 0 then .ok (found, next) else .error .malformed

/-! ### The next token -/

/-- Ends all blocks before a token that stands outside of every collection. -/
def closeAll (s : Lexer) : Except Fault Lexer := do
  let s ← (s.unwindTo (-1)).dropPlace
  .ok { s with keyAllowed := false }

/-- An opening bracket. -/
def openFlow (s : Lexer) (token : Token) : Except Fault Lexer := do
  let s ← s.savePlace
  .ok ({ s with flow := s.flow + 1, keyAllowed := true }.skip 1 |>.push token)

/-- A closing bracket. -/
def closeFlow (s : Lexer) (token : Token) : Except Fault Lexer := do
  let s ← s.dropPlace
  if s.flow == 0 then .error .malformed
  else .ok ({ s with flow := s.flow - 1, keyAllowed := false }.skip 1 |>.push token)

/-- Outside of brackets, the mark of an entry or a key begins a block where it may stand. -/
def beginAtMark (s : Lexer) (token : Token) : Except Fault Lexer :=
  if s.flow == 0 then
    if s.keyAllowed then .ok (s.beginBlock s.cursor.column token s.tokens.size)
    else .error .malformed
  else .ok s

/-- The mark of an entry of a block. -/
def entryMark (s : Lexer) : Except Fault Lexer := do
  let s ← s.beginAtMark .blockSequence
  let s ← { s with keyAllowed := true }.dropPlace
  .ok ((s.skip 1).push .entry)

/-- The mark of a key. -/
def keyMark (s : Lexer) : Except Fault Lexer := do
  let s ← s.beginAtMark .blockMapping
  let s ← { s with keyAllowed := s.flow == 0 }.dropPlace
  .ok ((s.skip 1).push .key)

/-- The mark of a value. When a key may have begun before, its mark is put there. -/
def valueMark (s : Lexer) : Except Fault Lexer :=
  match s.places.lookup s.flow with
  | some place =>
    let s := { s with
      tokens := s.tokens.insertIdxIfInBounds place.before .key
      places := s.places.filter (·.1 != s.flow)
      keyAllowed := false }
    let s := if s.flow == 0 then s.beginBlock place.column .blockMapping place.before else s
    .ok ((s.skip 1).push .value)
  | none => do
    let s ← s.beginAtMark .blockMapping
    let s ← { s with keyAllowed := s.flow == 0 }.dropPlace
    .ok ((s.skip 1).push .value)

/-- A token after which no key can begin, made by a reader of its text. -/
def simple (s : Lexer) (read : Cursor → Except Fault (Token × Cursor)) : Except Fault Lexer := do
  let s ← s.savePlace
  let (token, next) ← read s.cursor
  .ok ({ s with keyAllowed := false, cursor := next }.push token)

/-- A plain scalar. -/
def plainScalar (s : Lexer) : Except Fault Lexer := do
  let s ← s.savePlace
  let found := Scalar.plain (s.flow != 0) (s.indent + 1) s.cursor
  .ok ({ s with keyAllowed := found.broken, cursor := found.next }.push (.scalar found.text true))

/-- A block of lines. -/
def blockScalar (s : Lexer) (folded : Bool) : Except Fault Lexer := do
  let s ← { s with keyAllowed := true }.dropPlace
  let (text, next) ← Scalar.block folded s.indent s.cursor
  .ok ({ s with cursor := next }.push (.scalar text false))

/-- True when a plain scalar can begin with the character. -/
def beginsPlain (s : Lexer) (c : Char) : Bool :=
  let isMark := isBlank c || "-?:,[]\x7b\x7d#&*!|>'\"%@".toList.contains c || c.toNat == 96
  !isMark ||
    (!s.cursor.endsOr isBlank 1 && (c == '-' || (s.flow == 0 && (c == '?' || c == ':'))))

/-- The token that begins with a character. -/
def tokenAt (s : Lexer) (c : Char) : Except Fault Lexer :=
  let atMargin := s.cursor.column == 0
  let beforeBlank := s.cursor.endsOr isBlank 1
  if c == '%' && atMargin then do
    let s ← s.closeAll
    let (token, next) ← directive s.cursor
    .ok ({ s with cursor := next }.push token)
  else if atMargin && s.cursor.isMarker then do
    let s ← s.closeAll
    .ok ((s.skip 3).push (if c == '-' then .documentStart else .documentEnd))
  else if c == '[' then s.openFlow .flowSequence
  else if c == '\x7b' then s.openFlow .flowMapping
  else if c == ']' then s.closeFlow .flowSequenceEnd
  else if c == '\x7d' then s.closeFlow .flowMappingEnd
  else if c == ',' then do
    let s ← { s with keyAllowed := true }.dropPlace
    .ok ((s.skip 1).push .flowEntry)
  else if c == '-' && beforeBlank then s.entryMark
  else if c == '?' && (s.flow != 0 || beforeBlank) then s.keyMark
  else if c == ':' && (s.flow != 0 || beforeBlank) then s.valueMark
  else if c == '*' then
    s.simple fun at_ => (anchorName at_.step).map fun (name, next) => (.alias name, next)
  else if c == '&' then
    s.simple fun at_ => (anchorName at_.step).map fun (name, next) => (.anchor name, next)
  else if c == '!' then
    s.simple fun at_ => (tag at_).map fun (found, next) => (.tag found, next)
  else if c == '|' && s.flow == 0 then s.blockScalar false
  else if c == '>' && s.flow == 0 then s.blockScalar true
  else if c == '\'' then
    s.simple fun at_ => (Scalar.quoted false at_).map fun (text, next) => (.scalar text false, next)
  else if c == '"' then
    s.simple fun at_ => (Scalar.quoted true at_).map fun (text, next) => (.scalar text false, next)
  else if s.beginsPlain c then s.plainScalar
  else .error .malformed

/-- Reads tokens up to the end of the text. A fault ends the list of tokens. -/
def run : Nat → Lexer → Array Token × Option Fault
  | 0, s => (s.tokens, some .malformed)
  | steps + 1, s =>
    let s := skipSpace (s.cursor.rest.length + 1) s
    match s.dropStale with
    | .error fault => (s.tokens, some fault)
    | .ok s =>
      let s := s.unwindTo s.cursor.column
      match s.cursor.peek with
      | none =>
        match s.closeAll with
        | .error fault => (s.tokens, some fault)
        | .ok s => (s.tokens.push .streamEnd, none)
      | some c =>
        match s.tokenAt c with
        | .error fault => (s.tokens, some fault)
        | .ok s => run steps s

end Lexer

/-- True of the characters that may stand in a text. -/
def isPrintable (c : Char) : Bool :=
  let n := c.toNat
  n == 9 || n == 10 || n == 13 || (32 ≤ n && n ≤ 126) || n == 0x85 || (0xA0 ≤ n && n ≤ 0xD7FF) ||
    (0xE000 ≤ n && n ≤ 0xFFFD) || 0x10000 ≤ n

/-- The tokens of a text up to its end or to the first fault. A byte order mark at the start is
skipped. -/
def scan (text : List Char) : Array Token × Option Fault :=
  if text.all isPrintable then
    let start : Cursor := ⟨text, 0, 0, 0⟩
    let start := if start.isAt (Char.ofNat 0xFEFF) then start.step else start
    Lexer.run (text.length + 2) { cursor := start }
  else (#[], some .malformed)

end Token

end RepoAudit.Yaml
