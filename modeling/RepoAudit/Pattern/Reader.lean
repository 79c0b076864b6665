import RepoAudit.Number.Reading
import RepoAudit.Pattern.Basic
import RepoAudit.Pattern.Token
import RepoAudit.Text.Name

/-!
# Reading written patterns

`Pattern.read` reads a pattern from its text. The reader works on tokens with one token of look-ahead,
so a backslash left over at the end is found as soon as the token before it is taken. Flags at the start
of the text hold for all of it, flags of a group for the group.
-/

namespace RepoAudit.Pattern

/-- The flags that change how a pattern is read. -/
inductive Flag where
  | ignoreCase
  | locale
  | multiline
  | dotAll
  | verbose
  | template
  | ascii
  | unicode
  deriving DecidableEq, Repr

namespace Flag

/-- The flag of a letter. -/
def ofLetter? : Char → Option Flag
  | 'i' => some ignoreCase
  | 'L' => some locale
  | 'm' => some multiline
  | 's' => some dotAll
  | 'x' => some verbose
  | 't' => some template
  | 'a' => some ascii
  | 'u' => some unicode
  | _ => none

/-- The flags of which at most one can hold. -/
def isType (flag : Flag) : Bool := flag == ascii || flag == locale || flag == unicode

/-- The flags of a group inside a pattern with the given flags. -/
def combine (flags on off : List Flag) : List Flag :=
  let kept := if on.any isType then flags.filter (!·.isType) else flags
  (kept ++ on).filter fun flag => !off.contains flag

/-- The rule of case that flags ask for. -/
def fold (flags : List Flag) : Fold :=
  if flags.contains ignoreCase then (if flags.contains ascii then .ascii else .full) else .exact

end Flag

/-- The least and the greatest number of characters that a pattern takes up. -/
structure Width where
  least : Nat
  most : Nat
  deriving DecidableEq, Repr

namespace Width

-- Powers are the core ones, also where an algebra library brings its own.
attribute [local instance (high)] instPowNat

/-- The width that counts as unbounded. -/
def limit : Nat := 2 ^ (64 : Nat)

def zero : Width := ⟨0, 0⟩

/-- The width of one after the other. -/
def add (a b : Width) : Width := ⟨min (a.least + b.least) limit, min (a.most + b.most) limit⟩

/-- The width of one or the other. -/
def join (a b : Width) : Width := ⟨min a.least b.least, max a.most b.most⟩

/-- The width of a number of rounds. -/
def rounds (width : Width) (least : Nat) (most : Option Nat) : Width :=
  let upper := match most with
    | some most => width.most * most
    | none => if width.most = 0 then 0 else limit
  ⟨min (width.least * least) limit, min upper limit⟩

end Width

/-- What a repetition mark does with the piece before it. -/
inductive PieceKind where
  | anchor
  | repetition
  | item
  deriving DecidableEq, Repr

/-- A part of a sequence that has been read. -/
structure Piece where
  kind : PieceKind := .item
  pattern : Pattern
  width : Width

/-- The pattern and the width of pieces in order. -/
def Piece.ofList (pieces : List Piece) : Piece :=
  { pattern := sequence (pieces.map (·.pattern))
    width := pieces.foldl (fun w p => w.add p.width) .zero }

/-- One character of a class. -/
def Piece.one (flags : List Flag) (cls : CharClass) : Piece :=
  { pattern := .one (cls.closed (Flag.fold flags)), width := ⟨1, 1⟩ }

/-- A condition on the position. -/
def Piece.anchor (a : Anchor) : Piece := ⟨.anchor, .anchor a, .zero⟩

/-- Rounds of a piece. -/
def Piece.repeated (piece : Piece) (least : Nat) (most : Option Nat) (mode : Mode) : Piece :=
  { kind := .repetition
    pattern := match piece.pattern with
      | .one cls => .run cls least most mode
      | p => .loop p least most mode
    width := piece.width.rounds least most }

/-- The state of the reader. -/
structure Reader where
  rest : List Token
  /-- Whether a backslash is left over after the tokens. -/
  dangling : Bool
  /-- The number of characters of the text. -/
  size : Nat
  /-- The flags of the whole pattern. -/
  flags : List Flag := []
  /-- The number that the next group gets. -/
  nextGroup : Nat := 1
  /-- The groups that are closed, with their widths. -/
  closed : List (Nat × Width) := []
  names : List (String × Nat) := []
  /-- Inside a condition on the text before, the number that the next group had at its start. -/
  behindFrom : Option Nat := none
  /-- The groups that conditions ask for, with the positions. -/
  conditions : List (Nat × Nat) := []
  /-- What is wrong with the width of a condition on the text before. -/
  behindFault : Option ReadError := none

/-- A failure inside the reader. -/
inductive Fault where
  | located (problem : Problem) (position : Nat)
  | other (error : ReadError)

/-- A step of the reader. -/
abbrev Reading := StateT Reader (Except Fault)

namespace Reading

/-- Stops with a problem at a position. -/
def failAt {α : Type} (problem : Problem) (position : Nat) : Reading α :=
  throw (.located problem position)

/-- The position of the next token. -/
def position : Reading Nat := do
  let r ← get
  return match r.rest with
    | token :: _ => token.position
    | [] => r.size

/-- Stops with a problem that lies some characters back. -/
def failBack {α : Type} (problem : Problem) (offset : Nat) : Reading α := do
  failAt problem ((← position) - offset)

/-- The next token. -/
def peek : Reading (Option Token) := do return (← get).rest.head?

/-- Takes the next token. -/
def next : Reading (Option Token) := do
  let r ← get
  match r.rest with
  | [] => return none
  | token :: rest =>
    if rest.isEmpty && r.dangling then failAt .escapeAtEnd (r.size - 1)
    else
      set { r with rest }
      return some token

/-- Takes the next token when it is the given character. -/
def accept (c : Char) : Reading Bool := do
  match ← peek with
  | none => return false
  | some token =>
    if token.isPlain c then
      discard next
      return true
    else return false

/-- Takes up to a number of plain characters of a class. -/
def takeChars (p : Char → Bool) : Nat → Reading (List Char)
  | 0 => return []
  | n + 1 => do
    match ← peek with
    | some token =>
      if !token.escaped && p token.char then
        discard next
        return token.char :: (← takeChars p n)
      else return []
    | none => return []

/-- The number of tokens that are left. -/
def left : Reading Nat := do return (← get).rest.length

/-- Takes everything before a terminator, and the terminator. -/
def takeUntil (terminator : Char) (what : String) : Reading (List Char) := do
  go [] ((← left) + 1)
where
  go (taken : List Char) : Nat → Reading (List Char)
    | 0 => failBack (.missing what) 0
    | steps + 1 => do
      match ← next with
      | none =>
        if taken.isEmpty then failBack (.missing what) 0
        else failBack (.unterminatedName terminator) taken.length
      | some token =>
        if token.isPlain terminator then
          if taken.isEmpty then failBack (.missing what) 1 else return taken
        else go (taken ++ token.text) steps

/-- True of a hexadecimal digit. -/
def isHex (c : Char) : Bool := c.isDigit || ('a' ≤ c && c ≤ 'f') || ('A' ≤ c && c ≤ 'F')

/-- True of an octal digit. -/
def isOctal (c : Char) : Bool := '0' ≤ c && c ≤ '7'

/-- The number that digits stand for. -/
def digitsValue (base : Nat) (digits : List Char) : Nat :=
  digits.foldl (fun n c =>
    let d := if c.isDigit then c.toNat - 48 else if 'a' ≤ c then c.toNat - 87 else c.toNat - 55
    n * base + d) 0

/-- The escapes that stand for one control character or for the backslash. -/
def controlEscape? : Char → Option Nat
  | 'a' => some 7
  | 'b' => some 8
  | 'f' => some 12
  | 'n' => some 10
  | 'r' => some 13
  | 't' => some 9
  | 'v' => some 11
  | '\\' => some 92
  | _ => none

/-- The escapes that stand for a kind of characters: the kind and whether it is negated. -/
def kindEscape? : Char → Option (Kind × Bool)
  | 'd' => some (.digit, false)
  | 'D' => some (.digit, true)
  | 's' => some (.blank, false)
  | 'S' => some (.blank, true)
  | 'w' => some (.word, false)
  | 'W' => some (.word, true)
  | _ => none

/-- The digits of an escape of a fixed number of hexadecimal digits. -/
def hexEscape (letter : Char) (count : Nat) : Reading (List Char) := do
  let digits ← takeChars isHex count
  if digits.length = count then return digits
  else
    let escape := '\\' :: letter :: digits
    failBack (.incompleteEscape (String.ofList escape)) escape.length

/-- The escapes by number and by name, which are the same inside and outside of a set; `none` when the
letter starts none of them. -/
def codeEscape? (letter : Char) : Reading (Option Nat) := do
  if letter == 'x' then return some (digitsValue 16 (← hexEscape 'x' 2))
  else if letter == 'u' then return some (digitsValue 16 (← hexEscape 'u' 4))
  else if letter == 'U' then
    let digits ← hexEscape 'U' 8
    let n := digitsValue 16 digits
    if n ≤ 0x10FFFF then return some n
    else failBack (.badEscape (String.ofList ('\\' :: 'U' :: digits))) 10
  else if letter == 'N' then
    if !(← accept '\x7b') then failBack (.missing "\x7b") 0
    else
      let name ← takeUntil '\x7d' "character name"
      failBack (.unknownCharacterName (String.ofList name)) (name.length + 4)
  else return none

/-- True when a letter may not be escaped without a meaning. -/
def isLetter (c : Char) : Bool := c.isAlpha

/-- The text of an escape of one character. -/
def shortEscape (c : Char) : String := String.ofList ['\\', c]

/-- A member of a set: a character by its number, or a kind of characters. -/
inductive Member where
  | code (n : Nat)
  | kind (item : ClassItem)

/-- The part of a class that a member is. -/
def Member.item : Member → ClassItem
  | .code n => .range n n
  | .kind item => item

/-- An escape inside a set, after its backslash and letter have been taken. -/
def readSetEscape (flags : List Flag) (c : Char) : Reading Member := do
  match controlEscape? c, kindEscape? c with
  | some n, _ => return .code n
  | none, some (k, negated) => return .kind (.kind k negated (flags.contains .ascii))
  | none, none =>
    match ← codeEscape? c with
    | some n => return .code n
    | none =>
      if isOctal c then
        let digits := c :: (← takeChars isOctal 2)
        let n := digitsValue 8 digits
        if 0o377 < n then
          failBack (.octalOutOfRange (String.ofList ('\\' :: digits))) (digits.length + 1)
        else return .code n
      else if c.isDigit || isLetter c then failBack (.badEscape (shortEscape c)) 2
      else return .code c.toNat

/-- The rest of a set whose opening bracket stands at `opened`; the items are in reverse order. -/
def readSetItems (flags : List Flag) (opened : Nat) : Nat → List ClassItem → Reading (List ClassItem)
  | 0, _ => failAt .unterminatedSet opened
  | steps + 1, items => do
    match ← next with
    | none => failAt .unterminatedSet opened
    | some this =>
      if this.isPlain ']' && !items.isEmpty then return items.reverse
      else
        let first ← if this.escaped then readSetEscape flags this.char
          else pure (.code this.char.toNat)
        if ← accept '-' then
          match ← next with
          | none => failAt .unterminatedSet opened
          | some that =>
            if that.isPlain ']' then return (.range 45 45 :: first.item :: items).reverse
            else
              let last ← if that.escaped then readSetEscape flags that.char
                else pure (.code that.char.toNat)
              let bad := Problem.badRange (String.ofList this.text) (String.ofList that.text)
              let width := this.text.length + 1 + that.text.length
              match first, last with
              | .code low, .code high =>
                if high < low then failBack bad width
                else readSetItems flags opened steps (.range low high :: items)
              | _, _ => failBack bad width
        else readSetItems flags opened steps (first.item :: items)

/-- A set, after its opening bracket, which stands at `opened`. -/
def readSet (flags : List Flag) (opened : Nat) : Reading Piece := do
  let negated ← accept '^'
  let items ← readSetItems flags opened ((← left) + 1) []
  return Piece.one flags ⟨items, negated⟩

/-- Checks that a group may be referred to inside a condition on the text before. -/
def checkBehind (number : Nat) : Reading Unit := do
  let r ← get
  match r.behindFrom with
  | none => return ()
  | some limit =>
    if !(number < r.nextGroup && (r.closed.lookup number).isSome) then failBack .openGroup 0
    else if limit ≤ number then failBack .sameLookbehind 0

/-- A reference to a closed group. -/
def reference (flags : List Flag) (number : Nat) (width : Width) : Piece :=
  { pattern := .again number (flags.contains .ignoreCase), width }

/-- A reference to a group by number; `length` is the number of characters of the escape. -/
def readReference (flags : List Flag) (digits : List Char) : Reading Piece := do
  let number := digitsValue 10 digits
  let r ← get
  if number < r.nextGroup then
    match r.closed.lookup number with
    | none => failBack .openGroup (digits.length + 1)
    | some width =>
      checkBehind number
      return reference flags number width
  else failBack (.unknownGroup number) digits.length

/-- An escape outside of a set, after its backslash and letter have been taken. -/
def readEscape (flags : List Flag) (c : Char) : Reading Piece := do
  let ascii := flags.contains .ascii
  let code (n : Nat) : Piece := Piece.one flags ⟨[.range n n], false⟩
  if c == 'A' then return Piece.anchor .textStart
  else if c == 'Z' then return Piece.anchor .textEnd
  else if c == 'b' then return Piece.anchor (.wordEdge ascii false)
  else if c == 'B' then return Piece.anchor (.wordEdge ascii true)
  else
    match kindEscape? c, controlEscape? c with
    | some (k, negated), _ => return Piece.one flags ⟨[.kind k negated ascii], false⟩
    | none, some n => return code n
    | none, none =>
      match ← codeEscape? c with
      | some n => return code n
      | none =>
        if c == '0' then
          return code (digitsValue 8 (c :: (← takeChars isOctal 2)))
        else if c.isDigit then
          let second ← takeChars Char.isDigit 1
          let third ← if isOctal c && second.any isOctal then takeChars isOctal 1 else pure []
          let digits := c :: second ++ third
          if third.isEmpty then readReference flags digits
          else
            let n := digitsValue 8 digits
            if 0o377 < n then
              failBack (.octalOutOfRange (String.ofList ('\\' :: digits))) (digits.length + 1)
            else return code n
        else if isLetter c then failBack (.badEscape (shortEscape c)) 2
        else return code c.toNat

/-- The bounds of a repetition in braces, after the opening brace; `none` when the brace is an ordinary
character. -/
def readBounds : Reading (Option (Nat × Option Nat)) := do
  let here ← position
  let saved ← get
  if (← peek).any (·.isPlain '\x7d') then return none
  else
    let low ← takeChars Char.isDigit (← left)
    let high ← if ← accept ',' then takeChars Char.isDigit (← left) else pure low
    if !(← accept '\x7d') then
      set saved
      return none
    else
      let least := digitsValue 10 low
      let most := if high.isEmpty then none else some (digitsValue 10 high)
      if roundLimit ≤ least || most.any (roundLimit ≤ ·) then throw (.other .tooManyRounds)
      else if most.any (· < least) then failAt .reversedBounds here
      else return some (least, most)
where
  roundLimit : Nat := 4294967295

/-- The bounds that a repetition mark stands for; `none` when it is an ordinary character. -/
def readMark : Char → Reading (Option (Nat × Option Nat))
  | '?' => return some (0, some 1)
  | '*' => return some (0, none)
  | '+' => return some (1, none)
  | _ => readBounds

/-- The mode that the mark after a repetition asks for. -/
def readMode : Reading Mode := do
  if ← accept '?' then return .lazy
  if ← accept '+' then return .possessive
  return .greedy

/-- A repetition mark, which stands at `start`, applied to the last of the pieces read so far; these are
in reverse order. -/
def readRepetition (flags : List Flag) (mark : Char) (start : Nat) (done : List Piece) :
    Reading (List Piece) := do
  match ← readMark mark with
  | none => return Piece.one flags (.single mark) :: done
  | some (least, most) =>
    match done with
    | [] => failAt .nothingToRepeat start
    | piece :: before =>
      match piece.kind with
      | .anchor => failAt .nothingToRepeat start
      | .repetition => failAt .multipleRepeat start
      | .item =>
        return piece.repeated least most (← readMode) :: before

/-- True of a token that is a letter. -/
def isAlphabeticToken (token : Token) : Bool := !token.escaped && Text.isAlphabetic token.char

/-- The flag of a token. -/
def flagOf? (token : Token) : Option Flag := if token.escaped then none else Flag.ofLetter? token.char

/-- The flags that are turned on, from a first flag on, and the character that ends them. -/
def readFlagsOn : Nat → Flag → List Flag → Reading (List Flag × Char)
  | 0, _, _ => failBack .unexpectedEnd 0
  | steps + 1, flag, on => do
    if flag == .locale then failBack .localeFlag 0
    else
      let on := on ++ [flag]
      if flag.isType && on.any (fun f => f.isType && f != flag) then failBack .incompatibleTypes 0
      else
        match ← next with
        | none => failBack (.missing "-, : or )") 0
        | some token =>
          if token.isPlain ')' || token.isPlain '-' || token.isPlain ':' then return (on, token.char)
          else
            match flagOf? token with
            | some flag => readFlagsOn steps flag on
            | none =>
              failBack (if isAlphabeticToken token then .unknownFlag else .missing "-, : or )")
                token.text.length

/-- The flags that are turned off, from a first flag on. -/
def readFlagsOff : Nat → Flag → List Flag → Reading (List Flag)
  | 0, _, _ => failBack .unexpectedEnd 0
  | steps + 1, flag, off => do
    if flag.isType then failBack .typeFlagOff 0
    else
      let off := off ++ [flag]
      match ← next with
      | none => failBack (.missing ":") 0
      | some token =>
        if token.isPlain ':' then return off
        else
          match flagOf? token with
          | some flag => readFlagsOff steps flag off
          | none =>
            failBack (if isAlphabeticToken token then .unknownFlag else .missing ":") token.text.length

/-- The flags of a group, from a first token on. Flags that are not followed by a colon hold for the
whole pattern, and then there is no group. -/
def readFlags (first : Token) : Reading (Option (List Flag × List Flag)) := do
  let steps := (← left) + 1
  let (on, stop) ← match flagOf? first with
    | some flag => readFlagsOn steps flag []
    | none => pure ([], '-')
  if stop == ')' then
    modify fun r => { r with flags := r.flags ++ on }
    return none
  else if on.contains .template then failBack .globalFlagOn 1
  else
    let off ← if stop == '-' then
        match ← next with
        | none => failBack (.missing "flag") 0
        | some token =>
          match flagOf? token with
          | none =>
            failBack (if isAlphabeticToken token then .unknownFlag else .missing "flag")
              token.text.length
          | some flag => readFlagsOff steps flag []
      else pure []
    if off.contains .template then failBack .globalFlagOff 1
    else if on.any off.contains then failBack .flagOnAndOff 1
    else return some (on, off)

/-- Takes the rest of a comment in parentheses, which were opened at `start`. -/
def skipComment (start : Nat) : Nat → Reading Unit
  | 0 => failAt .unterminatedComment start
  | steps + 1 => do
    match ← peek with
    | none => failAt .unterminatedComment start
    | some token =>
      discard next
      if token.isPlain ')' then return () else skipComment start steps

/-- Takes the rest of a comment that ends with its line. -/
def skipLine : Nat → Reading Unit
  | 0 => return ()
  | steps + 1 => do
    match ← next with
    | none => return ()
    | some token => if token.isPlain '\n' then return () else skipLine steps

/-- Checks the name of a group, which has just been taken with its terminator. -/
def checkName (name : List Char) : Reading Unit := do
  if !Text.isName name then failBack (.badGroupName (String.ofList name)) (name.length + 1)

/-- The number of the group that a condition names. -/
def readCondition : Reading Nat := do
  let chars ← takeUntil ')' "group name"
  let name := String.ofList chars
  let back := chars.length + 1
  if Text.isName chars then
    match (← get).names.lookup name with
    | none => failBack (.unknownGroupName name) back
    | some number => return number
  else
    match Number.readInteger name with
    | .error _ => failBack (.badGroupName name) back
    | .ok n =>
      if n < 0 then failBack (.badGroupName name) back
      else if n = 0 then failBack .badGroupNumber back
      else if groupLimit ≤ n.toNat then failBack (.unknownGroup n.toNat) back
      else
        let here ← position
        modify fun r =>
          if (r.conditions.lookup n.toNat).isSome then r
          else { r with conditions := r.conditions ++ [(n.toNat, here - back)] }
        return n.toNat
where
  groupLimit : Nat := 1073741823

/-- What follows the opening of a group. -/
inductive Opening where
  /-- A group that is remembered, perhaps under a name. -/
  | capture (name : Option String)
  | plain
  | atomic
  | flags (on off : List Flag)
  | globalFlags
  | comment
  | reference (number : Nat)
  | look (behind negated : Bool)
  | condition

/-- What follows the letter of the extensions: a named group or a reference to one. -/
def readExtension : Reading Opening := do
  if ← accept '<' then
    let name ← takeUntil '>' "group name"
    checkName name
    return .capture (some (String.ofList name))
  if ← accept '=' then
    let name ← takeUntil ')' "group name"
    checkName name
    let back := name.length + 1
    let r ← get
    match r.names.lookup (String.ofList name) with
    | none => failBack (.unknownGroupName (String.ofList name)) back
    | some number =>
      if (r.closed.lookup number).isNone then failBack .openGroup back
      else
        checkBehind number
        return .reference number
  match ← next with
  | none => failBack .unexpectedEnd 0
  | some letter =>
    failBack (.unknownExtension ("P" ++ String.ofList letter.text)) (letter.text.length + 2)

/-- The opening of a group after its parenthesis, which stands at `start`. -/
def readOpening (start : Nat) : Reading Opening := do
  if !(← accept '?') then return .capture none
  else
    match ← next with
    | none => failBack .unexpectedEnd 0
    | some token =>
      if token.isPlain 'P' then
        readExtension
      else if token.isPlain ':' then return .plain
      else if token.isPlain '#' then
        skipComment start ((← left) + 1)
        return .comment
      else if token.isPlain '=' then return .look false false
      else if token.isPlain '!' then return .look false true
      else if token.isPlain '<' then
        match ← next with
        | none => failBack .unexpectedEnd 0
        | some mark =>
          if mark.isPlain '=' then return .look true false
          else if mark.isPlain '!' then return .look true true
          else failBack (.unknownExtension ("<" ++ String.ofList mark.text)) (mark.text.length + 2)
      else if token.isPlain '(' then return .condition
      else if token.isPlain '>' then return .atomic
      else if (flagOf? token).isSome || token.isPlain '-' then
        match ← readFlags token with
        | none => return .globalFlags
        | some (on, off) => return .flags on off
      else failBack (.unknownExtension (String.ofList token.text)) (token.text.length + 1)

/-- Gives a group its number, and its name if it has one. -/
def openGroup (name : Option String) : Reading Nat := do
  let r ← get
  let number := r.nextGroup
  match name with
  | none =>
    set { r with nextGroup := number + 1 }
    return number
  | some name =>
    match r.names.lookup name with
    | some earlier => failBack (.groupNameTaken name number earlier) (name.length + 1)
    | none =>
      set { r with nextGroup := number + 1, names := (name, number) :: r.names }
      return number

/-- Takes the closing parenthesis of a group that was opened at `start`. -/
def closeGroup (start : Nat) : Reading Unit := do
  if !(← accept ')') then failAt .unterminatedGroup start

/-- Notes what is wrong with the width of a condition on the text before. -/
def noteBehind (width : Width) : Reading Unit := do
  let fault : Option ReadError :=
    if 4294967295 < width.least then some .tooWide
    else if width.least ≠ width.most then some .openWidth
    else none
  modify fun r => { r with behindFault := r.behindFault.orElse fun _ => fault }

/-- True of the characters that are skipped in a pattern with comments. -/
def isLayout (token : Token) : Bool :=
  !token.escaped && ((9 ≤ token.char.toNat && token.char.toNat ≤ 13) || token.char == ' ')

mutual

/-- Alternatives. Outside of every group, each alternative has the flags of the whole pattern. -/
def readBranches : Nat → Bool → List Flag → Reading Piece
  | 0, _, _ => failBack .unexpectedEnd 0
  | steps + 1, nested, flags => do
    let first ← readSequence steps flags (!nested) []
    if ← accept '|' then
      let second ← readMoreBranches steps nested flags
      return { pattern := .alt first.pattern second.pattern, width := first.width.join second.width }
    else return first

/-- The alternatives after a bar. -/
def readMoreBranches : Nat → Bool → List Flag → Reading Piece
  | 0, _, _ => failBack .unexpectedEnd 0
  | steps + 1, nested, flags => do
    let whole := (← get).flags
    let flags := if nested then flags else whole
    let first ← readSequence steps flags false []
    if ← accept '|' then
      let second ← readMoreBranches steps nested flags
      return { pattern := .alt first.pattern second.pattern, width := first.width.join second.width }
    else return first

/-- Pieces up to a bar, a closing parenthesis or the end; those read so far are in reverse order. The
flag `first` holds in the first alternative outside of every group. -/
def readSequence : Nat → List Flag → Bool → List Piece → Reading Piece
  | 0, _, _, _ => failBack .unexpectedEnd 0
  | steps + 1, flags, first, done => do
    match ← peek with
    | none => return Piece.ofList done.reverse
    | some token =>
      if token.isPlain '|' || token.isPlain ')' then return Piece.ofList done.reverse
      else
        discard next
        if flags.contains .verbose && isLayout token then readSequence steps flags first done
        else if flags.contains .verbose && token.isPlain '#' then
          skipLine ((← left) + 1)
          readSequence steps flags first done
        else if token.escaped then
          readSequence steps flags first ((← readEscape flags token.char) :: done)
        else
          match token.char with
          | '[' => readSequence steps flags first ((← readSet flags token.position) :: done)
          | '.' =>
            let cls := if flags.contains .dotAll then CharClass.all else .notNewline
            readSequence steps flags first (⟨.item, .one cls, ⟨1, 1⟩⟩ :: done)
          | '^' =>
            let anchor := if flags.contains .multiline then Anchor.lineStart else .textStart
            readSequence steps flags first (Piece.anchor anchor :: done)
          | '$' =>
            let anchor := if flags.contains .multiline then Anchor.lineEnd else .finalEnd
            readSequence steps flags first (Piece.anchor anchor :: done)
          | '(' =>
            let atStart := first && done.isEmpty
            match ← readGroup steps flags atStart token.position with
            | some piece => readSequence steps flags first (piece :: done)
            | none =>
              let whole := (← get).flags
              readSequence steps (if atStart then whole else flags) first done
          | c =>
            if c == '*' || c == '+' || c == '?' || c == '\x7b' then
              readSequence steps flags first (← readRepetition flags c token.position done)
            else readSequence steps flags first (Piece.one flags (.single c) :: done)

/-- A group after its parenthesis, which stands at `start`; `none` for what leaves no piece. Flags of the
whole pattern may only stand at its start. -/
def readGroup : Nat → List Flag → Bool → Nat → Reading (Option Piece)
  | 0, _, _, _ => failBack .unexpectedEnd 0
  | steps + 1, flags, atStart, start => do
    match ← readOpening start with
    | .comment => return none
    | .globalFlags => if atStart then return none else failAt .lateGlobalFlags start
    | .reference number =>
      let width := ((← get).closed.lookup number).getD .zero
      return some (reference flags number width)
    | .look back negated =>
      let outermost := back && (← get).behindFrom.isNone
      if outermost then modify fun r => { r with behindFrom := some r.nextGroup }
      let body ← readBranches steps true flags
      if outermost then modify fun r => { r with behindFrom := none }
      closeGroup start
      if back then
        noteBehind body.width
        return some ⟨.item, .behind negated body.width.least body.pattern, .zero⟩
      else return some ⟨.item, .ahead negated body.pattern, .zero⟩
    | .condition =>
      let number ← readCondition
      checkBehind number
      let present ← readSequence steps flags false []
      let absent? ← if ← accept '|' then
          let absent ← readSequence steps flags false []
          if (← peek).any (·.isPlain '|') then failBack .thirdBranch 0
          else pure (some absent)
        else pure none
      closeGroup start
      match absent? with
      | some absent =>
        return some ⟨.item, .given number present.pattern absent.pattern,
          present.width.join absent.width⟩
      | none => return some ⟨.item, .given number present.pattern .empty, ⟨0, present.width.most⟩⟩
    | .plain =>
      let body ← readBranches steps true flags
      closeGroup start
      return some { body with kind := .item }
    | .flags on off =>
      let body ← readBranches steps true (Flag.combine flags on off)
      closeGroup start
      return some { body with kind := .item }
    | .atomic =>
      let body ← readBranches steps true flags
      closeGroup start
      return some ⟨.item, .atomic body.pattern, body.width⟩
    | .capture name =>
      let number ← openGroup name
      let body ← readBranches steps true flags
      closeGroup start
      modify fun r => { r with closed := (number, body.width) :: r.closed }
      return some ⟨.item, .group number body.pattern, body.width⟩

end

/-- A whole pattern. -/
def readAll : Reading Pattern := do
  let piece ← readBranches (3 * (← left) + 8) false []
  let r ← get
  if r.flags.contains .ascii && r.flags.contains .unicode then throw (.other .incompatibleFlags)
  else if !r.rest.isEmpty then failBack .unbalanced 0
  else
    match r.conditions.find? fun (number, _) => r.nextGroup ≤ number with
    | some (number, position) => failAt (.unknownGroup number) position
    | none =>
      match r.behindFault with
      | some fault => throw (.other fault)
      | none => return piece.pattern

end Reading

/-- Reads a pattern from its text. -/
def read (text : String) : Except ReadError Pattern :=
  let chars := text.toList
  let (rest, dangling) := tokens 0 chars
  let result : Except Fault Pattern :=
    if rest.isEmpty && dangling then .error (.located .escapeAtEnd (chars.length - 1))
    else Reading.readAll.run' { rest, dangling, size := chars.length }
  result.mapError fun
    | .located problem position => .located problem (Place.ofPosition chars position)
    | .other error => error

end RepoAudit.Pattern
