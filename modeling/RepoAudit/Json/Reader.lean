import RepoAudit.Json.Basic
import RepoAudit.Number.Reading

/-!
# Reading JSON

The reader accepts the standard grammar together with the names of the infinities and of
not-a-number. Of two members of one name the later value stands, in the place of the first. A failure
names its cause and the position it was found at; positions count characters from the start.
-/

namespace RepoAudit.Json

/-- What a text that is not JSON does wrong. -/
inductive Problem where
  | expectingValue
  | expectingName
  | expectingColon
  | expectingComma
  | extraData
  | unterminatedText
  | controlCharacter
  | badEscape
  | badUnicodeEscape
  | byteOrderMark
  deriving DecidableEq, Repr

/-- The wording of a problem. -/
def Problem.message : Problem → String
  | .expectingValue => "Expecting value"
  | .expectingName => "Expecting property name enclosed in double quotes"
  | .expectingColon => "Expecting ':' delimiter"
  | .expectingComma => "Expecting ',' delimiter"
  | .extraData => "Extra data"
  | .unterminatedText => "Unterminated string starting at"
  | .controlCharacter => "Invalid control character at"
  | .badEscape => "Invalid \\escape"
  | .badUnicodeEscape => "Invalid \\uXXXX escape"
  | .byteOrderMark => "Unexpected UTF-8 BOM (decode using utf-8-sig)"

/-- Why a text cannot be read. -/
inductive ReadError where
  /-- The text is not JSON. -/
  | malformed (problem : Problem) (position : Nat)
  /-- An integer has more digits than are read. -/
  | integerTooLong (digits : Nat)
  /-- Arrays and objects are nested too deeply. -/
  | tooDeep (inArray : Bool)
  deriving DecidableEq, Repr

/-- The text of the failure. -/
def ReadError.message : ReadError → String
  | .malformed problem _ => problem.message
  | .integerTooLong digits => (Number.IntegerError.tooLong digits).message
  | .tooDeep inArray =>
    "maximum recursion depth exceeded while decoding a JSON " ++
      (if inArray then "array" else "object") ++ " from a unicode string"

/-- True of a text that is beyond what is read. -/
def ReadError.isExcessive : ReadError → Bool
  | .malformed _ _ => false
  | .integerTooLong _ => true
  | .tooDeep _ => true

/-- The number of arrays and objects that may enclose a value. -/
def nestingLimit : Nat := 980

/-- A failure inside the reader: the position is counted in characters from the end of the text. -/
inductive Fault where
  | malformed (problem : Problem) (left : Nat)
  | integerTooLong (digits : Nat)
  | tooDeep (inArray : Bool)

/-- The failure of a text of the given length. -/
def Fault.toReadError (length : Nat) : Fault → ReadError
  | .malformed problem left => .malformed problem (length - left)
  | .integerTooLong digits => .integerTooLong digits
  | .tooDeep inArray => .tooDeep inArray

/-- A failure at the head of the rest of the text. -/
def faultAt {α : Type} (problem : Problem) (rest : List Char) : Except Fault α :=
  .error (.malformed problem rest.length)

/-- True of the characters that may stand between tokens. -/
def isSpace (c : Char) : Bool := c == ' ' || c == '\t' || c == '\n' || c == '\r'

/-- The text after the blanks at its head. -/
def skipSpace (s : List Char) : List Char := s.dropWhile isSpace

/-- Four hexadecimal digits at the head, when at least one character follows them. -/
def unit? : List Char → Option (Nat × List Char)
  | a :: b :: c :: d :: rest =>
    match Text.hexValue? a, Text.hexValue? b, Text.hexValue? c, Text.hexValue? d with
    | some a, some b, some c, some d =>
      if rest.isEmpty then none else some (((a * 16 + b) * 16 + c) * 16 + d, rest)
    | _, _, _, _ => none
  | _ => none

/-- The character that a one-letter escape stands for. -/
def simpleEscape? : Char → Option Char
  | '"' => some '"'
  | '\\' => some '\\'
  | '/' => some '/'
  | 'b' => some (Char.ofNat 8)
  | 'f' => some (Char.ofNat 12)
  | 'n' => some '\n'
  | 'r' => some '\r'
  | 't' => some '\t'
  | _ => none

/-- The character of a pair of UTF-16 units. -/
def joinUnits (high low : Nat) : Char := Char.ofNat (0x10000 + (high - 0xD800) * 1024 + (low - 0xDC00))

/-- A unit on its own; half of a pair becomes the replacement character. -/
def loneUnit (n : Nat) : Char := if 0xD800 ≤ n && n ≤ 0xDFFF then Char.ofNat 0xFFFD else Char.ofNat n

/-- The rest of a text value after its opening quote, from which on the text is `opened`. The characters
read so far are in reverse order; `steps` bounds the characters left. -/
def readTextFrom (opened : List Char) : Nat → List Char → List Char → Except Fault (String × List Char)
  | 0, _, _ => faultAt .unterminatedText opened
  | _, _, [] => faultAt .unterminatedText opened
  | steps + 1, done, c :: rest =>
    if c == '"' then .ok (String.ofList done.reverse, rest)
    else if c == '\\' then
      match rest with
      | [] => faultAt .unterminatedText opened
      | 'u' :: after =>
        match unit? after with
        | none => faultAt .badUnicodeEscape rest
        | some (high, after) =>
          if 0xD800 ≤ high && high ≤ 0xDBFF then
            match after with
            | '\\' :: 'u' :: more =>
              if (more.drop 4).isEmpty then readTextFrom opened steps (loneUnit high :: done) after
              else match unit? more with
                | none => faultAt .badUnicodeEscape ('u' :: more)
                | some (low, more) =>
                  if 0xDC00 ≤ low && low ≤ 0xDFFF then
                    readTextFrom opened steps (joinUnits high low :: done) more
                  else readTextFrom opened steps (loneUnit high :: done) after
            | _ => readTextFrom opened steps (loneUnit high :: done) after
          else readTextFrom opened steps (loneUnit high :: done) after
      | e :: after =>
        match simpleEscape? e with
        | some value => readTextFrom opened steps (value :: done) after
        | none => faultAt .badEscape (c :: rest)
    else if c.toNat < 32 then faultAt .controlCharacter (c :: rest)
    else readTextFrom opened steps (c :: done) rest

/-- A text value, after its opening quote; the first argument bounds its characters. -/
def readText (steps : Nat) (rest : List Char) : Except Fault (String × List Char) :=
  readTextFrom ('"' :: rest) steps [] rest

/-- The digits at the head, and what follows them. -/
def takeDigits (s : List Char) : List Char × List Char := (s.takeWhile Char.isDigit, s.dropWhile Char.isDigit)

/-- The number that ASCII digits stand for. -/
def digitsValue (digits : List Char) : Nat := digits.foldl (fun n c => n * 10 + (c.toNat - 48)) 0

/-- A number at the head of the text; `none` when there is none. -/
def readNumber (s : List Char) : Option (Except Fault (Json × List Char)) :=
  let (negative, body) := match s with
    | '-' :: rest => (true, rest)
    | _ => (false, s)
  let (whole, rest) := match body with
    | '0' :: rest => (['0'], rest)
    | _ => takeDigits body
  if whole.isEmpty then none
  else
    let (fraction, rest) := match rest with
      | '.' :: more =>
        let (digits, after) := takeDigits more
        if digits.isEmpty then ([], rest) else (digits, after)
      | _ => ([], rest)
    let (exponent, rest) : Option Int × List Char := match rest with
      | mark :: more =>
        if mark == 'e' || mark == 'E' then
          let (down, unsigned) := match more with
            | '-' :: u => (true, u)
            | '+' :: u => (false, u)
            | u => (false, u)
          let (digits, after) := takeDigits unsigned
          if digits.isEmpty then (none, rest)
          else (some (if down then -(digitsValue digits : Int) else digitsValue digits), after)
        else (none, rest)
      | [] => (none, rest)
    if fraction.isEmpty && exponent.isNone then
      if Number.digitLimit < whole.length then some (.error (.integerTooLong whole.length))
      else
        let n : Int := digitsValue whole
        some (.ok (.integer (if negative then -n else n), rest))
    else
      let digits := digitsValue (whole ++ fraction)
      some (.ok (.double (Double.ofDecimal negative digits (exponent.getD 0 - fraction.length)), rest))

/-- The words that stand for values, with the signed infinity. -/
def wordValues : List (List Char × Json) := [
  ("null".toList, .null), ("true".toList, .bool true), ("false".toList, .bool false),
  ("NaN".toList, .double .nan), ("Infinity".toList, .double (.infinite false)),
  ("-Infinity".toList, .double (.infinite true))]

/-- A word at the head of the text. -/
def readWord? (s : List Char) : Option (Json × List Char) :=
  (wordValues.find? fun (word, _) => word.isPrefixOf s).map fun (word, value) =>
    (value, s.drop word.length)

mutual

/-- A value at the head of the text, with `depth` more levels of nesting allowed; the first argument
bounds the calls. -/
def readValue : Nat → Nat → List Char → Except Fault (Json × List Char)
  | 0, _, s => faultAt .expectingValue s
  | steps + 1, depth, s =>
    match s with
    | '"' :: rest => (readText steps rest).map fun (value, after) => (.text value, after)
    | '\x7b' :: rest =>
      match depth with
      | 0 => .error (.tooDeep false)
      | depth + 1 =>
        match skipSpace rest with
        | '\x7d' :: after => .ok (.object [], after)
        | inside => readMembers steps depth [] inside
    | '[' :: rest =>
      match depth with
      | 0 => .error (.tooDeep true)
      | depth + 1 =>
        match skipSpace rest with
        | ']' :: after => .ok (.array [], after)
        | inside => readItems steps depth [] inside
    | _ =>
      match readWord? s with
      | some found => .ok found
      | none =>
        match readNumber s with
        | some result => result
        | none => faultAt .expectingValue s

/-- The members of an object from a name on. -/
def readMembers : Nat → Nat → List (String × Json) → List Char → Except Fault (Json × List Char)
  | 0, _, _, s => faultAt .expectingName s
  | steps + 1, depth, members, s =>
    match s with
    | '"' :: rest => do
      let (name, rest) ← readText steps rest
      match skipSpace rest with
      | ':' :: rest =>
        let (value, rest) ← readValue steps depth (skipSpace rest)
        let members := Member.put members name value
        match skipSpace rest with
        | '\x7d' :: rest => .ok (.object members, rest)
        | ',' :: rest => readMembers steps depth members (skipSpace rest)
        | rest => faultAt .expectingComma rest
      | rest => faultAt .expectingColon rest
    | _ => faultAt .expectingName s

/-- The items of an array from a value on; those read so far are in reverse order. -/
def readItems : Nat → Nat → List Json → List Char → Except Fault (Json × List Char)
  | 0, _, _, s => faultAt .expectingValue s
  | steps + 1, depth, items, s => do
    let (value, rest) ← readValue steps depth s
    match skipSpace rest with
    | ']' :: rest => .ok (.array (value :: items).reverse, rest)
    | ',' :: rest => readItems steps depth (value :: items) (skipSpace rest)
    | rest => faultAt .expectingComma rest

end

/-- Reads a whole document. -/
def read (s : String) : Except ReadError Json :=
  let chars := s.toList
  let length := chars.length
  let result : Except Fault Json :=
    if chars.head? == some (Char.ofNat 0xFEFF) then faultAt .byteOrderMark chars
    else do
      let (value, rest) ← readValue (2 * length + 2) nestingLimit (skipSpace chars)
      match skipSpace rest with
      | [] => .ok value
      | rest => faultAt .extraData rest
  result.mapError (Fault.toReadError length)

end RepoAudit.Json
