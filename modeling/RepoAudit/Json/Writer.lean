import RepoAudit.Json.Basic
import RepoAudit.Number.Reading

/-!
# Writing JSON

Documents are written on one line, or with two spaces of indentation for each level, the members of every object in
the order of their names, and every character outside printable ASCII escaped by its UTF-16 units.
-/

namespace RepoAudit.Json

/-- A UTF-16 unit as an escape. -/
def unitEscape (n : Nat) : List Char := '\\' :: 'u' :: Text.hexDigits 4 n

/-- A character as it stands in a JSON text. -/
def escapeChar (c : Char) : List Char :=
  let n := c.toNat
  if c == '"' then ['\\', '"']
  else if c == '\\' then ['\\', '\\']
  else if c == '\n' then ['\\', 'n']
  else if c == '\r' then ['\\', 'r']
  else if c == '\t' then ['\\', 't']
  else if n == 12 then ['\\', 'f']
  else if n == 8 then ['\\', 'b']
  else if 32 ≤ n && n < 127 then [c]
  else if n < 0x10000 then unitEscape n
  else
    let m := n - 0x10000
    unitEscape (0xD800 + m / 1024) ++ unitEscape (0xDC00 + m % 1024)

/-- A text between double quotes. -/
def writeText (s : String) : String :=
  String.ofList ('"' :: s.toList.flatMap escapeChar ++ ['"'])

/-- A double: the names of the infinities and of not-a-number are their own. -/
def writeDouble : Double → String
  | .nan => "NaN"
  | .infinite negative => if negative then "-Infinity" else "Infinity"
  | x => x.text

/-- The text of a value on one line, its members in their own order. -/
def compact : Json → String
  | .null => "null"
  | .bool b => if b then "true" else "false"
  | .integer n => toString n
  | .double x => writeDouble x
  | .text s => writeText s
  | .array items => "[" ++ ",".intercalate (compactItems items) ++ "]"
  | .object members => "\x7b" ++ ",".intercalate (compactMembers members) ++ "\x7d"
where
  compactItems : List Json → List String
  | [] => []
  | item :: rest => compact item :: compactItems rest
  compactMembers : List (String × Json) → List String
  | [] => []
  | (name, value) :: rest => (writeText name ++ ":" ++ compact value) :: compactMembers rest

/-- A newline and the indentation of a level. -/
def newLine (level : Nat) : String := String.ofList ('\n' :: List.replicate (2 * level) ' ')

/-- Parts on lines of their own between two brackets, or the brackets alone when there are none. -/
def bracketed (opening closing : String) (level : Nat) (parts : List String) : String :=
  if parts.isEmpty then opening ++ closing
  else
    opening ++ newLine (level + 1) ++ ("," ++ newLine (level + 1)).intercalate parts ++
      newLine level ++ closing

/-- Writes a value as it stands at a level of indentation. Members are written before they are put in
order, so the recursion follows the value. -/
def writeAt (level : Nat) : Json → String
  | .null => "null"
  | .bool b => if b then "true" else "false"
  | .integer n => toString n
  | .double x => writeDouble x
  | .text s => writeText s
  | .array items => bracketed "[" "]" level (itemsAt (level + 1) items)
  | .object members =>
    let written := membersAt (level + 1) members
    let ordered := written.mergeSort fun a b => decide (a.1 ≤ b.1)
    bracketed "\x7b" "\x7d" level (ordered.map fun (name, value) => writeText name ++ ": " ++ value)
where
  itemsAt (level : Nat) : List Json → List String
  | [] => []
  | item :: rest => writeAt level item :: itemsAt level rest
  membersAt (level : Nat) : List (String × Json) → List (String × String)
  | [] => []
  | (name, value) :: rest => (name, writeAt level value) :: membersAt level rest

-- Powers are the core ones, also where an algebra library brings its own.
attribute [local instance (high)] instPowNat

/-- True when every integer of a value has no more digits than are written. -/
def isWritable : Json → Bool
  | .integer n => n.natAbs < 10 ^ Number.digitLimit
  | .array items => itemsWritable items
  | .object members => membersWritable members
  | _ => true
where
  itemsWritable : List Json → Bool
  | [] => true
  | item :: rest => isWritable item && itemsWritable rest
  membersWritable : List (String × Json) → Bool
  | [] => true
  | (_, value) :: rest => isWritable value && membersWritable rest

/-- The text of a document, without a final newline. -/
def write (value : Json) : String := writeAt 0 value

end RepoAudit.Json
