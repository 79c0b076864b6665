import RepoAudit.Json.Basic
import RepoAudit.Number.Reading
import RepoAudit.Text.Case

/-!
# Forms

A form says what values are taken, and in which shape they are kept. Checking a value against a form gives
the value in that shape, or everything that is wrong with it and where.
-/

namespace RepoAudit

/-- A step to a part of a value. -/
inductive PlaceStep where
  | name (name : String)
  | index (index : Nat)
  deriving DecidableEq, Repr

/-- What can be wrong with a value. -/
inductive IssueKind where
  | missing
  | malformed
  | notText
  | notListed
  | notInteger
  | unreadableInteger
  | integerTooLarge
  | fractional
  | notFinite
  | notFlag
  | unreadableFlag
  | notList
  | notDictionary
  | notObject
  deriving DecidableEq, Repr

/-- The name of what is wrong. -/
def IssueKind.name : IssueKind → String
  | missing => "missing"
  | malformed => "json_invalid"
  | notText => "string_type"
  | notListed => "literal_error"
  | notInteger => "int_type"
  | unreadableInteger => "int_parsing"
  | integerTooLarge => "int_parsing_size"
  | fractional => "int_from_float"
  | notFinite => "finite_number"
  | notFlag => "bool_type"
  | unreadableFlag => "bool_parsing"
  | notList => "list_type"
  | notDictionary => "dict_type"
  | notObject => "model_attributes_type"

/-- Something that is wrong, and where. -/
structure Issue where
  kind : IssueKind
  place : List PlaceStep
  deriving DecidableEq, Repr

/-- A value, or everything that is wrong with it. -/
abbrev Checked (α : Type) := Except (List Issue) α

namespace Checked

/-- A value that is wrong as a whole. -/
def wrong {α : Type} (kind : IssueKind) : Checked α := .error [⟨kind, []⟩]

/-- The result for a part, told as that of the whole. -/
def inside {α : Type} (step : PlaceStep) (part : Checked α) : Checked α :=
  part.mapError fun issues => issues.map fun issue => { issue with place := step :: issue.place }

/-- Both results, or the issues of both. -/
def both {α β : Type} (first : Checked α) (second : Checked β) : Checked (α × β) :=
  match first, second with
  | .ok a, .ok b => .ok (a, b)
  | .error xs, .ok _ => .error xs
  | .ok _, .error ys => .error ys
  | .error xs, .error ys => .error (xs ++ ys)

end Checked

/-! ## Integers in other values -/

namespace LaxInteger

/-- True of the white space that may stand around an integer. -/
def isSpace (c : Char) : Bool :=
  Text.isBlank c && !(0x1C ≤ c.toNat && c.toNat ≤ 0x1F)

/-- The digits without the zeros before them; single underscores may stand between digits. -/
def dropZeros : List Char → Option (List Char)
  | [] => some ['0']
  | '0' :: rest => dropZeros rest
  | '_' :: '0' :: rest => dropZeros rest
  | '_' :: c :: rest => if c.isDigit then some (c :: rest) else none
  | '.' :: rest => some ('0' :: '.' :: rest)
  | c :: rest => if c.isDigit then some (c :: rest) else none

/-- The digits without the zeros before them, when the first character is a digit. -/
def significant : List Char → Option (List Char)
  | '0' :: rest => dropZeros rest
  | c :: rest => if c.isDigit then some (c :: rest) else none
  | [] => none

/-- The digits without a fraction of zeros. -/
def dropFraction (digits : List Char) : List Char :=
  match digits.dropWhile (· != '.') with
  | '.' :: fraction =>
    if fraction.all (· == '0') then digits.takeWhile (· != '.') else digits
  | _ => digits

/-- True when two underscores stand side by side. -/
def hasGap : List Char → Bool
  | '_' :: '_' :: _ => true
  | _ :: rest => hasGap rest
  | [] => false

/-- The digits without single underscores between them. -/
def dropUnderscores (digits : List Char) : List Char :=
  if digits.head? == some '_' || digits.getLast? == some '_' || hasGap digits then digits
  else digits.filter (· != '_')

/-- The sign and the digits of an integer. -/
def split (s : List Char) : Option (Bool × List Char) :=
  let unsigned := match s with
    | '+' :: rest => if rest.head? == some '-' then none else some rest
    | s => some s
  unsigned.bind fun s =>
    match s with
    | '-' :: rest => (significant rest).map (true, ·)
    | s => (significant s).map (false, ·)

/-- The integer that a text stands for. -/
def ofText (text : String) : Checked Int :=
  let trimmed := Text.dropEndWhile isSpace (text.toList.dropWhile isSpace)
  match split trimmed with
  | none => Checked.wrong .unreadableInteger
  | some (negative, digits) =>
    let digits := dropUnderscores (dropFraction digits)
    if digits.isEmpty || !digits.all Char.isDigit then Checked.wrong .unreadableInteger
    else if Number.digitLimit < digits.length then Checked.wrong .integerTooLarge
    else
      let n : Int := Number.ofDigits (digits.map fun c => c.toNat - '0'.toNat)
      .ok (if negative then -n else n)

-- Powers are the core ones, also where an algebra library brings its own.
attribute [local instance (high)] instPowNat

/-- The greatest power of two that bounds integers in doubles. -/
def bound : Int := 2 ^ (63 : Nat)

/-- The integer that a double is. -/
def ofDouble (x : Double) : Checked Int :=
  match x.truncate with
  | .error _ => Checked.wrong .notFinite
  | .ok n =>
    if !Double.same x (Double.ofInt n) then Checked.wrong .fractional
    else if -bound < n && n < bound then .ok n
    else Checked.wrong .integerTooLarge

/-- The integer that a value stands for; truth values count as one and zero. -/
def ofJson : Json → Checked Int
  | .integer n => .ok n
  | .bool b => .ok (if b then 1 else 0)
  | .double x => ofDouble x
  | .text s => ofText s
  | _ => Checked.wrong .notInteger

end LaxInteger

/-! ## Truth values in other values -/

namespace LaxFlag

/-- The words for true. -/
def trueWords : List String := ["1", "on", "t", "true", "y", "yes"]

/-- The words for false. -/
def falseWords : List String := ["0", "off", "f", "false", "n", "no"]

/-- The truth value that a value stands for. -/
def ofJson (value : Json) : Checked Bool :=
  match value with
  | .bool b => .ok b
  | .text s =>
    let word := Text.lower s
    if trueWords.contains word then .ok true
    else if falseWords.contains word then .ok false
    else Checked.wrong .unreadableFlag
  | .integer _ | .double _ =>
    if value.equalsInteger 1 then .ok true
    else if value.equalsInteger 0 then .ok false
    else Checked.wrong .unreadableFlag
  | _ => Checked.wrong .notFlag

end LaxFlag

/-! ## Forms -/

mutual

/-- What values are taken. -/
inductive Form where
  | any
  | text
  | integer
  | flag
  | oneOf (names : List String)
  | optional (form : Form)
  | list (form : Form)
  | dictionary (form : Form)
  | object (fields : FormFields)

/-- The fields of an object. A field without a standard value is required. -/
inductive FormFields where
  | none
  | field (name : String) (form : Form) (standard : Option Json) (rest : FormFields)

end

/-- The fields of a list. -/
def FormFields.ofList : List (String × Form × Option Json) → FormFields
  | [] => .none
  | (name, form, standard) :: rest => .field name form standard (ofList rest)

/-- Checks the items of a list with a check for one. -/
def checkItems (check : Json → Checked Json) (start : Nat) : List Json → Checked (List Json)
  | [] => .ok []
  | item :: rest =>
    ((check item).inside (.index start)).both (checkItems check (start + 1) rest)
      |>.map fun (item, items) => item :: items

/-- Checks the members of an object with a check for one value. -/
def checkMembers (check : Json → Checked Json) :
    List (String × Json) → Checked (List (String × Json))
  | [] => .ok []
  | (name, value) :: rest =>
    ((check value).inside (.name name)).both (checkMembers check rest)
      |>.map fun (value, members) => (name, value) :: members

mutual

/-- Checks a value against a form. -/
def Form.check : Form → Json → Checked Json
  | .any, value => .ok value
  | .text, value =>
    match value with
    | .text s => .ok (.text s)
    | _ => Checked.wrong .notText
  | .integer, value => (LaxInteger.ofJson value).map .integer
  | .flag, value => (LaxFlag.ofJson value).map .bool
  | .oneOf names, value =>
    match value with
    | .text s => if names.contains s then .ok (.text s) else Checked.wrong .notListed
    | _ => Checked.wrong .notListed
  | .optional form, value => if value.isNull then .ok .null else form.check value
  | .list form, value =>
    match value with
    | .array items => (checkItems form.check 0 items).map .array
    | _ => Checked.wrong .notList
  | .dictionary form, value =>
    match value with
    | .object members => (checkMembers form.check members).map .object
    | _ => Checked.wrong .notDictionary
  | .object fields, value =>
    match value with
    | .object members => (fields.check members).map .object
    | _ => Checked.wrong .notObject

/-- Checks the members of an object against fields; members without a field are left out. -/
def FormFields.check : FormFields → List (String × Json) → Checked (List (String × Json))
  | .none, _ => .ok []
  | .field name form standard rest, members =>
    let value : Checked Json :=
      match Json.Member.get? members name, standard with
      | some value, _ => form.check value
      | none, some standard => .ok standard
      | none, none => Checked.wrong .missing
    (value.inside (.name name)).both (rest.check members)
      |>.map fun (value, members) => (name, value) :: members

end

end RepoAudit
