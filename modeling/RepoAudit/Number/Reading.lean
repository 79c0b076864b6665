import RepoAudit.Number.Double
import RepoAudit.Text.Basic
import RepoAudit.Text.Case
import RepoAudit.Text.Digit
import RepoAudit.Text.Quoted

/-!
# Reading numbers

Numbers in configuration and in payloads may have white space around them, a sign, digits of any
script, and single underscores between digits. An integer has at most `digitLimit` digits.
-/

namespace RepoAudit.Number

/-- The greatest number of digits of an integer that is read from text. -/
def digitLimit : Nat := 4300

/-- Why a text is no integer. -/
inductive IntegerError where
  | notInteger (text : String)
  | tooLong (digits : Nat)
  deriving DecidableEq, Repr

/-- The text of the failure. -/
def IntegerError.message : IntegerError → String
  | .notInteger text => "invalid literal for int() with base 10: " ++ Text.quoted text
  | .tooLong digits =>
    "Exceeds the limit (4300 digits) for integer string conversion: value has " ++ toString digits ++
      " digits; use sys.set_int_max_str_digits() to increase the limit"

/-- The values of the digits, or `none` when a character is neither a digit nor an underscore that
stands between two digits. The flag says whether the last character was a digit. -/
def groupedDigits (afterDigit : Bool) : List Char → Option (List Nat)
  | [] => if afterDigit then some [] else none
  | '_' :: rest => if afterDigit then groupedDigits false rest else none
  | c :: rest =>
    match Text.digitValue? c with
    | some d => (groupedDigits true rest).map (d :: ·)
    | none => none

/-- The number that decimal digits stand for. -/
def ofDigits (digits : List Nat) : Nat := digits.foldl (fun n d => n * 10 + d) 0

/-- Splits off a sign: true for a minus. -/
def splitSign : List Char → Bool × List Char
  | '-' :: rest => (true, rest)
  | '+' :: rest => (false, rest)
  | s => (false, s)

/-- Reads an integer. -/
def readInteger (text : String) : Except IntegerError Int :=
  let (negative, body) := splitSign (Text.stripChars text.toList)
  match groupedDigits false body with
  | none => .error (.notInteger text)
  | some digits =>
    if digitLimit < digits.length then .error (.tooLong digits.length)
    else .ok (if negative then -(ofDigits digits : Int) else ofDigits digits)

/-- The parts of a decimal number: the text before the point, after it, and the exponent. -/
structure DecimalParts where
  whole : List Char
  fraction : Option (List Char)
  exponent : Option (List Char)

/-- Splits a number at its point and at its exponent mark. -/
def decimalParts (s : List Char) : DecimalParts :=
  let isMark (c : Char) := c == 'e' || c == 'E'
  let mantissa := s.takeWhile (!isMark ·)
  let exponent := match s.dropWhile (!isMark ·) with
    | [] => none
    | _ :: rest => some rest
  let fraction := match mantissa.dropWhile (· != '.') with
    | [] => none
    | _ :: rest => some rest
  ⟨mantissa.takeWhile (· != '.'), fraction, exponent⟩

/-- Digits that may be missing altogether. -/
def optionalDigits (s : List Char) : Option (List Nat) :=
  if s.isEmpty then some [] else groupedDigits false s

/-- The exponent of a decimal number: an optional sign and at least one digit. -/
def readExponent (s : List Char) : Option Int :=
  let (negative, body) := splitSign s
  (groupedDigits false body).map fun digits =>
    if negative then -(ofDigits digits : Int) else ofDigits digits

/-- Reads a floating-point number: decimal digits with an optional point and exponent, or a name of an
infinity or of not-a-number in any case. -/
def readDouble? (text : String) : Option Double :=
  let (negative, body) := splitSign (Text.stripChars text.toList)
  let name := String.ofList (body.map Char.toLower)
  if name = "inf" ∨ name = "infinity" then some (.infinite negative)
  else if name = "nan" then some .nan
  else
    let parts := decimalParts body
    match optionalDigits parts.whole, optionalDigits (parts.fraction.getD []) with
    | some whole, some fraction =>
      if whole.isEmpty && fraction.isEmpty then none
      else
        let exponent? := match parts.exponent with
          | none => some 0
          | some e => readExponent e
        exponent?.map fun e =>
          Double.ofDecimal negative (ofDigits (whole ++ fraction)) (e - fraction.length)
    | _, _ => none

end RepoAudit.Number
