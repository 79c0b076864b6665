import RepoAudit.Bytes.Base64
import RepoAudit.Yaml.Tag
import RepoAudit.Yaml.Fault

/-!
# What scalars mean

The value of a scalar's text under its tag. Underscores in numbers do not count. An integer may be
binary, octal after a leading zero, hexadecimal, or a sum of groups in base sixty; so may a decimal
number be a sum of groups.
-/

namespace RepoAudit.Yaml

/-- The truth values by their names in lower case. -/
def truths : List (String × Bool) :=
  [("yes", true), ("no", false), ("true", true), ("false", false), ("on", true), ("off", false)]

/-- A truth value, in any case. -/
def readTruth (text : String) : Except Fault Bool :=
  let name := Text.lower text
  match truths.lookup name with
  | some value => .ok value
  | none => .error (.badTruth name)

/-- An integer in base ten. -/
def readDecimal (text : String) : Except Fault Int :=
  match Number.readInteger text with
  | .ok n => .ok n
  | .error (.notInteger text) => .error (.badInteger 10 text)
  | .error (.tooLong digits) => .error (.integerTooLong digits)

/-- The letter that marks a base. -/
def baseLetter : Nat → Char
  | 2 => 'b'
  | 8 => 'o'
  | _ => 'x'

/-- The value of a digit: a decimal digit of any script or a letter. -/
def digitOf? (c : Char) : Option Nat :=
  match Text.digitValue? c with
  | some d => some d
  | none => Text.hexValue? c

/-- The number of digits in a base of at most sixteen; there has to be one. -/
def digitsIn? (base : Nat) (digits : List Char) : Option Nat :=
  if digits.isEmpty then none
  else digits.foldlM (fun n c =>
    match digitOf? c with
    | some d => if d < base then some (n * base + d) else none
    | none => none) 0

/-- An integer in base two, eight or sixteen, with a sign and the mark of its base if they are there. -/
def readInBase (base : Nat) (text : List Char) : Except Fault Int :=
  let (negative, body) := Number.splitSign (Text.stripChars text)
  let digits := match body with
    | '0' :: c :: rest => if c.toLower == baseLetter base then rest else body
    | _ => body
  match digitsIn? base digits with
  | some n => .ok (if negative then -(n : Int) else n)
  | none => .error (.badInteger base (String.ofList text))

/-- The number that groups in base sixty stand for. -/
def ofSixtieths (groups : List Int) : Int := groups.foldl (fun n d => n * 60 + d) 0

/-- The magnitude of an integer. -/
def readMagnitude (text : List Char) : Except Fault Int :=
  match text with
  | ['0'] => .ok 0
  | '0' :: 'b' :: rest => readInBase 2 rest
  | '0' :: 'x' :: rest => readInBase 16 rest
  | '0' :: _ => readInBase 8 text
  | [] => .error .emptyNumber
  | _ =>
    if text.contains ':' then
      ofSixtieths <$> (Text.splitOn ':' text).mapM fun part => readDecimal (String.ofList part)
    else readDecimal (String.ofList text)

/-- An integer. -/
def readInteger (text : String) : Except Fault Int :=
  let body := text.toList.filter (· != '_')
  if body.isEmpty then .error .emptyNumber
  else
    let (negative, magnitude) := Number.splitSign body
    (readMagnitude magnitude).map fun n => if negative then -n else n

/-- A decimal number. -/
def readPoint (text : List Char) : Except Fault Double :=
  match Number.readDouble? (String.ofList text) with
  | some x => .ok x
  | none => .error (.badDouble (String.ofList text))

/-- The sum of groups in base sixty, the last group first. -/
def addSixtieths (base : Nat) (sum : Double) : List Double → Except Fault Double
  | [] => .ok sum
  | group :: rest =>
    match Double.ofInt base with
    | .infinite _ => .error .numberTooLarge
    | factor => addSixtieths (base * 60) (sum.add (group.mul factor)) rest

/-- A floating-point number. -/
def readDouble (text : String) : Except Fault Double := do
  let body := (Text.lower (String.ofList (text.toList.filter (· != '_')))).toList
  if body.isEmpty then .error .emptyNumber
  else
    let (negative, magnitude) := Number.splitSign body
    if magnitude = ".nan".toList then .ok .nan
    else
      let value ←
        if magnitude = ".inf".toList then .ok (Double.infinite false)
        else if magnitude.contains ':' then do
          let groups ← (Text.splitOn ':' magnitude).mapM readPoint
          addSixtieths 1 (Double.zero false) groups.reverse
        else readPoint magnitude
      .ok (if negative then value.negate else value)

/-- The number of days of a month. -/
def daysOfMonth (year month : Nat) : Nat :=
  if month = 2 then (if year % 4 = 0 ∧ (year % 100 ≠ 0 ∨ year % 400 = 0) then 29 else 28)
  else if month = 4 ∨ month = 6 ∨ month = 9 ∨ month = 11 then 30
  else 31

/-- The number that a group of a match stands for. -/
def groupNumber? (text : Array Char) (hit : Pattern.Hit) (number : Nat) : Option Nat :=
  (Pattern.capture? hit.captures number).map fun (start, stop) =>
    Number.ofDigits ((text.extract start stop).toList.map fun c => c.toNat - 48)

/-- The distance to universal time in minutes, if a match gives one. -/
def offsetOf? (text : Array Char) (hit : Pattern.Hit) : Option Int :=
  (Pattern.capture? hit.captures 7).map fun (start, _) =>
    let minutes : Int :=
      (groupNumber? text hit 8).getD 0 * 60 + (groupNumber? text hit 9).getD 0
    if text[start]? == some '-' then -minutes else minutes

/-- Checks that a text is a moment. -/
def checkMoment (text : String) : Except Fault Unit :=
  let chars := text.toList.toArray
  match Tag.wholeMatch? Tag.momentForm chars with
  | none => .error .badMoment
  | some hit =>
    let part := groupNumber? chars hit
    let offset := (offsetOf? chars hit).getD 0
    let year := (part 1).getD 0
    let month := (part 2).getD 0
    let day := (part 3).getD 0
    if minutesOfDay ≤ offset ∨ offset ≤ -minutesOfDay then .error (.badOffset offset)
    else if year = 0 then .error (.badYear year)
    else if month = 0 ∨ 12 < month then .error .badMonth
    else if day = 0 ∨ daysOfMonth year month < day then .error .badDay
    else if 23 < (part 4).getD 0 then .error .badHour
    else if 59 < (part 5).getD 0 then .error .badMinute
    else if 59 < (part 6).getD 0 then .error .badSecond
    else .ok ()

/-- Octets written in base 64. -/
def readOctets (text : String) : Except Fault (List UInt8) :=
  match Base64.decode text.toList with
  | .ok octets => .ok octets
  | .error _ => .error .malformed

end RepoAudit.Yaml
