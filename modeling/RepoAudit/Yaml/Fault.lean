import RepoAudit.Number.Reading

/-!
# What can be wrong with a YAML document

A document that breaks the grammar is `malformed`, whatever the breach is. The other faults come from
scalars whose tag promises a value that the text does not give.
-/

namespace RepoAudit.Yaml

/-- Why a document has no value. -/
inductive Fault where
  /-- The text breaks the grammar or names something that is not there. -/
  | malformed
  /-- An escape names a character beyond the last one. -/
  | noSuchCharacter (code : Nat)
  /-- A text is no integer in a base. -/
  | badInteger (base : Nat) (text : String)
  /-- An integer has more digits than are read. -/
  | integerTooLong (digits : Nat)
  /-- A text is no floating-point number. -/
  | badDouble (text : String)
  /-- A number has no character at all. -/
  | emptyNumber
  /-- A text is no truth value. -/
  | badTruth (text : String)
  /-- The base of a group in a floating-point number is too large. -/
  | numberTooLarge
  /-- A text is no moment. -/
  | badMoment
  /-- A moment is not written as a text. -/
  | momentNotText
  /-- The year of a moment is out of range. -/
  | badYear (year : Nat)
  | badMonth
  | badDay
  | badHour
  | badMinute
  | badSecond
  /-- The distance to universal time is a day or more. -/
  | badOffset (minutes : Int)
  deriving DecidableEq, Repr

/-- The number of minutes of a day. -/
def minutesOfDay : Int := 1440

/-- A distance to universal time of a day or more, in days and seconds; the seconds are never
negative. -/
def offsetText (minutes : Int) : String :=
  let days := minutes.fdiv minutesOfDay
  let seconds := (minutes - days * minutesOfDay) * 60
  "datetime.timedelta(days=" ++ toString days ++
    (if seconds = 0 then "" else ", seconds=" ++ toString seconds) ++ ")"

/-- The wording of a fault. -/
def Fault.message : Fault → String
  | .malformed => "malformed document"
  | .noSuchCharacter _ => "chr() arg not in range(0x110000)"
  | .badInteger base text =>
    "invalid literal for int() with base " ++ toString base ++ ": " ++ Text.quoted text
  | .integerTooLong digits => (Number.IntegerError.tooLong digits).message
  | .badDouble text => "could not convert string to float: " ++ Text.quoted text
  | .emptyNumber => "string index out of range"
  | .badTruth text => text
  | .numberTooLarge => "int too large to convert to float"
  | .badMoment => "'NoneType' object has no attribute 'groupdict'"
  | .momentNotText => "expected string or bytes-like object, got 'list'"
  | .badYear year => "year " ++ toString year ++ " is out of range"
  | .badMonth => "month must be in 1..12"
  | .badDay => "day is out of range for month"
  | .badHour => "hour must be in 0..23"
  | .badMinute => "minute must be in 0..59"
  | .badSecond => "second must be in 0..59"
  | .badOffset minutes =>
    "offset must be a timedelta strictly between -timedelta(hours=24) and timedelta(hours=24), not " ++
      offsetText minutes ++ "."

end RepoAudit.Yaml
