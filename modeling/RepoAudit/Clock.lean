import RepoAudit.Text.Basic

/-!
# Instants

A moment in universal time, to the microsecond, and its text. The fraction of a second is written only
when it is not zero.
-/

namespace RepoAudit

/-- A moment in universal time. -/
structure Instant where
  year : Nat
  month : Nat
  day : Nat
  hour : Nat := 0
  minute : Nat := 0
  second : Nat := 0
  microsecond : Nat := 0
  deriving DecidableEq, Repr

namespace Instant

/-- The fraction of a second, with six digits. -/
def fraction (t : Instant) : String :=
  if t.microsecond = 0 then "" else "." ++ Text.padded 6 t.microsecond

/-- The text of an instant: date, time and the mark of universal time. -/
def text (t : Instant) : String :=
  Text.padded 4 t.year ++ "-" ++ Text.padded 2 t.month ++ "-" ++ Text.padded 2 t.day ++ "T" ++
    Text.padded 2 t.hour ++ ":" ++ Text.padded 2 t.minute ++ ":" ++ Text.padded 2 t.second ++
    t.fraction ++ "Z"

/-- The year, the month and the day that lie a number of days after the first of January 1970. Years are
counted from March on, so that the day that some years add comes last. -/
def dateAfter (days : Nat) : Nat × Nat × Nat :=
  let shifted := days + 719468
  let era := shifted / 146097
  let inEra := shifted % 146097
  let yearOfEra := (inEra - inEra / 1460 + inEra / 36524 - inEra / 146096) / 365
  let dayOfYear := inEra - (365 * yearOfEra + yearOfEra / 4 - yearOfEra / 100)
  let shiftedMonth := (5 * dayOfYear + 2) / 153
  let day := dayOfYear - (153 * shiftedMonth + 2) / 5 + 1
  let month := if shiftedMonth < 10 then shiftedMonth + 3 else shiftedMonth - 9
  (yearOfEra + era * 400 + (if month ≤ 2 then 1 else 0), month, day)

/-- The moment that lies a number of microseconds after the beginning of 1970. -/
def after (microseconds : Nat) : Instant :=
  let seconds := microseconds / 1000000
  let (year, month, day) := dateAfter (seconds / 86400)
  ⟨year, month, day, seconds % 86400 / 3600, seconds % 3600 / 60, seconds % 60,
    microseconds % 1000000⟩

end Instant

end RepoAudit
