import RepoAudit.Pattern.Basic

/-!
# Tags of scalars and collections

A tag names the kind of a value. A plain scalar without a tag takes its kind from its form; the forms
are those of version 1.1, in which `yes` is a truth value, `010` an octal integer and `1:30` an integer
in base sixty.
-/

namespace RepoAudit.Yaml

/-- The kinds of values. -/
inductive Tag where
  | null
  | bool
  | int
  | float
  | binary
  | timestamp
  | text
  | list
  | map
  | set
  | orderedMap
  | pairs
  | merge
  | value
  | unknown
  deriving DecidableEq, Repr

namespace Tag

/-- The address under which the tags of the language are known. -/
def core : String := "tag:yaml.org,2002:"

/-- The tags of the language by their short names. -/
def shortNames : List (String × Tag) := [
  ("null", null), ("bool", bool), ("int", int), ("float", float), ("binary", binary),
  ("timestamp", timestamp), ("str", text), ("seq", list), ("map", map), ("set", set),
  ("omap", orderedMap), ("pairs", pairs), ("merge", merge), ("value", value)]

/-- The tag of a full name. -/
def ofName (name : String) : Tag :=
  match shortNames.find? fun (short, _) => core ++ short == name with
  | some (_, tag) => tag
  | none => unknown

open Pattern

/-- The digits from `first` to `last`. -/
def digits (first last : Char) : CharClass := ⟨[.range first.toNat last.toNat], false⟩

/-- A digit. -/
def digit : Pattern := .one (digits '0' '9')

/-- Digits and underscores. -/
def grouped : CharClass := ⟨[.range 48 57, .range 95 95], false⟩

/-- A sign or none. -/
def sign : Pattern := optional (.ofChars ['-', '+'])

/-- Groups of at most two digits below sixty, each after a colon. -/
def sixtieths : Pattern :=
  .loop (sequence [literal ":", optional (digits '0' '5'), digit]) 1 none .greedy

/-- An exponent or none. -/
def exponent : Pattern :=
  maybe (sequence [.one (.ofChars ['e', 'E']), .one (.ofChars ['-', '+']), atLeast 1 (digits '0' '9')])

/-- Any of the words. -/
def words (all : List String) : Pattern := choice (all.map literal)

/-- The form of truth values. -/
def boolForm : Pattern :=
  words ["yes", "Yes", "YES", "no", "No", "NO", "true", "True", "TRUE", "false", "False", "FALSE",
    "on", "On", "ON", "off", "Off", "OFF"]

/-- The form of floating-point numbers. -/
def floatForm : Pattern :=
  choice [
    sequence [sign, digit, atLeast 0 grouped, literal ".", atLeast 0 grouped, exponent],
    sequence [literal ".", digit, atLeast 0 grouped, exponent],
    sequence [sign, digit, atLeast 0 grouped, sixtieths, literal ".", atLeast 0 grouped],
    sequence [sign, literal ".", words ["inf", "Inf", "INF"]],
    sequence [literal ".", words ["nan", "NaN", "NAN"]]]

/-- The form of integers. -/
def intForm : Pattern :=
  choice [
    sequence [sign, literal "0b", atLeast 1 ⟨[.range 48 49, .range 95 95], false⟩],
    sequence [sign, literal "0", atLeast 1 ⟨[.range 48 55, .range 95 95], false⟩],
    sequence [sign, choice [literal "0", sequence [.one (digits '1' '9'), atLeast 0 grouped]]],
    sequence [sign, literal "0x",
      atLeast 1 ⟨[.range 48 57, .range 97 102, .range 65 70, .range 95 95], false⟩],
    sequence [sign, .one (digits '1' '9'), atLeast 0 grouped, sixtieths]]

/-- One or two digits. -/
def oneOrTwo : Pattern := .run (digits '0' '9') 1 (some 2) .greedy

/-- Exactly so many digits. -/
def exact (count : Nat) : Pattern := exactly count (digits '0' '9')

/-- What stands between a date and a time. -/
def betweenDateAndTime : Pattern :=
  choice [.one (.ofChars ['T', 't']), atLeast 1 (.ofChars [' ', '\t'])]

/-- A date and a time with the parts as groups: year, month, day, hour, minute, second, fraction, sign,
hours and minutes of the distance to universal time. -/
def momentForm : Pattern :=
  sequence [.group 1 (exact 4), literal "-", .group 2 oneOrTwo, literal "-", .group 3 oneOrTwo,
    maybe (sequence [betweenDateAndTime, .group 4 oneOrTwo, literal ":", .group 5 (exact 2),
      literal ":", .group 6 (exact 2), maybe (sequence [literal ".", atLeast 0 (digits '0' '9')]),
      maybe (sequence [atLeast 0 (.ofChars [' ', '\t']),
        choice [literal "Z", sequence [.group 7 (.one (.ofChars ['-', '+'])), .group 8 oneOrTwo,
          maybe (sequence [literal ":", .group 9 (exact 2)])]]])])]

/-- The form of moments without a tag: a date alone has two digits for month and day. -/
def timestampForm : Pattern :=
  choice [
    sequence [exact 4, literal "-", exact 2, literal "-", exact 2],
    sequence [exact 4, literal "-", oneOrTwo, literal "-", oneOrTwo, betweenDateAndTime, oneOrTwo,
      literal ":", exact 2, literal ":", exact 2,
      maybe (sequence [literal ".", atLeast 0 (digits '0' '9')]),
      maybe (sequence [atLeast 0 (.ofChars [' ', '\t']),
        choice [literal "Z", sequence [.one (.ofChars ['-', '+']), oneOrTwo,
          maybe (sequence [literal ":", exact 2])]]])]]

/-- The match of a pattern that takes up a whole text; a newline may follow at the end. -/
def wholeMatch? (pattern : Pattern) (text : Array Char) : Option Hit :=
  matchFrom text (.seq pattern (.anchor .finalEnd)) done 0 []

/-- The forms of plain scalars, in the order in which they are tried. -/
def forms : List (Tag × Pattern) := [
  (bool, boolForm), (float, floatForm), (int, intForm), (merge, literal "<<"),
  (null, choice [literal "~", words ["null", "Null", "NULL"], .empty]),
  (timestamp, timestampForm), (value, literal "=")]

/-- The tag of a plain scalar by its form. -/
def ofForm (text : List Char) : Tag :=
  let chars := text.toArray
  match forms.find? fun (_, form) => (wholeMatch? form chars).isSome with
  | some (tag, _) => tag
  | none => Tag.text

end Tag

end RepoAudit.Yaml
