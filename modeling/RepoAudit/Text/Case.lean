import RepoAudit.Text.CaseTable

/-!
# Case mappings

Lower case and title case for every script. Lower case has two rules that look beyond one character:
the dotted capital I becomes two characters, and a capital sigma at the end of a word takes its final
form.
-/

namespace RepoAudit.Text

/-- The lower-case form of a single character. -/
def lowerChar (c : Char) : Char :=
  if c.toNat < 128 then c.toLower
  else if c.toNat == 304 then 'i'
  else applyRuns lowerRuns c

/-- True of a character that has a case. -/
def isCased (c : Char) : Bool := inRanges casedRanges c

/-- True of a character that case rules skip. -/
def isCaseIgnorable (c : Char) : Bool := inRanges caseIgnorableRanges c

/-- True when the first character that case rules do not skip has a case. -/
def startsCased (s : List Char) : Bool :=
  match s.dropWhile isCaseIgnorable with
  | [] => false
  | c :: _ => isCased c

/-- The lower-case form of each character, given the characters before it in reverse order. -/
def lowerFrom (before : List Char) : List Char → List Char
  | [] => []
  | c :: rest =>
    let form :=
      if c.toNat == 0x3A3 then
        (if startsCased before && !startsCased rest then [Char.ofNat 0x3C2] else [Char.ofNat 0x3C3])
      else if c.toNat == 304 then ['i', Char.ofNat 775]
      else [lowerChar c]
    form ++ lowerFrom (c :: before) rest

/-- The text in lower case. -/
def lower (s : String) : String := String.ofList (lowerFrom [] s.toList)

/-- The title-case form of a character. -/
def titleForm (c : Char) : List Char :=
  if c.toNat < 128 then [c.toUpper]
  else match titleSequences.lookup c.toNat with
    | some form => form.map Char.ofNat
    | none => [applyRuns titleRuns c]

/-- The text with its first character in title case and the others in lower case. -/
def capitalize (s : String) : String :=
  match s.toList with
  | [] => ""
  | c :: rest => String.ofList (titleForm c ++ lowerFrom [c] rest)

/-- The lower-case letters that share an upper-case letter with `c`, itself included. -/
def lowerGroup (c : Char) : List Char :=
  match lowerGroups.find? (·.contains c.toNat) with
  | some group => group.map Char.ofNat
  | none => [c]

/-- True when two characters differ only in case. -/
def sameLetter (a b : Char) : Bool :=
  a == b || lowerChar a == lowerChar b || (lowerGroup (lowerChar a)).contains (lowerChar b)

end RepoAudit.Text
