/-!
# Text

Operations on text counted in characters. Text that is scanned is a list of characters; text that is
only stored or shown is a `String`.
-/

namespace RepoAudit.Text

/-- True of white space: the ASCII blanks and separators, the next-line character, and the space and
line separators of every script. -/
def isBlank (c : Char) : Bool :=
  let n := c.toNat
  (9 ≤ n && n ≤ 13) || (28 ≤ n && n ≤ 32) || n == 133 || n == 160 || n == 5760 ||
    (8192 ≤ n && n ≤ 8202) || n == 8232 || n == 8233 || n == 8239 || n == 8287 || n == 12288

/-- Removes the characters of a class from the end. -/
def dropEndWhile (p : Char → Bool) (s : List Char) : List Char :=
  (s.reverse.dropWhile p).reverse

/-- Removes white space from both ends. -/
def stripChars (s : List Char) : List Char := dropEndWhile isBlank (s.dropWhile isBlank)

/-- Removes white space from both ends. -/
def strip (s : String) : String := String.ofList (stripChars s.toList)

/-- Removes white space from the end. -/
def stripEnd (s : String) : String := String.ofList (dropEndWhile isBlank s.toList)

/-- Removes every `c` from the end. -/
def dropEndChar (c : Char) (s : String) : String := String.ofList (dropEndWhile (· == c) s.toList)

/-- True of text that is empty or all white space. -/
def isBlankText (s : String) : Bool := s.toList.all isBlank

/-- Puts a character in front of the first piece, or starts a new piece at a separator. -/
def pushPiece (separator c : Char) : List (List Char) → List (List Char)
  | [] => [[c]]
  | piece :: pieces => if c = separator then [] :: piece :: pieces else (c :: piece) :: pieces

/-- The pieces between the separators: one more than there are separators. -/
def splitOn (separator : Char) (s : List Char) : List (List Char) :=
  s.foldr (pushPiece separator) [[]]

/-- The lines of a text, which are the pieces between its newlines. -/
def lines (s : List Char) : List (List Char) := splitOn '\n' s

/-- The pieces with the separator between them. -/
def joinWith (separator : List Char) : List (List Char) → List Char
  | [] => []
  | [piece] => piece
  | piece :: rest => piece ++ separator ++ joinWith separator rest

/-- The lines with newlines between them. -/
def unlines (pieces : List (List Char)) : List Char := joinWith ['\n'] pieces

/-- The runs of characters that are not white space. -/
def words (s : List Char) : List (List Char) :=
  let rec go : List Char → List Char → List (List Char)
    | [], word => if word.isEmpty then [] else [word.reverse]
    | c :: rest, word =>
      if isBlank c then (if word.isEmpty then go rest [] else word.reverse :: go rest [])
      else go rest (c :: word)
  go s []

/-- The text with each run of white space made one space, and none at the ends. -/
def collapse (s : String) : String := " ".intercalate ((words s.toList).map String.ofList)

/-- True when `needle` stands somewhere in the text. -/
def occursIn (needle : List Char) : List Char → Bool
  | [] => needle.isEmpty
  | c :: rest => needle.isPrefixOf (c :: rest) || occursIn needle rest

/-- The index that a bound stands for in a sequence of `length` items: a negative bound counts from
the end, and a bound outside the sequence is moved to its nearer end. -/
def boundIndex (length : Nat) (bound : Int) : Nat :=
  if bound < 0 then ((length : Int) + bound).toNat else min bound.toNat length

/-- The items before a bound. -/
def takeTo {α : Type} (bound : Int) (items : List α) : List α :=
  items.take (boundIndex items.length bound)

/-- The items from a bound on. -/
def dropTo {α : Type} (bound : Int) (items : List α) : List α :=
  items.drop (boundIndex items.length bound)

/-- The items between two bounds. -/
def between {α : Type} (start stop : Int) (items : List α) : List α :=
  (items.take (boundIndex items.length stop)).drop (boundIndex items.length start)

/-- The names in order of their characters, with the separator between them. -/
def joinSorted (names : List String) : String :=
  ", ".intercalate (names.mergeSort fun a b => decide (a ≤ b))

/-- A natural number with zeros before it, up to a width. -/
def padded (width n : Nat) : String :=
  let digits := toString n
  String.ofList (List.replicate (width - digits.length) '0') ++ digits

end RepoAudit.Text
