import RepoAudit.Text.Basic
import RepoAudit.Text.Case
import RepoAudit.Text.Digit
import RepoAudit.Text.Word

/-!
# Character classes

A class is a list of ranges and kinds of characters, or the characters outside of them. Case is
settled when a class is built: a class that ignores case holds every case variant of its members, so
that testing a character never looks at case.
-/

namespace RepoAudit.Pattern

/-- The kinds of characters that have a class of their own. -/
inductive Kind where
  | digit
  | word
  | blank
  deriving DecidableEq, Repr

/-- True of the characters of a kind, in ASCII alone or in every script. -/
def Kind.holds (ascii : Bool) (c : Char) : Kind → Bool
  | .digit => if ascii then c.isDigit else (Text.digitValue? c).isSome
  | .word => if ascii then c.isAlphanum || c == '_' else Text.isWord c
  | .blank => if ascii then (9 ≤ c.toNat && c.toNat ≤ 13) || c == ' ' else Text.isBlank c

/-- A part of a class: a range of scalar values, or the characters that are or are not of a kind. -/
inductive ClassItem where
  | range (first last : Nat)
  | kind (k : Kind) (negated ascii : Bool)
  deriving DecidableEq, Repr

/-- True of the characters of a part. -/
def ClassItem.holds (c : Char) : ClassItem → Bool
  | .range first last => first ≤ c.toNat && c.toNat ≤ last
  | .kind k negated ascii => k.holds ascii c != negated

/-- The characters that are in one of the parts or, negated, in none of them. -/
structure CharClass where
  items : List ClassItem
  negated : Bool := false
  deriving DecidableEq, Repr

namespace CharClass

/-- True of the characters of a class. -/
def contains (cls : CharClass) (c : Char) : Bool := cls.items.any (·.holds c) != cls.negated

/-- The class of one character. -/
def single (c : Char) : CharClass := ⟨[.range c.toNat c.toNat], false⟩

/-- The class of the given characters. -/
def ofChars (cs : List Char) : CharClass := ⟨cs.map fun c => .range c.toNat c.toNat, false⟩

/-- Every character but the given ones. -/
def notChars (cs : List Char) : CharClass := ⟨cs.map fun c => .range c.toNat c.toNat, true⟩

/-- Every character. -/
def all : CharClass := ⟨[], true⟩

/-- No character. -/
def none : CharClass := ⟨[], false⟩

/-- Every character but the newline. -/
def notNewline : CharClass := notChars ['\n']

/-- White space. -/
def blank : CharClass := ⟨[.kind .blank false false], false⟩

end CharClass

/-- Whether two forms of a letter count as the same character. -/
inductive Fold where
  /-- Every character is only itself. -/
  | exact
  /-- The letters of ASCII match without regard to case. -/
  | ascii
  /-- All letters match without regard to case. -/
  | full
  deriving DecidableEq, Repr

/-- The characters whose lower-case form is `c`. -/
def lowerSources (c : Char) : List Char :=
  let moved := Text.lowerRuns.filterMap fun run =>
    let n := (c.toNat : Int) - run.shift
    if 0 ≤ n ∧ run.covers n.toNat then some (Char.ofNat n.toNat) else none
  (c :: Char.ofNat 304 :: moved).filter (Text.lowerChar · == c)

/-- The characters that match `c` when case is ignored. -/
def caseVariants (c : Char) : List Char :=
  (Text.lowerGroup (Text.lowerChar c)).flatMap lowerSources

/-- The characters that match `c`. -/
def Fold.variants (c : Char) : Fold → List Char
  | .exact => [c]
  | .ascii => if c.isAlpha then [c.toLower, c.toUpper] else [c]
  | .full => caseVariants c

/-- Letters in pairs of an upper and a lower form, as scalar values. -/
def casedLetters : List Nat :=
  Text.lowerRuns.flatMap fun run =>
    (List.range ((run.last - run.first) / run.step + 1)).flatMap fun k =>
      let upper := run.first + k * run.step
      [upper, ((upper : Int) + run.shift).toNat]

/-- The cased letters of a range, under a rule of case. -/
def Fold.letters (first last : Nat) (fold : Fold) : List Char :=
  match fold with
  | .exact => []
  | .ascii => ((List.range 128).filter fun n => first ≤ n && n ≤ last).map Char.ofNat
  | .full => (casedLetters.filter fun n => first ≤ n && n ≤ last).map Char.ofNat

/-- A range together with the case variants of its letters. -/
def Fold.closeRange (first last : Nat) (fold : Fold) : List ClassItem :=
  .range first last ::
    ((fold.letters first last).flatMap fun c =>
      ((fold.variants c).filter fun d => !(first ≤ d.toNat && d.toNat ≤ last)).map
        fun d => .range d.toNat d.toNat)

/-- A part of a class with the case variants of its letters. -/
def Fold.close (fold : Fold) : ClassItem → List ClassItem
  | .range first last =>
    if first = last then
      if first.isValidChar then (fold.variants (Char.ofNat first)).map fun d => .range d.toNat d.toNat
      else [.range first last]
    else fold.closeRange first last
  | item => [item]

/-- A class with the case variants of its letters. -/
def CharClass.closed (fold : Fold) (cls : CharClass) : CharClass :=
  match fold with
  | .exact => cls
  | _ => { cls with items := cls.items.flatMap fold.close }

end RepoAudit.Pattern
