import RepoAudit.Pattern.Class

/-!
# Patterns

A pattern describes pieces of text. Matching goes through the alternatives in order and takes the first
that lets the rest of the pattern match: `Pattern.matchFrom` is given what has to follow, as a function
of the position reached. The main definitions are `Pattern.firstFrom?`, the first place where a pattern
matches, and `Pattern.occurrences`, all places from left to right without overlap.

A loop ends because each further round has to reach a later position; a round that does not move on
is the last one.
-/

namespace RepoAudit

namespace Pattern

/-- How a repetition chooses the number of its rounds: as many as possible, as few as possible, or as
many as possible without ever giving one back. -/
inductive Mode where
  | greedy
  | lazy
  | possessive
  deriving DecidableEq, Repr

/-- Conditions on a position that take up no text. -/
inductive Anchor where
  | textStart
  | lineStart
  | textEnd
  | lineEnd
  /-- The end of the text, or the newline that ends it. -/
  | finalEnd
  | wordEdge (ascii negated : Bool)
  deriving DecidableEq, Repr

end Pattern

open Pattern in
/-- A pattern. -/
inductive Pattern where
  /-- The empty text. -/
  | empty
  /-- One character of a class. -/
  | one (cls : CharClass)
  /-- A run of characters of a class. -/
  | run (cls : CharClass) (least : Nat) (most : Option Nat) (mode : Mode)
  /-- One pattern after the other. -/
  | seq (first second : Pattern)
  /-- The first pattern or else the second. -/
  | alt (first second : Pattern)
  /-- Rounds of a pattern. -/
  | loop (body : Pattern) (least : Nat) (most : Option Nat) (mode : Mode)
  /-- A pattern whose text is remembered under a number. -/
  | group (number : Nat) (body : Pattern)
  /-- The text that is remembered under a number. -/
  | again (number : Nat) (ignoreCase : Bool)
  /-- A condition on the position. -/
  | anchor (a : Anchor)
  /-- The text ahead matches or, negated, does not. -/
  | ahead (negated : Bool) (body : Pattern)
  /-- The `width` characters before the position match or, negated, do not. -/
  | behind (negated : Bool) (width : Nat) (body : Pattern)
  /-- The first way in which a pattern matches, and no other. -/
  | atomic (body : Pattern)
  /-- One of two patterns, chosen by whether a group is remembered. -/
  | given (number : Nat) (present absent : Pattern)
  deriving Repr

namespace Pattern

/-- The remembered groups: number, start and stop, the latest first. -/
abbrev Captures := List (Nat × Nat × Nat)

/-- Where a match ends, with what it remembers. -/
structure Hit where
  stop : Nat
  captures : Captures
  deriving DecidableEq, Repr

/-- What has to match after a position. -/
abbrev Next := Nat → Captures → Option Hit

/-- Nothing more has to match. -/
def done : Next := fun i captures => some ⟨i, captures⟩

/-- True when the character at the position is of the class. -/
def classAt (text : Array Char) (cls : CharClass) (i : Nat) : Bool :=
  match text[i]? with
  | some c => cls.contains c
  | none => false

/-- The end of the run of characters of a class that starts at `i` and has at most `limit` of them. -/
def runStop (text : Array Char) (cls : CharClass) : Nat → Nat → Nat
  | 0, i => i
  | limit + 1, i => if classAt text cls i then runStop text cls limit (i + 1) else i

/-- Tries the ends `start + extra` down to `start`. -/
def fromLongest (next : Next) (start : Nat) (captures : Captures) : Nat → Option Hit
  | 0 => next start captures
  | extra + 1 =>
    match next (start + (extra + 1)) captures with
    | some hit => some hit
    | none => fromLongest next start captures extra

/-- Tries the ends `start` up to `start + extra`. -/
def fromShortest (next : Next) (captures : Captures) : Nat → Nat → Option Hit
  | 0, start => next start captures
  | extra + 1, start =>
    match next start captures with
    | some hit => some hit
    | none => fromShortest next captures extra (start + 1)

/-- A run of at least `least` and at most `most` characters of a class. -/
def matchRun (text : Array Char) (cls : CharClass) (least : Nat) (most : Option Nat) (mode : Mode)
    (next : Next) (i : Nat) (captures : Captures) : Option Hit :=
  let limit := match most with
    | some most => min most (text.size - i)
    | none => text.size - i
  let stop := runStop text cls limit i
  if stop < i + least then none
  else match mode with
    | .greedy => fromLongest next (i + least) captures (stop - (i + least))
    | .lazy => fromShortest next captures (stop - (i + least)) (i + least)
    | .possessive => next stop captures

/-- Further rounds, as many as possible. -/
def greedyLoop (body : Next → Next) (size : Nat) (next : Next) (left : Option Nat) (i : Nat)
    (captures : Captures) : Option Hit :=
  if left = some 0 then next i captures
  else
    match body (fun j inner =>
        if _h : i < j ∧ j ≤ size then greedyLoop body size next (left.map (· - 1)) j inner
        else next j inner) i captures with
    | some hit => some hit
    | none => next i captures
termination_by size - i

/-- Further rounds, as few as possible. -/
def lazyLoop (body : Next → Next) (size : Nat) (next : Next) (left : Option Nat) (i : Nat)
    (captures : Captures) : Option Hit :=
  match next i captures with
  | some hit => some hit
  | none =>
    if left = some 0 then none
    else
      body (fun j inner =>
        if _h : i < j ∧ j ≤ size then lazyLoop body size next (left.map (· - 1)) j inner
        else next j inner) i captures
termination_by size - i

/-- Rounds that have to be there. -/
def rounds (body : Next → Next) (next : Next) : Nat → Next
  | 0 => next
  | n + 1 => body (rounds body next n)

/-- A matcher held to the first way in which it matches. -/
def firstWay (body : Next → Next) : Next → Next := fun next i captures =>
  match body done i captures with
  | some hit => next hit.stop hit.captures
  | none => none

/-- Rounds of a matcher. -/
def matchLoop (body : Next → Next) (size least : Nat) (most : Option Nat) (mode : Mode) (next : Next) :
    Next :=
  let extra := most.map (· - least)
  match mode with
  | .greedy => rounds body (greedyLoop body size next extra) least
  | .lazy => rounds body (lazyLoop body size next extra) least
  | .possessive =>
    rounds (firstWay body) (firstWay (fun next => greedyLoop (firstWay body) size next extra) next)
      least

/-- True when the character at the position is a word character. -/
def wordAt (text : Array Char) (ascii : Bool) (i : Nat) : Bool :=
  classAt text ⟨[.kind .word false ascii], false⟩ i

/-- True when the condition holds at a position. No text has a word edge, nor its opposite, when it is
empty. -/
def Anchor.holds (text : Array Char) (i : Nat) : Anchor → Bool
  | .textStart => i == 0
  | .lineStart => i == 0 || text[i - 1]? == some '\n'
  | .textEnd => i == text.size
  | .lineEnd => i == text.size || text[i]? == some '\n'
  | .finalEnd => i == text.size || (i + 1 == text.size && text[i]? == some '\n')
  | .wordEdge ascii negated =>
    text.size != 0 &&
      ((0 < i && wordAt text ascii (i - 1)) != wordAt text ascii i) != negated

/-- The text of a group. -/
def capture? (captures : Captures) (number : Nat) : Option (Nat × Nat) := captures.lookup number

/-- True when the `count` characters from `i` are those from `start`. -/
def sameFrom (text : Array Char) (ignoreCase : Bool) (start i : Nat) : Nat → Bool
  | 0 => true
  | count + 1 =>
    (match text[start]?, text[i]? with
      | some a, some b => a == b || (ignoreCase && Text.lowerChar a == Text.lowerChar b)
      | _, _ => false) && sameFrom text ignoreCase (start + 1) (i + 1) count

/-- Matches a pattern at a position and then what has to follow. -/
def matchFrom (text : Array Char) : Pattern → Next → Next
  | .empty, next => next
  | .one cls, next => fun i captures => if classAt text cls i then next (i + 1) captures else none
  | .run cls least most mode, next => matchRun text cls least most mode next
  | .seq first second, next => matchFrom text first (matchFrom text second next)
  | .alt first second, next => fun i captures =>
    match matchFrom text first next i captures with
    | some hit => some hit
    | none => matchFrom text second next i captures
  | .loop body least most mode, next =>
    matchLoop (matchFrom text body) text.size least most mode next
  | .group number body, next => fun i captures =>
    matchFrom text body (fun j inner => next j ((number, i, j) :: inner)) i captures
  | .again number ignoreCase, next => fun i captures =>
    match capture? captures number with
    | none => none
    | some (start, stop) =>
      if sameFrom text ignoreCase start i (stop - start) then next (i + (stop - start)) captures
      else none
  | .anchor a, next => fun i captures => if a.holds text i then next i captures else none
  | .ahead negated body, next => fun i captures =>
    match matchFrom text body done i captures with
    | some hit => if negated then none else next i hit.captures
    | none => if negated then next i captures else none
  | .behind negated width body, next => fun i captures =>
    let hit? := if width ≤ i then matchFrom text body done (i - width) captures else none
    match hit? with
    | some hit => if negated then none else next i hit.captures
    | none => if negated then next i captures else none
  | .atomic body, next => firstWay (matchFrom text body) next
  | .given number present absent, next => fun i captures =>
    if (capture? captures number).isSome then matchFrom text present next i captures
    else matchFrom text absent next i captures

/-- A piece of a text, from `start` up to but not including `stop`. -/
structure Span where
  start : Nat
  stop : Nat
  deriving DecidableEq, Repr

/-- The characters of a piece of a text. -/
def Span.slice (span : Span) (text : Array Char) : List Char := (text.extract span.start span.stop).toList

/-- Where a match that starts at `i` ends. -/
def stopAt? (pattern : Pattern) (text : Array Char) (i : Nat) : Option Nat :=
  (matchFrom text pattern done i []).map (·.stop)

/-- The first match that starts at `i` or at one of the `steps` positions after it. -/
def firstWithin? (pattern : Pattern) (text : Array Char) : Nat → Nat → Option Span
  | 0, i => (pattern.stopAt? text i).map (⟨i, ·⟩)
  | steps + 1, i =>
    match pattern.stopAt? text i with
    | some stop => some ⟨i, stop⟩
    | none => firstWithin? pattern text steps (i + 1)

/-- The first match at or after a position. -/
def firstFrom? (pattern : Pattern) (text : Array Char) (i : Nat) : Option Span :=
  if i ≤ text.size then firstWithin? pattern text (text.size - i) i else none

/-- Nothing more has to match, but at another position than the given one. -/
def doneBeyond (start : Nat) : Next := fun i captures =>
  if i = start then none else some ⟨i, captures⟩

/-- Where a match that starts at `i` and is not empty ends. -/
def longerAt? (pattern : Pattern) (text : Array Char) (i : Nat) : Option Nat :=
  (matchFrom text pattern (doneBeyond i) i []).map (·.stop)

/-- The matches at the place of a match that was found, and where the search goes on: after an empty match
there may be a longer one at its place, and if there is none, the search goes on one character later. -/
def settle (pattern : Pattern) (text : Array Char) (span : Span) : List Span × Nat :=
  if span.start < span.stop then ([span], span.stop)
  else
    match pattern.longerAt? text span.start with
    | some stop => ([span, ⟨span.start, stop⟩], stop)
    | none => ([span], span.start + 1)

/-- The matches at or after a position, from left to right and without overlap. -/
def occurrencesFrom (pattern : Pattern) (text : Array Char) (i : Nat) : List Span :=
  match pattern.firstFrom? text i with
  | none => []
  | some span =>
    match pattern.settle text span with
    | (found, next) =>
      if _h : i < next ∧ i ≤ text.size then found ++ occurrencesFrom pattern text next else found
termination_by text.size + 1 - i

/-- All matches in a text, from left to right and without overlap. -/
def occurrences (pattern : Pattern) (text : Array Char) : List Span := occurrencesFrom pattern text 0

/-- True when the pattern matches somewhere in the text. -/
def occursIn (pattern : Pattern) (text : List Char) : Bool :=
  (pattern.firstFrom? text.toArray 0).isSome

/-! ### Building patterns -/

/-- Patterns one after the other. -/
def sequence : List Pattern → Pattern
  | [] => .empty
  | [p] => p
  | p :: rest => .seq p (sequence rest)

/-- The first of several patterns that matches. -/
def choice : List Pattern → Pattern
  | [] => .one .none
  | [p] => p
  | p :: rest => .alt p (choice rest)

/-- The given characters in order. -/
def literal (word : String) : Pattern := sequence (word.toList.map fun c => .one (.single c))

/-- The given letters in order, in any case. -/
def anyCase (word : String) : Pattern :=
  sequence (word.toList.map fun c => .one (CharClass.closed .full (.single c)))

/-- One character of a class or none. -/
def optional (cls : CharClass) : Pattern := .run cls 0 (some 1) .greedy

/-- At least `least` characters of a class. -/
def atLeast (least : Nat) (cls : CharClass) : Pattern := .run cls least none .greedy

/-- Exactly `count` characters of a class. -/
def exactly (count : Nat) (cls : CharClass) : Pattern := .run cls count (some count) .greedy

/-- A pattern or nothing. -/
def maybe (p : Pattern) : Pattern := .loop p 0 (some 1) .greedy

/-- Any amount of white space. -/
def blanks : Pattern := atLeast 0 .blank

end Pattern

end RepoAudit
