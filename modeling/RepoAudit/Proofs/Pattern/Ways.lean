import Mathlib.Data.List.Basic
import RepoAudit.Pattern.Basic

/-!
# The ways in which a pattern matches

At a position a pattern matches in ways that have an order, and they are a matter of the pattern alone: matching takes
the first of them that lets the rest match (`matchFrom_eq`). So there is a match where one of the ways goes on, and of
the ways that go on it is the first.
-/

namespace RepoAudit.Pattern

/-- Where a matcher can go on from a position, and with what is remembered. -/
abbrev Ways := Nat → Captures → List Hit

namespace Ways

/-- Takes the first way that lets the rest match. -/
def first (ways : Ways) : Next → Next := fun next i captures =>
  (ways i captures).findSome? fun way => next way.stop way.captures

def stay : Ways := fun i captures => [⟨i, captures⟩]

def andThen (ways more : Ways) : Ways := fun i captures =>
  (ways i captures).flatMap fun way => more way.stop way.captures

/-- The first way and no other. -/
def only (ways : Ways) : Ways := fun i captures => (ways i captures).take 1

/-- The greatest length of a run. -/
def runLimit (size : Nat) (most : Option Nat) (i : Nat) : Nat := most.elim (size - i) (min · (size - i))

/-- The ends between two positions, in the order in which they are tried. -/
def ends (mode : Mode) (start stop : Nat) (captures : Captures) : List Hit :=
  if stop < start then []
  else match mode with
    | .greedy => (List.range' start (stop - start + 1)).reverse.map (⟨·, captures⟩)
    | .lazy => (List.range' start (stop - start + 1)).map (⟨·, captures⟩)
    | .possessive => [⟨stop, captures⟩]

def ofRun (text : Array Char) (cls : CharClass) (least : Nat) (most : Option Nat) (mode : Mode) : Ways :=
  fun i captures => ends mode (i + least) (runStop text cls (runLimit text.size most i) i) captures

def moreGreedy (body : Ways) (size : Nat) (left : Option Nat) (i : Nat) (captures : Captures) : List Hit :=
  if left = some 0 then [⟨i, captures⟩]
  else
    ((body i captures).flatMap fun way =>
      if _h : i < way.stop ∧ way.stop ≤ size then moreGreedy body size (left.map (· - 1)) way.stop way.captures
      else [way]) ++ [⟨i, captures⟩]
termination_by size - i

def moreLazy (body : Ways) (size : Nat) (left : Option Nat) (i : Nat) (captures : Captures) : List Hit :=
  ⟨i, captures⟩ ::
    if left = some 0 then []
    else
      (body i captures).flatMap fun way =>
        if _h : i < way.stop ∧ way.stop ≤ size then moreLazy body size (left.map (· - 1)) way.stop way.captures
        else [way]
termination_by size - i

def repeated (body : Ways) : Nat → Ways
  | 0 => stay
  | n + 1 => body.andThen (repeated body n)

def ofLoop (body : Ways) (size least : Nat) (most : Option Nat) (mode : Mode) : Ways :=
  let extra := most.map (· - least)
  match mode with
  | .greedy => (repeated body least).andThen (moreGreedy body size extra)
  | .lazy => (repeated body least).andThen (moreLazy body size extra)
  | .possessive => (repeated body.only least).andThen (only (moreGreedy body.only size extra))

/-- A condition on what is ahead or behind: what its first way remembers is kept. -/
def given (negated : Bool) (found : List Hit) : Ways := fun i captures =>
  match found.head? with
  | some way => if negated then [] else [⟨i, way.captures⟩]
  | none => if negated then [⟨i, captures⟩] else []

end Ways

/-- The ways in which a pattern matches at a position. -/
def ways (text : Array Char) : Pattern → Ways
  | .empty => .stay
  | .one cls => fun i captures => if classAt text cls i then [⟨i + 1, captures⟩] else []
  | .run cls least most mode => .ofRun text cls least most mode
  | .seq first second => (ways text first).andThen (ways text second)
  | .alt first second => fun i captures => ways text first i captures ++ ways text second i captures
  | .loop body least most mode => (ways text body).ofLoop text.size least most mode
  | .group number body => fun i captures =>
    (ways text body i captures).map fun way => ⟨way.stop, (number, i, way.stop) :: way.captures⟩
  | .again number ignoreCase => fun i captures =>
    match capture? captures number with
    | none => []
    | some (start, stop) =>
      if sameFrom text ignoreCase start i (stop - start) then [⟨i + (stop - start), captures⟩] else []
  | .anchor a => fun i captures => if a.holds text i then [⟨i, captures⟩] else []
  | .ahead negated body => fun i captures => Ways.given negated (ways text body i captures) i captures
  | .behind negated width body => fun i captures =>
    Ways.given negated (if width ≤ i then ways text body (i - width) captures else []) i captures
  | .atomic body => (ways text body).only
  | .given number present absent => fun i captures =>
    if (capture? captures number).isSome then ways text present i captures else ways text absent i captures

/-! ### Parts of a pattern -/

namespace Ways

variable {body more : Ways} {text : Array Char} {size : Nat} {next : Next} {i : Nat} {captures : Captures}

lemma first_stay : stay.first next = next := by
  funext i captures
  exact List.findSome?_singleton

lemma findSome?_flatMap {α β γ : Type} (items : List α) (f : α → List β) (g : β → Option γ) :
    (items.flatMap f).findSome? g = items.findSome? fun item => (f item).findSome? g := by
  induction items with
  | nil => rfl
  | cons item items ih =>
    rw [List.flatMap_cons, List.findSome?_append, ih, List.findSome?_cons]
    cases (f item).findSome? g <;> rfl

lemma first_andThen : (body.andThen more).first next = body.first (more.first next) := by
  funext i captures
  exact findSome?_flatMap _ _ _

lemma first_done : body.first done i captures = (body i captures).head? := by
  rw [first]
  cases body i captures <;> rfl

lemma firstWay_first : firstWay body.first = body.only.first := by
  funext next i captures
  rw [firstWay, first_done, first, only]
  cases body i captures with
  | nil => rfl
  | cons way ways => simp

lemma rounds_first (n : Nat) : rounds body.first next n = (repeated body n).first next := by
  induction n with
  | zero => rw [rounds, repeated, first_stay]
  | succ n ih => rw [rounds, repeated, first_andThen, ih]

lemma fromLongest_first (start extra : Nat) :
    fromLongest next start captures extra =
      ((List.range' start (extra + 1)).reverse.map (Hit.mk · captures)).findSome?
        fun way => next way.stop way.captures := by
  induction extra with
  | zero => simp [fromLongest]
  | succ extra ih =>
    rw [fromLongest, List.range'_1_concat, List.reverse_append, List.map_append, List.findSome?_append, ← ih]
    cases is : next (start + (extra + 1)) captures <;> simp [is]

lemma fromShortest_first (start extra : Nat) :
    fromShortest next captures extra start =
      ((List.range' start (extra + 1)).map (Hit.mk · captures)).findSome? fun way => next way.stop way.captures := by
  induction extra generalizing start with
  | zero => simp [fromShortest]
  | succ extra ih =>
    rw [fromShortest, List.range'_succ, List.map_cons, List.findSome?_cons, ← ih]
    cases next start captures <;> rfl

lemma ends_first (mode : Mode) (start stop : Nat) :
    (if stop < start then none
      else match mode with
        | .greedy => fromLongest next start captures (stop - start)
        | .lazy => fromShortest next captures (stop - start) start
        | .possessive => next stop captures) =
      (ends mode start stop captures).findSome? fun way => next way.stop way.captures := by
  unfold ends
  split_ifs with short
  · rfl
  · cases mode with
    | greedy => exact fromLongest_first _ _
    | lazy => exact fromShortest_first _ _
    | possessive => exact List.findSome?_singleton.symm

lemma matchRun_first (cls : CharClass) (least : Nat) (most : Option Nat) (mode : Mode) :
    matchRun text cls least most mode next = (ofRun text cls least most mode).first next := by
  funext i captures
  cases most with
  | none => exact ends_first mode (i + least) _
  | some most => exact ends_first mode (i + least) _

/-- A round that moves on is followed by further rounds, and another by the rest. -/
lemma first_round {rounds : Next} {further : Ways}
    (leads : ∀ j inner, i < j ∧ j ≤ size → rounds j inner = further.first next j inner) :
    body.first (fun j inner => if _h : i < j ∧ j ≤ size then rounds j inner else next j inner) i captures =
      ((body i captures).flatMap fun way =>
        if _h : i < way.stop ∧ way.stop ≤ size then further way.stop way.captures else [way]).findSome?
          fun way => next way.stop way.captures := by
  rw [findSome?_flatMap, first]
  refine congrArg (List.findSome? · _) (funext fun way => ?_)
  split_ifs with moves
  · exact leads _ _ moves
  · exact List.findSome?_singleton.symm

lemma greedyLoop_first (left : Option Nat) (i : Nat) (captures : Captures) :
    greedyLoop body.first size next left i captures = first (moreGreedy body size left) next i captures := by
  induction rest : size - i using Nat.strongRecOn generalizing i captures left with
  | ind rest ih =>
    show _ = (moreGreedy body size left i captures).findSome? _
    rw [greedyLoop, moreGreedy]
    split_ifs with none
    · exact List.findSome?_singleton.symm
    · rw [List.findSome?_append, List.findSome?_singleton,
        first_round fun j inner moves => ih (size - j) (by omega) (left.map (· - 1)) j inner rfl]
      generalize List.findSome? _ _ = found
      cases found <;> rfl

lemma lazyLoop_first (left : Option Nat) (i : Nat) (captures : Captures) :
    lazyLoop body.first size next left i captures = first (moreLazy body size left) next i captures := by
  induction rest : size - i using Nat.strongRecOn generalizing i captures left with
  | ind rest ih =>
    show _ = (moreLazy body size left i captures).findSome? _
    rw [lazyLoop, moreLazy, List.findSome?_cons]
    cases next i captures with
    | some hit => rfl
    | none =>
      split_ifs with none
      · rfl
      · exact first_round fun j inner moves => ih (size - j) (by omega) (left.map (· - 1)) j inner rfl

lemma matchLoop_first (least : Nat) (most : Option Nat) (mode : Mode) :
    matchLoop body.first size least most mode next = (ofLoop body size least most mode).first next := by
  cases mode with
  | greedy =>
    simp only [matchLoop, ofLoop]
    rw [first_andThen, ← rounds_first]
    exact congrArg (rounds body.first · least) (funext fun i => funext fun captures => greedyLoop_first _ i captures)
  | lazy =>
    simp only [matchLoop, ofLoop]
    rw [first_andThen, ← rounds_first]
    exact congrArg (rounds body.first · least) (funext fun i => funext fun captures => lazyLoop_first _ i captures)
  | possessive =>
    have loops : (fun next => greedyLoop body.only.first size next (most.map (· - least))) =
        first (moreGreedy body.only size (most.map (· - least))) := by
      funext next i captures
      exact greedyLoop_first _ i captures
    simp only [matchLoop, ofLoop]
    rw [first_andThen, ← rounds_first, firstWay_first, loops, firstWay_first]

lemma first_given (negated : Bool) (found : List Hit) :
    (given negated found).first next i captures =
      match found.head? with
      | some hit => if negated then none else next i hit.captures
      | none => if negated then next i captures else none := by
  rw [first, given]
  cases found with
  | nil => cases negated <;> simp
  | cons way ways => cases negated <;> simp

end Ways

/-- Matching takes the first way that lets the rest match. -/
theorem matchFrom_eq (text : Array Char) (pattern : Pattern) (next : Next) :
    matchFrom text pattern next = (ways text pattern).first next := by
  induction pattern generalizing next with
  | empty => exact Ways.first_stay.symm
  | one cls =>
    funext i captures
    simp only [matchFrom, ways, Ways.first]
    split_ifs
    · exact List.findSome?_singleton.symm
    · rfl
  | run cls least most mode => exact Ways.matchRun_first cls least most mode
  | seq first second ih ih' => rw [matchFrom, ih, ih', ways, Ways.first_andThen]
  | alt first second ih ih' =>
    funext i captures
    simp only [matchFrom, ih, ih', Ways.first, ways, List.findSome?_append]
    generalize List.findSome? _ _ = found
    cases found <;> rfl
  | loop body least most mode ih => rw [matchFrom, funext ih, ways, Ways.matchLoop_first]
  | group number body ih =>
    funext i captures
    simp only [matchFrom, ih, Ways.first, ways, List.findSome?_map]
    rfl
  | again number ignoreCase =>
    funext i captures
    simp only [matchFrom, Ways.first, ways]
    cases capture? captures number with
    | none => rfl
    | some span =>
      simp only
      split_ifs
      · exact List.findSome?_singleton.symm
      · rfl
  | anchor a =>
    funext i captures
    simp only [matchFrom, ways, Ways.first]
    split_ifs
    · exact List.findSome?_singleton.symm
    · rfl
  | ahead negated body ih =>
    funext i captures
    have given := @Ways.first_given next i captures negated (ways text body i captures)
    simp only [matchFrom, ih, Ways.first_done]
    exact given.symm
  | behind negated width body ih =>
    funext i captures
    have given := @Ways.first_given next i captures negated
      (if width ≤ i then ways text body (i - width) captures else [])
    have found : (if width ≤ i then (ways text body (i - width) captures).head? else none) =
        (if width ≤ i then ways text body (i - width) captures else []).head? := by split_ifs <;> rfl
    simp only [matchFrom, ih, Ways.first_done, found]
    exact given.symm
  | atomic body ih => rw [matchFrom, funext ih, Ways.firstWay_first, ways]
  | given number present absent ih ih' =>
    funext i captures
    simp only [matchFrom, ih, ih', Ways.first, ways]
    split_ifs <;> rfl

end RepoAudit.Pattern
