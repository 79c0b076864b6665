import Mathlib.Tactic.Common
import RepoAudit.Pattern.Basic

/-!
# Occurrences

The places where a pattern matches are pieces of the text, from left to right and without overlap. The reason
is that matching only ever goes on at a position that is not before its own and not past the end of the text
(`Advances`), whatever the pattern.
-/

namespace RepoAudit.Pattern

/-- A matcher that goes on at positions between its own and the end. -/
def Advances (size : Nat) (matcher : Next → Next) : Prop :=
  ∀ next i captures hit, i ≤ size → matcher next i captures = some hit →
    ∃ j inner, i ≤ j ∧ j ≤ size ∧ next j inner = some hit

section Matchers

variable {size : Nat} {body first second : Next → Next} {text : Array Char}

lemma Advances.refl : Advances size fun next => next :=
  fun _ i captures _ inside found => ⟨i, captures, Nat.le_refl i, inside, found⟩

lemma Advances.comp (one : Advances size first) (other : Advances size second) :
    Advances size fun next => first (second next) := by
  intro next i captures hit inside found
  obtain ⟨j, inner, further, inside', found'⟩ := one _ i captures hit inside found
  obtain ⟨k, last, further', inside'', found''⟩ := other _ j inner hit inside' found'
  exact ⟨k, last, Nat.le_trans further further', inside'', found''⟩

lemma advances_rounds (advances : Advances size body) (n : Nat) :
    Advances size fun next => rounds body next n := by
  induction n with
  | zero => exact .refl
  | succ n ih => exact advances.comp ih

lemma advances_firstWay (advances : Advances size body) : Advances size (firstWay body) := by
  intro next i captures hit inside found
  unfold firstWay at found
  split at found
  · next way first =>
    obtain ⟨j, inner, further, inside', stops⟩ := advances done i captures way inside first
    obtain rfl : Hit.mk j inner = way := Option.some.inj stops
    exact ⟨j, inner, further, inside', found⟩
  · cases found

/-- Further rounds, as many as possible: each further round starts at a later position. -/
lemma advances_greedyLoop (advances : Advances size body) (left : Option Nat) :
    Advances size fun next => greedyLoop body size next left := by
  intro next i captures hit inside (found : greedyLoop body size next left i captures = some hit)
  induction rest : size - i using Nat.strongRecOn generalizing i captures left with
  | ind rest ih =>
    rw [greedyLoop] at found
    split at found
    · exact ⟨i, captures, Nat.le_refl i, inside, found⟩
    split at found
    · next way round =>
      obtain ⟨j, inner, further, inside', goes⟩ := advances _ i captures way inside round
      obtain rfl : way = hit := Option.some.inj found
      split at goes
      · next later =>
        obtain ⟨k, last, further', inside'', goes'⟩ := ih (size - j) (by omega) _ j inner inside' goes rfl
        exact ⟨k, last, Nat.le_trans further further', inside'', goes'⟩
      · exact ⟨j, inner, further, inside', goes⟩
    · exact ⟨i, captures, Nat.le_refl i, inside, found⟩

/-- Further rounds, as few as possible. -/
lemma advances_lazyLoop (advances : Advances size body) (left : Option Nat) :
    Advances size fun next => lazyLoop body size next left := by
  intro next i captures hit inside (found : lazyLoop body size next left i captures = some hit)
  induction rest : size - i using Nat.strongRecOn generalizing i captures left with
  | ind rest ih =>
    rw [lazyLoop] at found
    split at found
    · next way ends =>
      exact ⟨i, captures, Nat.le_refl i, inside, ends.trans found⟩
    split at found
    · cases found
    obtain ⟨j, inner, further, inside', goes⟩ := advances _ i captures hit inside found
    split at goes
    · next later =>
      obtain ⟨k, last, further', inside'', goes'⟩ := ih (size - j) (by omega) _ j inner inside' goes rfl
      exact ⟨k, last, Nat.le_trans further further', inside'', goes'⟩
    · exact ⟨j, inner, further, inside', goes⟩

lemma advances_matchLoop (advances : Advances size body) (least : Nat) (most : Option Nat)
    (mode : Mode) : Advances size (matchLoop body size least most mode) := by
  cases mode with
  | greedy => exact (advances_rounds advances least).comp (advances_greedyLoop advances _)
  | lazy => exact (advances_rounds advances least).comp (advances_lazyLoop advances _)
  | possessive =>
    have single := advances_firstWay advances
    exact (advances_rounds single least).comp (advances_firstWay (advances_greedyLoop single _))

lemma fromLongest_inv {next : Next} {start : Nat} {captures : Captures} {extra : Nat} {hit : Hit}
    (found : fromLongest next start captures extra = some hit) :
    ∃ more ≤ extra, next (start + more) captures = some hit := by
  induction extra with
  | zero => exact ⟨0, Nat.le_refl 0, found⟩
  | succ extra ih =>
    unfold fromLongest at found
    split at found
    · next way longest => exact ⟨extra + 1, Nat.le_refl _, longest.trans found⟩
    · obtain ⟨more, fewer, found'⟩ := ih found
      exact ⟨more, Nat.le_succ_of_le fewer, found'⟩

lemma fromShortest_inv {next : Next} {captures : Captures} {extra start : Nat} {hit : Hit}
    (found : fromShortest next captures extra start = some hit) :
    ∃ more ≤ extra, next (start + more) captures = some hit := by
  induction extra generalizing start with
  | zero => exact ⟨0, Nat.le_refl 0, found⟩
  | succ extra ih =>
    unfold fromShortest at found
    split at found
    · next way shortest => exact ⟨0, Nat.zero_le _, shortest.trans found⟩
    · obtain ⟨more, fewer, found'⟩ := ih found
      refine ⟨more + 1, Nat.succ_le_succ fewer, ?_⟩
      rwa [Nat.add_right_comm] at found'

lemma runStop_le (cls : CharClass) (limit i : Nat) : runStop text cls limit i ≤ i + limit := by
  induction limit generalizing i with
  | zero => exact Nat.le_refl i
  | succ limit ih =>
    unfold runStop
    split
    · have := ih (i + 1)
      omega
    · omega

/-- The end of a run is chosen between its least length and where the class stops. -/
lemma runEnds_inv {next : Next} {start stop : Nat} {captures : Captures} {mode : Mode} {hit : Hit}
    (enough : start ≤ stop) (found : (match mode with
      | .greedy => fromLongest next start captures (stop - start)
      | .lazy => fromShortest next captures (stop - start) start
      | .possessive => next stop captures) = some hit) :
    ∃ j, start ≤ j ∧ j ≤ stop ∧ next j captures = some hit := by
  -- All three modes only choose among the ends, so one statement serves the three of them.
  cases mode with
  | greedy =>
    obtain ⟨more, fewer, found'⟩ := fromLongest_inv found
    exact ⟨_, by omega, by omega, found'⟩
  | lazy =>
    obtain ⟨more, fewer, found'⟩ := fromShortest_inv found
    exact ⟨_, by omega, by omega, found'⟩
  | possessive => exact ⟨_, by omega, Nat.le_refl _, found⟩

/-- A run takes up its least length. -/
lemma matchRun_inv {cls : CharClass} {least : Nat} {most : Option Nat} {mode : Mode} {next : Next} {i : Nat}
    {captures : Captures} {hit : Hit} (inside : i ≤ text.size)
    (found : matchRun text cls least most mode next i captures = some hit) :
    ∃ j, i + least ≤ j ∧ j ≤ text.size ∧ next j captures = some hit := by
  obtain ⟨limit, short, found⟩ : ∃ limit ≤ text.size - i,
      (if runStop text cls limit i < i + least then none
        else match mode with
          | .greedy => fromLongest next (i + least) captures (runStop text cls limit i - (i + least))
          | .lazy => fromShortest next captures (runStop text cls limit i - (i + least)) (i + least)
          | .possessive => next (runStop text cls limit i) captures) = some hit := by
    cases most with
    | none => exact ⟨_, Nat.le_refl _, found⟩
    | some most => exact ⟨_, Nat.min_le_right _ _, found⟩
  have stops : runStop text cls limit i ≤ i + limit := runStop_le cls limit i
  split at found
  · cases found
  · obtain ⟨j, further, before, found'⟩ := runEnds_inv (by omega) found
    exact ⟨j, further, by omega, found'⟩

lemma advances_run (cls : CharClass) (least : Nat) (most : Option Nat) (mode : Mode) :
    Advances text.size (matchRun text cls least most mode) := by
  intro next i captures hit inside found
  obtain ⟨j, further, inside', found'⟩ := matchRun_inv inside found
  exact ⟨j, captures, by omega, inside', found'⟩

lemma lt_size_of_classAt {cls : CharClass} {i : Nat} (holds : classAt text cls i = true) :
    i < text.size := by
  unfold classAt at holds
  split at holds
  · next c here => exact (Array.getElem?_eq_some_iff.mp here).1
  · cases holds

lemma le_size_of_sameFrom {ignoreCase : Bool} {start i count : Nat} (inside : i ≤ text.size)
    (same : sameFrom text ignoreCase start i count = true) : i + count ≤ text.size := by
  induction count generalizing start i with
  | zero => exact inside
  | succ count ih =>
    simp only [sameFrom, Bool.and_eq_true] at same
    have here : i < text.size := by
      obtain ⟨agrees, -⟩ := same
      split at agrees
      · next there => exact (Array.getElem?_eq_some_iff.mp there).1
      · cases agrees
    have := ih here same.2
    omega

end Matchers

/-- Every pattern goes on at positions between its own and the end of the text. -/
lemma advances_matchFrom (text : Array Char) (pattern : Pattern) :
    Advances text.size (matchFrom text pattern) := by
  -- The induction is on the pattern; what follows a part of it is any continuation.
  induction pattern with
  | empty => exact .refl
  | one cls =>
    intro next i captures hit inside found
    simp only [matchFrom] at found
    split at found
    · next holds => exact ⟨i + 1, captures, Nat.le_succ i, lt_size_of_classAt holds, found⟩
    · cases found
  | run cls least most mode => exact advances_run cls least most mode
  | seq first second one other => exact one.comp other
  | alt first second one other =>
    intro next i captures hit inside found
    simp only [matchFrom] at found
    split at found
    · next way taken => exact one next i captures hit inside (taken.trans found)
    · exact other next i captures hit inside found
  | loop body least most mode ih => exact advances_matchLoop ih least most mode
  | group number body ih =>
    intro next i captures hit inside found
    obtain ⟨j, inner, further, inside', found'⟩ := ih _ i captures hit inside found
    exact ⟨j, _, further, inside', found'⟩
  | again number ignoreCase =>
    intro next i captures hit inside found
    simp only [matchFrom] at found
    split at found
    · cases found
    split at found
    · next same => exact ⟨_, captures, Nat.le_add_right _ _, le_size_of_sameFrom inside same, found⟩
    · cases found
  | anchor a =>
    intro next i captures hit inside found
    simp only [matchFrom] at found
    split at found
    · exact ⟨i, captures, Nat.le_refl i, inside, found⟩
    · cases found
  | ahead negated body ih =>
    intro next i captures hit inside found
    simp only [matchFrom] at found
    split at found
    all_goals
      split at found
      all_goals first | exact ⟨i, _, Nat.le_refl i, inside, found⟩ | cases found
  | behind negated width body ih =>
    intro next i captures hit inside found
    simp only [matchFrom] at found
    split at found
    all_goals
      split at found
      all_goals first | exact ⟨i, _, Nat.le_refl i, inside, found⟩ | cases found
  | atomic body ih => exact advances_firstWay ih
  | given number present absent one other =>
    intro next i captures hit inside found
    simp only [matchFrom] at found
    split at found
    · exact one next i captures hit inside found
    · exact other next i captures hit inside found

/-- Pieces of a text of the size, in order and without overlap, from a position on. -/
inductive Ordered (size : Nat) : Nat → List Span → Prop
  | nil {i : Nat} : Ordered size i []
  | cons {i : Nat} {span : Span} {rest : List Span} : i ≤ span.start → span.start ≤ span.stop →
    span.stop ≤ size → Ordered size span.stop rest → Ordered size i (span :: rest)

section Ordered

variable {size i j : Nat} {spans : List Span}

lemma Ordered.weaken (ordered : Ordered size j spans) (before : i ≤ j) : Ordered size i spans := by
  cases ordered with
  | nil => exact .nil
  | cons starts stops inside rest => exact .cons (Nat.le_trans before starts) stops inside rest

lemma Ordered.filter (p : Span → Bool) (ordered : Ordered size i spans) :
    Ordered size i (spans.filter p) := by
  induction ordered with
  | nil => exact .nil
  | @cons i span rest starts stops inside _ ih =>
    rw [List.filter_cons]
    split
    · exact .cons starts stops inside ih
    · exact ih.weaken (Nat.le_trans starts stops)

end Ordered

section Places

variable {pattern : Pattern} {text : Array Char} {i : Nat}

lemma stopAt?_inv {stop : Nat} (inside : i ≤ text.size) (found : pattern.stopAt? text i = some stop) :
    i ≤ stop ∧ stop ≤ text.size := by
  obtain ⟨hit, matched, rfl⟩ := Option.map_eq_some_iff.mp found
  obtain ⟨j, inner, further, inside', stops⟩ := advances_matchFrom text pattern done i [] hit inside matched
  obtain rfl : Hit.mk j inner = hit := Option.some.inj stops
  exact ⟨further, inside'⟩

lemma firstWithin?_inv {steps : Nat} {span : Span} (inside : i + steps ≤ text.size)
    (found : pattern.firstWithin? text steps i = some span) :
    i ≤ span.start ∧ span.start ≤ span.stop ∧ span.stop ≤ text.size := by
  induction steps generalizing i with
  | zero =>
    obtain ⟨stop, stops, rfl⟩ := Option.map_eq_some_iff.mp found
    exact ⟨Nat.le_refl i, stopAt?_inv inside stops⟩
  | succ steps ih =>
    unfold firstWithin? at found
    split at found
    · next stop stops =>
      obtain rfl : Span.mk i stop = span := Option.some.inj found
      have starts : i ≤ text.size := by omega
      exact ⟨Nat.le_refl i, stopAt?_inv starts stops⟩
    · obtain ⟨starts, stops⟩ := ih (by omega) found
      exact ⟨by omega, stops⟩

lemma firstFrom?_inv {span : Span} (found : pattern.firstFrom? text i = some span) :
    i ≤ span.start ∧ span.start ≤ span.stop ∧ span.stop ≤ text.size := by
  unfold firstFrom? at found
  split at found
  · exact firstWithin?_inv (by omega) found
  · cases found

lemma longerAt?_inv {stop : Nat} (inside : i ≤ text.size) (found : pattern.longerAt? text i = some stop) :
    i < stop ∧ stop ≤ text.size := by
  obtain ⟨hit, matched, rfl⟩ := Option.map_eq_some_iff.mp found
  obtain ⟨j, inner, further, inside', stops⟩ := advances_matchFrom text pattern _ i [] hit inside matched
  unfold doneBeyond at stops
  split at stops
  · cases stops
  · next beyond =>
    obtain rfl : Hit.mk j inner = hit := Option.some.inj stops
    exact ⟨Nat.lt_of_le_of_ne further (Ne.symm beyond), inside'⟩

/-- The matches at one place, with those that follow from where the search goes on. -/
lemma settle_ordered {span : Span} {found rest : List Span} {next : Nat} (starts : i ≤ span.start)
    (stops : span.start ≤ span.stop) (inside : span.stop ≤ text.size)
    (settled : pattern.settle text span = (found, next)) (ordered : Ordered text.size next rest) :
    Ordered text.size i (found ++ rest) := by
  unfold settle at settled
  split at settled
  · cases settled
    exact .cons starts stops inside ordered
  · next empty =>
    split at settled
    · next stop longer =>
      cases settled
      obtain ⟨beyond, inside'⟩ := longerAt?_inv (Nat.le_trans stops inside) longer
      exact .cons starts stops inside (.cons (Nat.le_of_not_lt empty) (Nat.le_of_lt beyond) inside' ordered)
    · cases settled
      exact .cons starts stops inside (ordered.weaken (by omega))

lemma occurrencesFrom_ordered (pattern : Pattern) (text : Array Char) (i : Nat) :
    Ordered text.size i (pattern.occurrencesFrom text i) := by
  fun_induction occurrencesFrom pattern text i with
  | case1 => exact .nil
  | case2 i span first found next settled goesOn ih =>
    obtain ⟨starts, stops, inside⟩ := firstFrom?_inv first
    exact settle_ordered starts stops inside settled ih
  | case3 i span first found next settled =>
    obtain ⟨starts, stops, inside⟩ := firstFrom?_inv first
    have alone : Ordered text.size i (found ++ []) := settle_ordered starts stops inside settled .nil
    rwa [List.append_nil] at alone

/-- All matches are pieces of the text, in order and without overlap. -/
lemma occurrences_ordered (pattern : Pattern) (text : Array Char) :
    Ordered text.size 0 (pattern.occurrences text) :=
  occurrencesFrom_ordered pattern text 0

end Places

end RepoAudit.Pattern
