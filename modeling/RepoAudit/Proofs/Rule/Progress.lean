import RepoAudit.Proofs.Rule.Occurrence
import RepoAudit.Rule.Ruleset

/-!
# Patterns that take up text

A pattern that takes up a character whichever way it matches (`Pattern.consumes`) only ever goes on at a later position
(`Consumes`), so none of its matches is empty. All rules of the catalog have such patterns.
-/

namespace RepoAudit.Pattern

/-- True of a pattern that takes up a character whichever way it matches. -/
def consumes : Pattern → Bool
  | empty => false
  | one _ => true
  | run _ least _ _ => 0 < least
  | seq first second => first.consumes || second.consumes
  | alt first second => first.consumes && second.consumes
  | loop body least _ _ => 0 < least && body.consumes
  | group _ body => body.consumes
  | again _ _ => false
  | anchor _ => false
  | ahead _ _ => false
  | behind _ _ _ => false
  | atomic body => body.consumes
  | given _ present absent => present.consumes && absent.consumes

/-- A matcher that goes on at a later position. -/
def Consumes (size : Nat) (matcher : Next → Next) : Prop :=
  ∀ next i captures hit, i ≤ size → matcher next i captures = some hit →
    ∃ j inner, i < j ∧ j ≤ size ∧ next j inner = some hit

section Matchers

variable {size : Nat} {body first second : Next → Next} {text : Array Char}

lemma Consumes.comp (one : Consumes size first) (other : Advances size second) :
    Consumes size fun next => first (second next) := by
  intro next i captures hit inside found
  obtain ⟨j, inner, further, inside', found'⟩ := one _ i captures hit inside found
  obtain ⟨k, last, further', inside'', found''⟩ := other _ j inner hit inside' found'
  exact ⟨k, last, Nat.lt_of_lt_of_le further further', inside'', found''⟩

lemma Advances.comp_consumes (one : Advances size first) (other : Consumes size second) :
    Consumes size fun next => first (second next) := by
  intro next i captures hit inside found
  obtain ⟨j, inner, further, inside', found'⟩ := one _ i captures hit inside found
  obtain ⟨k, last, further', inside'', found''⟩ := other _ j inner hit inside' found'
  exact ⟨k, last, Nat.lt_of_le_of_lt further further', inside'', found''⟩

lemma consumes_firstWay (consumes : Consumes size body) : Consumes size (firstWay body) := by
  intro next i captures hit inside found
  unfold firstWay at found
  split at found
  · next way first =>
    obtain ⟨j, inner, further, inside', stops⟩ := consumes done i captures way inside first
    obtain rfl : Hit.mk j inner = way := Option.some.inj stops
    exact ⟨j, inner, further, inside', found⟩
  · cases found

lemma consumes_rounds (consumes : Consumes size body) (advances : Advances size body) {n : Nat} (some : 0 < n) :
    Consumes size fun next => rounds body next n := by
  cases n with
  | zero => exact absurd some (Nat.lt_irrefl 0)
  | succ n => exact consumes.comp (advances_rounds advances n)

lemma consumes_matchLoop (consumes : Consumes size body) (advances : Advances size body) {least : Nat}
    (some : 0 < least) (most : Option Nat) (mode : Mode) : Consumes size (matchLoop body size least most mode) := by
  cases mode with
  | greedy => exact (consumes_rounds consumes advances some).comp (advances_greedyLoop advances _)
  | lazy => exact (consumes_rounds consumes advances some).comp (advances_lazyLoop advances _)
  | possessive =>
    have single := advances_firstWay advances
    exact (consumes_rounds (consumes_firstWay consumes) single some).comp
      (advances_firstWay (advances_greedyLoop single _))

end Matchers

lemma consumes_matchFrom (text : Array Char) {pattern : Pattern} (takes : pattern.consumes = true) :
    Consumes text.size (matchFrom text pattern) := by
  -- Of two patterns one after the other it is enough that one takes up text, for the other one does not go back.
  induction pattern with
  | empty => cases takes
  | one cls =>
    intro next i captures hit inside found
    simp only [matchFrom] at found
    split at found
    · next holds => exact ⟨i + 1, captures, Nat.lt_succ_self i, lt_size_of_classAt holds, found⟩
    · cases found
  | run cls least most mode =>
    have some : 0 < least := by simpa [consumes] using takes
    intro next i captures hit inside found
    obtain ⟨j, further, inside', found'⟩ := matchRun_inv inside found
    exact ⟨j, captures, by omega, inside', found'⟩
  | seq first second one other =>
    rcases Bool.or_eq_true_iff.mp takes with takes | takes
    · exact (one takes).comp (advances_matchFrom text second)
    · exact (advances_matchFrom text first).comp_consumes (other takes)
  | alt first second one other =>
    obtain ⟨takes, takes'⟩ := Bool.and_eq_true_iff.mp takes
    intro next i captures hit inside found
    simp only [matchFrom] at found
    split at found
    · next way taken => exact one takes next i captures hit inside (taken.trans found)
    · exact other takes' next i captures hit inside found
  | loop body least most mode ih =>
    obtain ⟨some, takes⟩ := Bool.and_eq_true_iff.mp takes
    exact consumes_matchLoop (ih takes) (advances_matchFrom text body) (of_decide_eq_true some) most mode
  | group number body ih =>
    intro next i captures hit inside found
    obtain ⟨j, inner, further, inside', found'⟩ := ih takes _ i captures hit inside found
    exact ⟨j, _, further, inside', found'⟩
  | again => cases takes
  | anchor => cases takes
  | ahead => cases takes
  | behind => cases takes
  | atomic body ih => exact consumes_firstWay (ih takes)
  | given number present absent one other =>
    obtain ⟨takes, takes'⟩ := Bool.and_eq_true_iff.mp takes
    intro next i captures hit inside found
    simp only [matchFrom] at found
    split at found
    · exact one takes next i captures hit inside found
    · exact other takes' next i captures hit inside found

section Places

variable {pattern : Pattern} {text : Array Char} {i : Nat}

lemma lt_of_stopAt? (takes : pattern.consumes = true) {stop : Nat} (inside : i ≤ text.size)
    (found : pattern.stopAt? text i = some stop) : i < stop := by
  obtain ⟨hit, matched, rfl⟩ := Option.map_eq_some_iff.mp found
  obtain ⟨j, inner, further, -, stops⟩ := consumes_matchFrom text takes done i [] hit inside matched
  obtain rfl : Hit.mk j inner = hit := Option.some.inj stops
  exact further

lemma lt_of_firstWithin? (takes : pattern.consumes = true) {steps : Nat} {span : Span} (inside : i + steps ≤ text.size)
    (found : pattern.firstWithin? text steps i = some span) : span.start < span.stop := by
  induction steps generalizing i with
  | zero =>
    obtain ⟨stop, stops, rfl⟩ := Option.map_eq_some_iff.mp found
    exact lt_of_stopAt? takes inside stops
  | succ steps ih =>
    unfold firstWithin? at found
    split at found
    · next stop stops =>
      have starts : i ≤ text.size := by omega
      obtain rfl : Span.mk i stop = span := Option.some.inj found
      exact lt_of_stopAt? takes starts stops
    · exact ih (by omega) found

lemma lt_of_firstFrom? (takes : pattern.consumes = true) {span : Span}
    (found : pattern.firstFrom? text i = some span) : span.start < span.stop := by
  unfold firstFrom? at found
  split at found
  · exact lt_of_firstWithin? takes (by omega) found
  · cases found

lemma eq_of_settle (takes : pattern.consumes = true) {span : Span} {found : List Span} {next : Nat}
    (first : pattern.firstFrom? text i = some span) (settled : pattern.settle text span = (found, next)) :
    found = [span] := by
  rw [settle, if_pos (lt_of_firstFrom? takes first)] at settled
  exact (congrArg Prod.fst settled).symm

/-- No match of such a pattern is empty. -/
lemma lt_of_mem_occurrencesFrom (takes : pattern.consumes = true) :
    ∀ span ∈ pattern.occurrencesFrom text i, span.start < span.stop := by
  fun_induction occurrencesFrom pattern text i with
  | case1 => exact fun _ member => absurd member List.not_mem_nil
  | case2 i span first found next settled goesOn ih =>
    intro other member
    rcases List.mem_append.mp member with member | member
    · rw [eq_of_settle takes first settled, List.mem_singleton] at member
      exact member ▸ lt_of_firstFrom? takes first
    · exact ih other member
  | case3 i span first found next settled =>
    intro other member
    rw [eq_of_settle takes first settled, List.mem_singleton] at member
    exact member ▸ lt_of_firstFrom? takes first

end Places

end RepoAudit.Pattern

namespace RepoAudit

/-- The rules of the catalog take up text. -/
lemma Catalog.consumes : ∀ rule ∈ ({} : Ruleset).allRules, rule.pattern.consumes = true := by decide

end RepoAudit
