import Mathlib.Data.List.DropRight
import Mathlib.Data.List.Infix
import RepoAudit.Text.Basic

/-!
# Pieces of a text, and white space around it

Splitting at a separator and joining with it undo each other. A text is one piece without the separator, or such a
piece before a separator and a text (`piece_induction`), and this is how it is split. A piece that starts or ends a text
with a separator does so on its own side of it.

Stripping takes away what is white space at the ends and stops at the first character that is none.
-/

namespace RepoAudit.Text

section Pieces

variable {separator c : Char} {piece rest s : List Char}

lemma splitOn_cons (separator c : Char) (s : List Char) :
    splitOn separator (c :: s) = pushPiece separator c (splitOn separator s) :=
  rfl

lemma splitOn_ne_nil (separator : Char) (s : List Char) : splitOn separator s ≠ [] := by
  cases s with
  | nil => exact List.cons_ne_nil _ _
  | cons c s =>
    rw [splitOn_cons]
    unfold pushPiece
    split
    · exact List.cons_ne_nil _ _
    · split <;> exact List.cons_ne_nil _ _

lemma splitOn_separator (separator : Char) (s : List Char) :
    splitOn separator (separator :: s) = [] :: splitOn separator s := by
  rw [splitOn_cons]
  cases is : splitOn separator s with
  | nil => exact absurd is (splitOn_ne_nil separator s)
  | cons piece pieces => simp [pushPiece]

lemma splitOn_of_ne (other : c ≠ separator) (s : List Char) :
    ∃ piece pieces, splitOn separator s = piece :: pieces ∧ splitOn separator (c :: s) = (c :: piece) :: pieces := by
  rw [splitOn_cons]
  cases is : splitOn separator s with
  | nil => exact absurd is (splitOn_ne_nil separator s)
  | cons piece pieces => exact ⟨piece, pieces, rfl, by simp [pushPiece, other]⟩

/-- A text without the separator before a text. -/
lemma splitOn_append_of_notMem (single : separator ∉ piece) (s : List Char) :
    ∃ first pieces, splitOn separator s = first :: pieces ∧
      splitOn separator (piece ++ s) = (piece ++ first) :: pieces := by
  induction piece with
  | nil =>
    cases is : splitOn separator s with
    | nil => exact absurd is (splitOn_ne_nil separator s)
    | cons first pieces => exact ⟨first, pieces, rfl, is⟩
  | cons c piece ih =>
    obtain ⟨other, single⟩ : separator ≠ c ∧ separator ∉ piece := by simpa using single
    obtain ⟨first, pieces, is, joined⟩ := ih single
    obtain ⟨front, others, whole, pushed⟩ := splitOn_of_ne (Ne.symm other) (piece ++ s)
    obtain ⟨rfl, rfl⟩ := List.cons.inj (joined.symm.trans whole)
    exact ⟨first, pieces, is, pushed⟩

lemma splitOn_single (single : separator ∉ piece) : splitOn separator piece = [piece] := by
  obtain ⟨first, pieces, none, whole⟩ := splitOn_append_of_notMem single []
  obtain ⟨rfl, rfl⟩ : [] = first ∧ [] = pieces := List.cons.inj none
  rwa [List.append_nil] at whole

lemma splitOn_append_separator (single : separator ∉ piece) (rest : List Char) :
    splitOn separator (piece ++ separator :: rest) = piece :: splitOn separator rest := by
  obtain ⟨first, pieces, is, whole⟩ := splitOn_append_of_notMem single (separator :: rest)
  obtain ⟨rfl, rfl⟩ := List.cons.inj ((splitOn_separator separator rest).symm.trans is)
  rwa [List.append_nil] at whole

/-- A text is a piece, or a piece before a text. -/
@[elab_as_elim]
theorem piece_induction (separator : Char) {motive : List Char → Prop}
    (last : ∀ piece, separator ∉ piece → motive piece)
    (more : ∀ piece rest, separator ∉ piece → motive rest → motive (piece ++ separator :: rest)) (s : List Char) :
    motive s := by
  induction size : s.length using Nat.strongRecOn generalizing s with
  | ind n ih =>
    by_cases there : separator ∈ s
    · obtain ⟨piece, rest, rfl, single⟩ := List.eq_append_cons_of_mem there
      refine more piece rest single (ih rest.length ?_ rest rfl)
      rw [← size, List.length_append, List.length_cons]
      omega
    · exact last s there

lemma length_splitOn (separator : Char) (s : List Char) :
    (splitOn separator s).length = s.count separator + 1 := by
  induction s using piece_induction separator with
  | last piece single => rw [splitOn_single single, List.count_eq_zero.mpr single, List.length_singleton]
  | more piece rest single ih =>
    rw [splitOn_append_separator single, List.length_cons, ih, List.count_append, List.count_eq_zero.mpr single,
      List.count_cons_self, Nat.zero_add]

lemma separator_notMem_of_mem_splitOn (member : piece ∈ splitOn separator s) : separator ∉ piece := by
  induction s using piece_induction separator with
  | last whole single =>
    rw [splitOn_single single, List.mem_singleton] at member
    exact member ▸ single
  | more first rest single ih =>
    rw [splitOn_append_separator single, List.mem_cons] at member
    rcases member with rfl | later
    · exact single
    · exact ih later

lemma splitOn_intercalate {pieces : List (List Char)} (any : pieces ≠ [])
    (single : ∀ piece ∈ pieces, separator ∉ piece) : splitOn separator ([separator].intercalate pieces) = pieces := by
  induction pieces with
  | nil => exact absurd rfl any
  | cons first rest ih =>
    have here := single first List.mem_cons_self
    cases rest with
    | nil => simpa using splitOn_single here
    | cons second rest =>
      rw [List.intercalate_cons_cons, List.append_assoc, List.singleton_append, splitOn_append_separator here,
        ih (List.cons_ne_nil _ _) fun piece member => single piece (.tail _ member)]

lemma intercalate_splitOn (separator : Char) (s : List Char) : [separator].intercalate (splitOn separator s) = s := by
  induction s using piece_induction separator with
  | last piece single => simp [splitOn_single single]
  | more piece rest single ih =>
    rw [splitOn_append_separator single]
    cases is : splitOn separator rest with
    | nil => exact absurd is (splitOn_ne_nil separator rest)
    | cons first others =>
      rw [is] at ih
      rw [List.intercalate_cons_cons, ih, List.append_assoc, List.singleton_append]

/-- What is no separator stands in one of the pieces. -/
lemma exists_mem_splitOn_iff (other : c ≠ separator) (s : List Char) :
    (∃ piece ∈ splitOn separator s, c ∈ piece) ↔ c ∈ s := by
  induction s using piece_induction separator with
  | last piece single => simp [splitOn_single single]
  | more piece rest single ih => simp [splitOn_append_separator single, ih, other]

lemma prefix_append_separator_iff (single : separator ∉ piece) : piece <+: s ++ separator :: rest ↔ piece <+: s := by
  constructor
  · intro starts
    have front : s ++ [separator] <+: s ++ separator :: rest := ⟨rest, by simp⟩
    rcases List.prefix_or_prefix_of_prefix starts front with within | beyond
    · rcases List.prefix_concat_iff.mp within with rfl | within
      · exact absurd (List.mem_append_right _ List.mem_cons_self) single
      · exact within
    · exact absurd (beyond.subset (List.mem_append_right _ List.mem_cons_self)) single
  · exact fun starts => starts.trans (List.prefix_append _ _)

lemma suffix_append_separator_iff (single : separator ∉ piece) : piece <:+ s ++ separator :: rest ↔ piece <:+ rest := by
  constructor
  · intro ends
    rcases List.suffix_or_suffix_of_suffix ends (List.suffix_append s (separator :: rest)) with within | beyond
    · rcases List.suffix_cons_iff.mp within with rfl | within
      · exact absurd List.mem_cons_self single
      · exact within
    · exact absurd (beyond.subset List.mem_cons_self) single
  · rintro ⟨start, rfl⟩
    exact ⟨s ++ separator :: start, by simp⟩

end Pieces

section Blanks

variable {p : Char → Bool} {solid : List Char}

lemma dropWhile_append_solid (kept : ∀ c ∈ solid, p c = false) (s : List Char) :
    (s ++ solid).dropWhile p = s.dropWhile p ++ solid := by
  have stays : solid.dropWhile p = solid := by
    refine List.dropWhile_eq_self_iff.mpr fun inside => ?_
    rw [kept _ (List.getElem_mem inside)]
    exact Bool.false_ne_true
  rw [List.dropWhile_append, stays]
  split_ifs with all
  · rw [List.isEmpty_iff.mp all, List.nil_append]
  · rfl

lemma dropEndWhile_append_solid (any : solid ≠ []) (kept : ∀ c ∈ solid, p c = false) (s : List Char) :
    dropEndWhile p (s ++ solid) = s ++ solid := by
  refine List.rdropWhile_eq_self_iff.mpr fun some => ?_
  rw [List.getLast_append_of_ne_nil some any, kept _ (List.getLast_mem any)]
  exact Bool.false_ne_true

/-- Text that ends with no white space is stripped at its beginning. -/
lemma stripChars_append_solid (any : solid ≠ []) (kept : ∀ c ∈ solid, isBlank c = false) (s : List Char) :
    stripChars (s ++ solid) = s.dropWhile isBlank ++ solid := by
  rw [stripChars, dropWhile_append_solid kept, dropEndWhile_append_solid any kept]

lemma stripChars_padded {before after : List Char} (any : solid ≠ []) (kept : ∀ c ∈ solid, isBlank c = false)
    (blank : ∀ c ∈ before, isBlank c = true) (blank' : ∀ c ∈ after, isBlank c = true) :
    stripChars (before ++ (solid ++ after)) = solid := by
  have front : (solid ++ after).dropWhile isBlank = solid ++ after := by
    obtain ⟨c, rest, rfl⟩ := List.exists_cons_of_ne_nil any
    have stays : isBlank c = false := kept c List.mem_cons_self
    exact List.dropWhile_cons_of_neg (by rw [stays]; exact Bool.false_ne_true)
  rw [stripChars, List.dropWhile_append_of_pos blank, front, dropEndWhile, List.reverse_append,
    List.dropWhile_append_of_pos (by simpa using blank')]
  exact dropEndWhile_append_solid any kept []

lemma dropEndWhile_append (s : List Char) {t : List Char} (kept : ∃ c ∈ t, p c = false) :
    dropEndWhile p (s ++ t) = s ++ dropEndWhile p t := by
  obtain ⟨c, inside, solid⟩ := kept
  have some : (t.reverse.dropWhile p).isEmpty = false := by
    rw [Bool.eq_false_iff, Ne, List.isEmpty_iff, List.dropWhile_eq_nil_iff]
    intro all
    rw [all c (List.mem_reverse.mpr inside)] at solid
    cases solid
  rw [dropEndWhile, dropEndWhile, List.reverse_append, List.dropWhile_append, some]
  simp

/-- White space is taken away from the end only up to a character that is none. -/
lemma stripEnd_append (s : String) {t : String} (kept : ∃ c ∈ t.toList, isBlank c = false) :
    stripEnd (s ++ t) = s ++ stripEnd t := by
  rw [stripEnd, String.toList_append, dropEndWhile_append _ kept, String.ofList_append, String.ofList_toList, stripEnd]

lemma getLast?_stripChars_ne {c : Char} (blank : isBlank c = true) (s : List Char) :
    (stripChars s).getLast? ≠ some c := by
  intro last
  have any : stripChars s ≠ [] := by
    intro none
    rw [none] at last
    cases last
  rw [List.getLast?_eq_some_getLast any, Option.some.injEq] at last
  have solid : ¬ isBlank ((stripChars s).getLast any) = true := List.rdropWhile_last_not _ _ any
  exact solid (last ▸ blank)

/-- Letters and digits stand in three ranges of ASCII. -/
lemma toNat_of_isAlphanum {c : Char} (plain : c.isAlphanum = true) : 48 ≤ c.toNat ∧ c.toNat ≤ 122 := by
  have within {first last : Char} (range : first ≤ c ∧ c ≤ last) (low : 48 ≤ first.toNat) (high : last.toNat ≤ 122) :
      48 ≤ c.toNat ∧ c.toNat ≤ 122 := ⟨Nat.le_trans low range.1, Nat.le_trans range.2 high⟩
  rcases Bool.or_eq_true_iff.mp plain with letter | digit
  · rcases Bool.or_eq_true_iff.mp letter with upper | lower
    · have range : 'A' ≤ c ∧ c ≤ 'Z' := of_decide_eq_true upper
      exact within range (by decide) (by decide)
    · have range : 'a' ≤ c ∧ c ≤ 'z' := (Bool.and_eq_true_iff.mp lower).imp of_decide_eq_true of_decide_eq_true
      exact within range (by decide) (by decide)
  · have range : '0' ≤ c ∧ c ≤ '9' := (Bool.and_eq_true_iff.mp digit).imp of_decide_eq_true of_decide_eq_true
    exact within range (by decide) (by decide)

lemma isBlank_of_isAlphanum {c : Char} (plain : c.isAlphanum = true) : isBlank c = false := by
  have bounds := toNat_of_isAlphanum plain
  simp [isBlank]
  omega

end Blanks

end RepoAudit.Text
