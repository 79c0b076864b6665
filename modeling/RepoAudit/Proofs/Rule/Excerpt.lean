import Mathlib.Data.List.Infix
import RepoAudit.Proofs.Rule.Occurrence
import RepoAudit.Proofs.Text.Basic
import RepoAudit.Rule.Excerpt

/-!
# What excerpts show

A piece of one line stands in an excerpt just when it stands in one of its rows, and a piece of the text
stands in the row of its line. Redaction leaves every line its number, and it leaves the pieces that it does
not touch.
-/

namespace RepoAudit

namespace Text

lemma boundIndex_natCast (length n : Nat) : boundIndex length (n : Int) = min n length :=
  if_neg (Int.not_lt.mpr (Int.natCast_nonneg n))

/-! Lines are the pieces between newlines. -/

section Lines

variable {line rest s : List Char}

lemma lines_ne_nil (s : List Char) : lines s ≠ [] := splitOn_ne_nil '\n' s

lemma lines_newline (s : List Char) : lines ('\n' :: s) = [] :: lines s := splitOn_separator '\n' s

lemma lines_of_ne {c : Char} (other : c ≠ '\n') (s : List Char) :
    ∃ piece pieces, lines s = piece :: pieces ∧ lines (c :: s) = (c :: piece) :: pieces :=
  splitOn_of_ne other s

lemma lines_single (single : '\n' ∉ line) : lines line = [line] := splitOn_single single

lemma lines_append_newline (single : '\n' ∉ line) : lines (line ++ '\n' :: rest) = line :: lines rest :=
  splitOn_append_separator single rest

lemma length_lines (s : List Char) : (lines s).length = s.count '\n' + 1 := length_splitOn '\n' s

lemma newline_notMem_of_mem_lines (member : line ∈ lines s) : '\n' ∉ line :=
  separator_notMem_of_mem_splitOn member

/-- The first line begins with whatever the text begins with on one line. -/
lemma isPrefix_first_line {w : List Char} (single : '\n' ∉ w) (after : List Char) :
    ∃ line rest, lines (w ++ after) = line :: rest ∧ w <+: line := by
  obtain ⟨first, rest, -, whole⟩ := splitOn_append_of_notMem single after
  exact ⟨w ++ first, rest, whole, List.prefix_append w first⟩

end Lines

/-- A piece on one line stands in the line that its place tells. -/
lemma infix_line {w : List Char} (single : '\n' ∉ w) (before after : List Char) :
    ∃ line, (lines (before ++ w ++ after))[before.count '\n']? = some line ∧ w <:+: line := by
  induction before with
  | nil =>
    obtain ⟨line, rest, whole, starts⟩ := isPrefix_first_line single after
    exact ⟨line, by simp [whole], starts.isInfix⟩
  | cons c before ih =>
    obtain ⟨line, here, stands⟩ := ih
    by_cases newline : c = '\n'
    · subst newline
      refine ⟨line, ?_, stands⟩
      simpa [lines_newline] using here
    · obtain ⟨piece, pieces, rest, whole⟩ := lines_of_ne newline (before ++ w ++ after)
      rw [rest] at here
      rw [List.cons_append, List.cons_append, whole, List.count_cons_of_ne newline]
      cases index : before.count '\n' with
      | zero =>
        rw [index] at here
        obtain rfl : piece = line := by simpa using here
        exact ⟨c :: piece, rfl, stands.trans (List.suffix_cons c piece).isInfix⟩
      | succ n =>
        rw [index] at here
        exact ⟨line, here, stands⟩

/-- Newlines between pieces that hold none. -/
lemma count_unlines {pieces : List (List Char)} (single : ∀ piece ∈ pieces, '\n' ∉ piece)
    (some : pieces ≠ []) : (unlines pieces).count '\n' + 1 = pieces.length := by
  unfold unlines
  induction pieces with
  | nil => exact absurd rfl some
  | cons piece rest ih =>
    have none : piece.count '\n' = 0 := List.count_eq_zero.mpr (single piece List.mem_cons_self)
    cases rest with
    | nil => simp [joinWith, none]
    | cons second rest =>
      have := ih (fun p member => single p (List.mem_cons_of_mem _ member)) (by simp)
      simp only [joinWith, List.count_append, none, List.length_cons] at this ⊢
      simp
      omega

end Text

namespace Excerpt

/-! ### Redaction -/

lemma newline_notMem_redact {keep : Keep} {value : List Char} (single : '\n' ∉ value) :
    '\n' ∉ redact keep value := by
  unfold redact
  split
  · simp only [List.mem_append, ellipsis, not_or]
    exact ⟨fun member => single (List.mem_of_mem_take member), by decide⟩
  · simp only [List.mem_append, ellipsis, not_or]
    refine ⟨⟨fun member => single (List.mem_of_mem_take member), by decide⟩, fun member => ?_⟩
    exact single (List.mem_of_mem_drop member)

/-- A redacted text has as many lines as before. -/
lemma count_redactLines (value : List Char) : (redactLines value).count '\n' = value.count '\n' := by
  have single : ∀ piece ∈ (Text.lines value).map fun part =>
      if part.all Text.isBlank then part else redact {} part, '\n' ∉ piece := by
    intro piece member
    obtain ⟨part, line, rfl⟩ := List.mem_map.mp member
    have single := Text.newline_notMem_of_mem_lines line
    split
    · exact single
    · exact newline_notMem_redact single
  have count := Text.count_unlines single (by simp [Text.lines_ne_nil])
  rw [List.length_map, Text.length_lines] at count
  exact Nat.succ.inj count

/-- A piece that no replaced piece touches stays, and so does the number of its line. -/
lemma replaceFrom_keeps {f : List Char → List Char}
    (lines : ∀ value, (f value).count '\n' = value.count '\n') {spans : List Pattern.Span} {offset : Nat}
    {before w after : List Char}
    (ordered : Pattern.Ordered (offset + (before ++ w ++ after).length) offset spans)
    (apart : ∀ span ∈ spans, span.stop ≤ offset + before.length ∨
      offset + before.length + w.length ≤ span.start) :
    ∃ before' after', replaceFrom f offset spans (before ++ w ++ after) = before' ++ w ++ after' ∧
      before'.count '\n' = before.count '\n' := by
  induction spans generalizing offset before with
  | nil => exact ⟨before, after, rfl, rfl⟩
  | cons span rest ih =>
    obtain _ | ⟨starts, stops, inside, ordered⟩ := ordered
    obtain earlier | later := apart span List.mem_cons_self
    · -- The replaced piece stands before the one that stays.
      obtain ⟨a, starts⟩ := Nat.exists_eq_add_of_le starts
      obtain ⟨b, stops⟩ := Nat.exists_eq_add_of_le stops
      have fits : a + b ≤ before.length := by omega
      have parts : before = before.take a ++ (before.drop a).take b ++ before.drop (a + b) := by
        rw [List.append_assoc, ← List.drop_drop, List.take_append_drop, List.take_append_drop]
      have size : offset + (before ++ w ++ after).length =
          span.stop + (before.drop (a + b) ++ w ++ after).length := by
        simp only [List.length_append, List.length_drop]
        omega
      obtain ⟨before', after', replaced, count⟩ := ih (size ▸ ordered) fun other member => by
        have := apart other (List.mem_cons_of_mem _ member)
        rw [List.length_drop]
        omega
      refine ⟨before.take a ++ f ((before.drop a).take b) ++ before', after', ?_, ?_⟩
      · have width : span.start - offset = a ∧ span.stop - span.start = b := by omega
        have fits' : a ≤ before.length ∧ b ≤ (before.drop a).length := by
          rw [List.length_drop]
          omega
        simp only [replaceFrom, width, List.append_assoc, List.take_append_of_le_length fits'.1,
          List.drop_append_of_le_length fits'.1, List.take_append_of_le_length fits'.2,
          List.drop_append_of_le_length fits'.2, List.drop_drop]
        simp only [List.append_assoc] at replaced
        rw [replaced]
      · conv_rhs => rw [parts]
        simp only [List.count_append, lines, count]
    · -- The replaced piece, and with it all later ones, stand behind the one that stays.
      have long : (before ++ w).length ≤ span.start - offset := by
        rw [List.length_append]
        omega
      have stays : before ++ w <+: replaceFrom f offset (span :: rest) (before ++ w ++ after) := by
        rw [replaceFrom, List.take_append, List.take_of_length_le long, List.append_assoc (before ++ w),
          List.append_assoc (before ++ w)]
        exact List.prefix_append _ _
      obtain ⟨after', same⟩ := stays
      exact ⟨before, after', same.symm, rfl⟩

/-- A piece of the text that no redacted piece touches stays, and so does the number of its line. -/
lemma mask_keeps {spans : List Pattern.Span} {before w after : List Char}
    (ordered : Pattern.Ordered (before ++ w ++ after).length 0 spans)
    (apart : ∀ span ∈ spans, span.stop ≤ before.length ∨ before.length + w.length ≤ span.start) :
    ∃ before' after', mask spans (before ++ w ++ after) = before' ++ w ++ after' ∧
      before'.count '\n' = before.count '\n' := by
  refine replaceFrom_keeps count_redactLines (by simpa using ordered) ?_
  simpa using apart

/-! ### Rows -/

/-- The row of the line at an index. -/
def row (i : Nat) (text : List Char) : String :=
  toString ((i : Int) + 1) ++ " | " ++ String.ofList text

/-- The piece stands in one of the rows around a line. -/
def Shows (content : List Char) (line context : Int) (w : List Char) : Prop :=
  ∃ (i : Nat) (text : List Char), (Text.lines content)[i]? = some text ∧
    line - context ≤ (i : Int) + 1 ∧ (i : Int) + 1 ≤ line + context ∧ w <:+: (row i text).toList

lemma mem_numbered {first : Int} {lines : List (List Char)} {shown : String} :
    shown ∈ numbered first lines ↔ ∃ (k : Nat) (text : List Char), lines[k]? = some text ∧
      shown = toString (first + (k : Int)) ++ " | " ++ String.ofList text := by
  induction lines generalizing first with
  | nil => simp [numbered]
  | cons line rest ih =>
    rw [numbered, List.mem_cons, ih]
    constructor
    · rintro (rfl | ⟨k, text, here, rfl⟩)
      · exact ⟨0, line, rfl, by simp⟩
      · refine ⟨k + 1, text, here, ?_⟩
        rw [Int.natCast_add, Int.add_comm (k : Int), ← Int.add_assoc]
        rfl
    · rintro ⟨_ | k, text, here, rfl⟩
      · obtain rfl : line = text := by simpa using here
        exact .inl (by simp)
      · refine .inr ⟨k, text, here, ?_⟩
        rw [Int.natCast_add, Int.add_comm (k : Int), ← Int.add_assoc]
        rfl

lemma mem_rows {content : List Char} {line context : Int} (reaches : 0 ≤ line + context)
    {shown : String} :
    shown ∈ rows content line context ↔ ∃ (i : Nat) (text : List Char),
      (Text.lines content)[i]? = some text ∧
      line - context ≤ (i : Int) + 1 ∧ (i : Int) + 1 ≤ line + context ∧ shown = row i text := by
  obtain ⟨start, first⟩ := Int.eq_ofNat_of_zero_le (Int.le_max_left 0 (line - context - 1))
  obtain ⟨stop, last⟩ := Int.eq_ofNat_of_zero_le
    (Int.le_min.mpr ⟨Int.natCast_nonneg (Text.lines content).length, reaches⟩)
  -- Both ends of the range are cut off at the text, and the lines are numbered from the first that is left.
  simp only [rows, first, last, mem_numbered, Text.between, Text.boundIndex_natCast,
    List.getElem?_drop, List.getElem?_take]
  constructor
  · rintro ⟨k, text, here, rfl⟩
    split at here
    · have inside := (List.getElem?_eq_some_iff.mp here).1
      have index : min start (Text.lines content).length + k = start + k := by omega
      rw [index] at here
      refine ⟨start + k, text, here, by omega, by omega, ?_⟩
      rw [row, Int.natCast_add, Int.add_right_comm]
    · cases here
  · rintro ⟨i, text, here, near, near', rfl⟩
    have inside := (List.getElem?_eq_some_iff.mp here).1
    have index : min start (Text.lines content).length + (i - start) = i := by omega
    refine ⟨i - start, text, ?_, ?_⟩
    · rw [index, if_pos (by omega), here]
    · have shift : (start : Int) + 1 + ((i - start : Nat) : Int) = (i : Int) + 1 := by omega
      rw [row, shift]

/-- What stands on one line and begins a text stands at the beginning of its first line. -/
lemma isPrefix_append_newline {w a b : List Char} (single : '\n' ∉ w) :
    w <+: a ++ '\n' :: b ↔ w <+: a := by
  constructor
  · intro starts
    obtain short | long := Nat.lt_or_ge a.length w.length |>.symm
    · exact List.prefix_of_prefix_length_le starts (List.prefix_append a _) short
    · -- Otherwise the newline would stand in the piece.
      have whole : a ++ ['\n'] <+: w := by
        refine List.prefix_of_prefix_length_le ⟨b, by simp⟩ starts ?_
        rw [List.length_append]
        exact long
      exact absurd (whole.subset (by simp)) single
  · exact fun starts => starts.trans (List.prefix_append a _)

/-- What stands on one line stands on one side of a newline. -/
lemma infix_append_newline {w a b : List Char} (single : '\n' ∉ w) (some : w ≠ []) :
    w <:+: a ++ '\n' :: b ↔ w <:+: a ∨ w <:+: b := by
  induction a with
  | nil =>
    have unstarted : ¬ w <+: '\n' :: b := fun starts =>
      some (List.prefix_nil.mp ((isPrefix_append_newline (a := []) single).mp starts))
    rw [List.nil_append, List.infix_cons_iff, or_iff_right unstarted, List.infix_nil]
    simp [some]
  | cons c a ih =>
    rw [List.cons_append, List.infix_cons_iff, ih, ← List.cons_append, isPrefix_append_newline single,
      List.infix_cons_iff, or_assoc]

/-- What stands on one line stands in a text just when it stands in one of the pieces that newlines join. -/
lemma infix_intercalate {w : List Char} (single : '\n' ∉ w) (some : w ≠ []) (rows : List (List Char)) :
    w <:+: ['\n'].intercalate rows ↔ ∃ row ∈ rows, w <:+: row := by
  induction rows with
  | nil => simp [some]
  | cons first rest ih =>
    cases rest with
    | nil => simp
    | cons second rest =>
      rw [List.intercalate_cons_cons, List.append_assoc, List.singleton_append,
        infix_append_newline single some, ih]
      simp

/-- What stands on one line stands in an excerpt just when one of its rows shows it. -/
lemma infix_around {content w : List Char} {line context : Int} (reaches : 0 ≤ line + context)
    (single : '\n' ∉ w) (some : w ≠ []) :
    w <:+: (around content line context).toList ↔ Shows content line context w := by
  have newline : "\n".toList = ['\n'] := rfl
  rw [around, String.toList_intercalate, newline, infix_intercalate single some]
  constructor
  · rintro ⟨_, member, stands⟩
    obtain ⟨shown, isRow, rfl⟩ := List.mem_map.mp member
    obtain ⟨i, text, here, near, near', rfl⟩ := (mem_rows reaches).mp isRow
    exact ⟨i, text, here, near, near', stands⟩
  · rintro ⟨i, text, here, near, near', stands⟩
    refine ⟨_, List.mem_map_of_mem ?_, stands⟩
    exact (mem_rows reaches).mpr ⟨i, text, here, near, near', rfl⟩

/-- A piece on one line is shown around every line that is near enough. -/
lemma shows_of_near {before w after : List Char} {line context : Int} (single : '\n' ∉ w)
    (near : line - context ≤ (before.count '\n' : Int) + 1)
    (near' : (before.count '\n' : Int) + 1 ≤ line + context) :
    Shows (before ++ w ++ after) line context w := by
  obtain ⟨text, here, stands⟩ := Text.infix_line single before after
  refine ⟨before.count '\n', text, here, near, near', stands.trans ?_⟩
  rw [row, String.toList_append, String.toList_ofList]
  exact List.infix_append_of_infix_right (List.infix_refl text)

end Excerpt

end RepoAudit
