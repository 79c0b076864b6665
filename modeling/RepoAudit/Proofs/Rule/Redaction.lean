import RepoAudit.Proofs.Rule.Evidence

/-!
# Redaction in place

The text that the excerpt of a secret is cut from is the content with each match of the rule replaced where it stands
(`Excerpt.InPlace`). A match is redacted line by line, so the replacement can be taken apart at the newlines: every line
of the new text is the line of the content with the same number, in which the parts of the matches on that line are
redacted where they stand (`Excerpt.lines_replaceFrom`). From this follows what the rows of an excerpt show.
-/

namespace RepoAudit

open Pattern (Ordered Span)

namespace Pattern

/-- The part of a piece between two places. It is empty where the piece stands outside. -/
def Span.clamp (low high : Nat) (span : Span) : Span := ⟨max low (min span.start high), max low (min span.stop high)⟩

/-- The part of a piece from a place on. -/
def Span.raise (low : Nat) (span : Span) : Span := ⟨max low span.start, max low span.stop⟩

section

variable {size i j low high : Nat} {span : Span} {spans : List Span}

lemma Ordered.bounds (ordered : Ordered size i spans) :
    ∀ span ∈ spans, i ≤ span.start ∧ span.start ≤ span.stop ∧ span.stop ≤ size := by
  induction ordered with
  | nil => exact nofun
  | cons starts stops inside _ ih =>
    intro span member
    obtain rfl | member := List.mem_cons.mp member
    · exact ⟨starts, stops, inside⟩
    · obtain ⟨starts', others⟩ := ih span member
      exact ⟨by omega, others⟩

lemma Ordered.raise (ordered : Ordered size i spans) : ∀ k ≤ max low i, low ≤ size →
    Ordered size k (spans.map (Span.raise low)) := by
  induction ordered with
  | nil => exact fun _ _ _ => .nil
  | @cons i span rest starts stops inside _ ih =>
    intro k le fits
    have later : Ordered size (max low span.stop) (rest.map (Span.raise low)) := ih _ le_rfl fits
    exact .cons (show k ≤ max low span.start by omega) (show max low span.start ≤ max low span.stop by omega)
      (show max low span.stop ≤ size by omega) later

lemma Ordered.clamp (ordered : Ordered size i spans) : ∀ k ≤ max low (min i high), low ≤ high →
    Ordered high k (spans.map (Span.clamp low high)) := by
  induction ordered with
  | nil => exact fun _ _ _ => .nil
  | @cons i span rest starts stops inside _ ih =>
    intro k le fits
    have later : Ordered high (max low (min span.stop high)) (rest.map (Span.clamp low high)) := ih _ le_rfl fits
    exact .cons (show k ≤ max low (min span.start high) by omega)
      (show max low (min span.start high) ≤ max low (min span.stop high) by omega)
      (show max low (min span.stop high) ≤ high by omega) later

/-- Pieces from a place on are not cut there. -/
lemma Ordered.map_raise (ordered : Ordered size i spans) (after : low ≤ i) : spans.map (Span.raise low) = spans := by
  refine (List.map_congr_left fun span member => ?_).trans (List.map_id spans)
  obtain ⟨starts, stops, -⟩ := ordered.bounds span member
  rw [Span.raise, max_eq_right (after.trans starts), max_eq_right (after.trans (starts.trans stops))]
  rfl

/-- Pieces from a place on are clamped alike wherever the range begins before it. -/
lemma Ordered.map_clamp (ordered : Ordered size i spans) (before : j ≤ i) (inside : i ≤ high) :
    spans.map (Span.clamp j high) = spans.map (Span.clamp i high) := by
  refine List.map_congr_left fun span member => ?_
  obtain ⟨starts, stops, -⟩ := ordered.bounds span member
  simp only [Span.clamp, Span.mk.injEq]
  omega

lemma Ordered.map_clamp_self (ordered : Ordered size i spans) : spans.map (Span.clamp i size) = spans := by
  refine (List.map_congr_left fun span member => ?_).trans (List.map_id spans)
  obtain ⟨starts, stops, inside⟩ := ordered.bounds span member
  rw [Span.clamp, min_eq_left (stops.trans inside), min_eq_left inside, max_eq_right starts,
    max_eq_right (starts.trans stops)]
  rfl

/-- Pieces from a place on are clamped to nothing before it. -/
lemma Ordered.start_clamp (ordered : Ordered size i spans) (after : high ≤ i) :
    ∀ span ∈ spans.map (Span.clamp low high), high ≤ span.start := by
  intro clamped member
  obtain ⟨span, listed, rfl⟩ := List.mem_map.mp member
  have starts := (ordered.bounds span listed).1
  simp only [Span.clamp]
  omega

lemma Span.clamp_raise (before : j ≤ low) : (span.raise j).clamp low high = span.clamp low high := by
  simp only [Span.clamp, Span.raise, Span.mk.injEq]
  omega

end

end Pattern

namespace Text

variable {line rest s : List Char}

lemma unlines_cons {pieces : List (List Char)} (some : pieces ≠ []) :
    unlines (line :: pieces) = line ++ '\n' :: unlines pieces := by
  cases pieces with
  | nil => exact absurd rfl some
  | cons piece pieces => simp [unlines, joinWith]

-- The sum of no lengths is the core zero, also where an algebra library brings its own.
attribute [local instance (high)] Zero.ofOfNat0

/-- Where the line of an index begins. -/
def lineStart (s : List Char) (n : Nat) : Nat := (((lines s).take n).map (·.length + 1)).sum

@[simp]
lemma lineStart_zero : lineStart s 0 = 0 := rfl

lemma lineStart_succ (single : '\n' ∉ line) (n : Nat) :
    lineStart (line ++ '\n' :: rest) (n + 1) = line.length + 1 + lineStart rest n := by
  rw [lineStart, lines_append_newline single, List.take_succ_cons, List.map_cons, List.sum_cons]
  rfl

end Text

namespace Excerpt

/-! ### Redacted lines -/

/-- How many characters of a redacted line stay at its start and at its end. -/
def kept (part : List Char) : Nat × Nat := if part.length ≤ 16 then (max 1 (part.length / 3), 0) else (12, 4)

/-- A line of a secret without its middle; a line of white space stays. -/
def redactLine (part : List Char) : List Char :=
  if part.all Text.isBlank then part
  else part.take (kept part).1 ++ ellipsis ++ part.drop (part.length - (kept part).2)

lemma redact_eq (part : List Char) :
    redact {} part = part.take (kept part).1 ++ ellipsis ++ part.drop (part.length - (kept part).2) := by
  show (if (part.length : Int) ≤ 12 + 4 then _ else _) = _
  unfold kept
  by_cases short : part.length ≤ 16
  · rw [if_pos (by omega), if_pos short]
    simp
  · rw [if_neg (by omega), if_neg short]
    have start : Text.boundIndex part.length 12 = 12 := by
      rw [Text.boundIndex, if_neg (by decide)]
      omega
    have stop : Text.boundIndex part.length (-4) = part.length - 4 := by
      rw [Text.boundIndex, if_pos (by decide)]
      omega
    simp only [Text.takeTo, Text.dropTo, start, stop]

variable {line rest part : List Char}

lemma newline_notMem_redactLine (single : '\n' ∉ part) : '\n' ∉ redactLine part := by
  unfold redactLine
  split
  · exact single
  · rw [← redact_eq]
    exact newline_notMem_redact single

@[simp]
lemma redactLine_nil : redactLine [] = [] := rfl

lemma redactLines_eq (value : List Char) : redactLines value = Text.unlines ((Text.lines value).map redactLine) := by
  unfold redactLines redactLine
  simp only [redact_eq]

lemma redactLines_single (single : '\n' ∉ part) : redactLines part = redactLine part := by
  rw [redactLines_eq, Text.lines_single single]
  rfl

@[simp]
lemma redactLines_nil : redactLines [] = [] := rfl

lemma redactLines_newline (single : '\n' ∉ line) :
    redactLines (line ++ '\n' :: rest) = redactLine line ++ '\n' :: redactLines rest := by
  rw [redactLines_eq, Text.lines_append_newline single, List.map_cons,
    Text.unlines_cons (by simp [Text.lines_ne_nil]), ← redactLines_eq]

/-! ### Pieces replaced in place -/

/-- The second text is the first one, which starts at a place, with each of the pieces replaced by a function of it
where the piece stands. -/
inductive InPlace (f : List Char → List Char) : Nat → List Span → List Char → List Char → Prop where
  | rest {i : Nat} {s : List Char} : InPlace f i [] s s
  | piece {i : Nat} {before part after after' : List Char} {span : Span} {spans : List Span}
      (starts : i + before.length = span.start) (stops : span.start + part.length = span.stop)
      (others : InPlace f span.stop spans after after') :
      InPlace f i (span :: spans) (before ++ part ++ after) (before ++ f part ++ after')

section

variable {f : List Char → List Char} {i : Nat} {span : Span} {spans : List Span} {before after s t : List Char}

lemma replaceFrom_piece (starts : i + before.length = span.start) (stops : span.start + part.length = span.stop) :
    replaceFrom f i (span :: spans) (before ++ part ++ after) =
      before ++ f part ++ replaceFrom f span.stop spans after := by
  have first : span.start - i = before.length := by omega
  have width : span.stop - span.start = part.length := by omega
  simp only [replaceFrom, first, width, List.append_assoc, List.take_left', List.drop_left']

/-- There is just one such text. -/
lemma InPlace.eq_replaceFrom (replaced : InPlace f i spans s t) : t = replaceFrom f i spans s := by
  induction replaced with
  | rest => rfl
  | piece starts stops _ ih => rw [replaceFrom_piece starts stops, ih]

/-- A text at the first piece that is to be replaced in it. -/
lemma exists_parts (starts : i ≤ span.start) (stops : span.start ≤ span.stop) (inside : span.stop ≤ i + s.length) :
    ∃ before part after, s = before ++ part ++ after ∧ i + before.length = span.start ∧
      span.start + part.length = span.stop := by
  refine ⟨s.take (span.start - i), (s.drop (span.start - i)).take (span.stop - span.start),
    (s.drop (span.start - i)).drop (span.stop - span.start), ?_, ?_, ?_⟩
  · rw [List.append_assoc, List.take_append_drop, List.take_append_drop]
  · rw [List.length_take]
    omega
  · rw [List.length_take, List.length_drop]
    omega

lemma inPlace_replaceFrom (ordered : Ordered (i + s.length) i spans) :
    InPlace f i spans s (replaceFrom f i spans s) := by
  induction spans generalizing i s with
  | nil => exact .rest
  | cons span spans ih =>
    obtain _ | ⟨starts, stops, inside, ordered⟩ := ordered
    obtain ⟨before, part, after, rfl, starts, stops⟩ := exists_parts starts stops inside
    rw [replaceFrom_piece starts stops]
    refine .piece starts stops (ih ?_)
    have size : i + (before ++ part ++ after).length = span.stop + after.length := by
      simp only [List.length_append]
      omega
    exact size ▸ ordered

/-- What stands before every piece stays. -/
lemma replaceFrom_append (later : ∀ span ∈ spans, i + before.length ≤ span.start) :
    replaceFrom f i spans (before ++ after) = before ++ replaceFrom f (i + before.length) spans after := by
  cases spans with
  | nil => rfl
  | cons span spans =>
    obtain ⟨k, far⟩ := Nat.exists_eq_add_of_le (later span List.mem_cons_self)
    have first : span.start - i = before.length + k := by omega
    have second : span.start - (i + before.length) = k := by omega
    simp only [replaceFrom, first, second, List.take_length_add_append, List.drop_length_add_append,
      List.append_assoc]

lemma replaceFrom_nil (nothing : f [] = []) (i : Nat) (spans : List Span) : replaceFrom f i spans [] = [] := by
  induction spans generalizing i with
  | nil => rfl
  | cons span spans ih => simp [replaceFrom, nothing, ih]

lemma replaceFrom_empty (nothing : f [] = []) : replaceFrom f i (⟨i, i⟩ :: spans) s = replaceFrom f i spans s := by
  have front : replaceFrom f i (⟨i, i⟩ :: spans) ([] ++ [] ++ s) = [] ++ f [] ++ replaceFrom f i spans s :=
    replaceFrom_piece rfl rfl
  simpa [nothing] using front

/-- A text without pieces stays. -/
lemma replaceFrom_before (nothing : f [] = []) (later : ∀ span ∈ spans, i + s.length ≤ span.start) :
    replaceFrom f i spans s = s := by
  have whole : replaceFrom f i spans (s ++ []) = s ++ replaceFrom f (i + s.length) spans [] := replaceFrom_append later
  rwa [List.append_nil, replaceFrom_nil nothing, List.append_nil] at whole

/-- Pieces without characters change nothing. -/
lemma replaceFrom_empties (nothing : f [] = []) (empty : ∀ span ∈ spans, span.stop ≤ span.start) :
    replaceFrom f i spans s = s := by
  induction spans generalizing i s with
  | nil => rfl
  | cons span spans ih =>
    have none := Nat.sub_eq_zero_of_le (empty span List.mem_cons_self)
    have others := ih (i := span.stop) (s := s.drop (span.start - i)) fun other member => empty other (.tail _ member)
    simp [replaceFrom, none, nothing, others]

lemma replaceFrom_congr {g : List Char → List Char} (same : ∀ part, '\n' ∉ part → f part = g part)
    (single : '\n' ∉ s) : replaceFrom f i spans s = replaceFrom g i spans s := by
  induction spans generalizing i s with
  | nil => rfl
  | cons span spans ih =>
    have rest : '\n' ∉ s.drop (span.start - i) := fun member => single (List.mem_of_mem_drop member)
    have part : f ((s.drop (span.start - i)).take (span.stop - span.start)) = g _ :=
      same _ fun member => rest (List.mem_of_mem_take member)
    have others : replaceFrom f span.stop spans ((s.drop (span.start - i)).drop (span.stop - span.start)) =
        replaceFrom g span.stop spans _ := ih fun member => rest (List.mem_of_mem_drop member)
    simp only [replaceFrom, part, others]

/-- Replacing the pieces one after another from the last one on: a replacement moves nothing that stands before it, so
the places of the first text serve to the end. -/
lemma foldr_eq_replaceFrom (ordered : Ordered (before.length + s.length) before.length spans) :
    spans.foldr (fun span text => text.take span.start ++ f (span.slice (before ++ s).toArray) ++ text.drop span.stop)
      (before ++ s) = before ++ replaceFrom f before.length spans s := by
  induction spans generalizing before s with
  | nil => rfl
  | cons span spans ih =>
    obtain _ | ⟨starts, stops, inside, ordered⟩ := ordered
    obtain ⟨a, part, after, rfl, starts, stops⟩ := exists_parts starts stops inside
    have same : before ++ (a ++ part ++ after) = before ++ a ++ part ++ after := by simp
    have start : span.start = (before ++ a).length := by rw [List.length_append, starts]
    have stop : span.stop = (before ++ a ++ part).length := by rw [List.length_append, ← start, stops]
    have slice : span.slice (before ++ a ++ part ++ after).toArray = part := by
      have width : span.stop - span.start = part.length := by omega
      rw [List.append_assoc, Span.slice]
      simp only [List.extract_toArray, List.extract_eq_take_drop, width]
      rw [start, List.drop_left, List.take_left]
    have size : before.length + (a ++ part ++ after).length = (before ++ a ++ part).length + after.length := by
      simp only [List.length_append]
      omega
    have others := @ih (before ++ a ++ part) after (size ▸ stop ▸ ordered)
    rw [replaceFrom_piece starts stops, same, List.foldr_cons, others, slice, ← stop]
    have front : (before ++ a ++ part ++ replaceFrom f span.stop spans after).take span.start = before ++ a := by
      rw [List.append_assoc, start, List.take_left]
    have back : (before ++ a ++ part ++ replaceFrom f span.stop spans after).drop span.stop =
        replaceFrom f span.stop spans after := by
      rw [stop, List.drop_left]
    rw [front, back]
    simp

lemma newline_notMem_replaceFrom (keeps : ∀ part, '\n' ∉ part → '\n' ∉ f part) (single : '\n' ∉ s) :
    '\n' ∉ replaceFrom f i spans s := by
  induction spans generalizing i s with
  | nil => exact single
  | cons span spans ih =>
    have rest (n : Nat) : '\n' ∉ s.drop n := fun member => single (List.mem_of_mem_drop member)
    simp only [replaceFrom, List.mem_append, not_or]
    refine ⟨⟨fun member => single (List.mem_of_mem_take member), ?_⟩, ?_⟩
    · exact keeps _ fun member => rest _ (List.mem_of_mem_take member)
    · exact ih fun member => rest _ (List.mem_of_mem_drop member)

end

/-! ### Line by line -/

section

variable {i size : Nat} {span : Span} {spans : List Span} {a b c d line rest s : List Char}

lemma exists_append {k : Nat} (inside : k ≤ s.length) : ∃ a b, s = a ++ b ∧ a.length = k :=
  ⟨s.take k, s.drop k, (List.take_append_drop k s).symm, List.length_take_of_le inside⟩

/-- A piece before the first newline is redacted in its line. -/
lemma replaceFrom_within (single : '\n' ∉ b ++ c) (starts : i + a.length = span.start)
    (stops : span.start + b.length = span.stop) (ordered : Ordered size span.stop spans)
    (others : replaceFrom redactLines span.stop spans (c ++ '\n' :: rest) =
      replaceFrom redactLine span.stop (spans.map (Span.clamp span.stop (span.stop + c.length))) c ++
        '\n' :: replaceFrom redactLines (span.stop + c.length + 1)
          (spans.map (Span.raise (span.stop + c.length + 1))) rest) :
    replaceFrom redactLines i (span :: spans) (a ++ b ++ c ++ '\n' :: rest) =
      replaceFrom redactLine i ((span :: spans).map (Span.clamp i (span.stop + c.length))) (a ++ b ++ c) ++
        '\n' :: replaceFrom redactLines (span.stop + c.length + 1)
          ((span :: spans).map (Span.raise (span.stop + c.length + 1))) rest := by
  obtain ⟨single, -⟩ : '\n' ∉ b ∧ '\n' ∉ c := by simpa using single
  have whole : span.clamp i (span.stop + c.length) = span := by
    rw [Span.clamp, min_eq_left (by omega), min_eq_left (by omega), max_eq_right (by omega), max_eq_right (by omega)]
  have nothing : span.raise (span.stop + c.length + 1) = ⟨span.stop + c.length + 1, span.stop + c.length + 1⟩ := by
    rw [Span.raise, max_eq_left (by omega), max_eq_left (by omega)]
  rw [List.append_assoc (a ++ b), replaceFrom_piece starts stops, others, List.map_cons, List.map_cons, whole, nothing,
    replaceFrom_piece starts stops, replaceFrom_empty redactLines_nil, redactLines_single single,
    ordered.map_clamp (j := i) (by omega) (Nat.le_add_right _ _)]
  simp

/-- A piece with the first newline in it is redacted in two lines. -/
lemma replaceFrom_across (single : '\n' ∉ a ++ b) (starts : i + a.length = span.start)
    (stops : span.start + b.length + 1 + c.length = span.stop) (ordered : Ordered size span.stop spans) :
    replaceFrom redactLines i (span :: spans) (a ++ b ++ '\n' :: (c ++ d)) =
      replaceFrom redactLine i ((span :: spans).map (Span.clamp i (span.start + b.length))) (a ++ b) ++
        '\n' :: replaceFrom redactLines (span.start + b.length + 1)
          ((span :: spans).map (Span.raise (span.start + b.length + 1))) (c ++ d) := by
  obtain ⟨-, single⟩ : '\n' ∉ a ∧ '\n' ∉ b := by simpa using single
  have front : span.clamp i (span.start + b.length) = ⟨span.start, span.start + b.length⟩ := by
    rw [Span.clamp, min_eq_left (by omega), min_eq_right (by omega), max_eq_right (by omega), max_eq_right (by omega)]
  have back : span.raise (span.start + b.length + 1) = ⟨span.start + b.length + 1, span.stop⟩ := by
    rw [Span.raise, max_eq_left (by omega), max_eq_right (by omega)]
  have first (others : List Span) : replaceFrom redactLine i (⟨span.start, span.start + b.length⟩ :: others) (a ++ b) =
      a ++ redactLine b := by
    have part : replaceFrom redactLine i (⟨span.start, span.start + b.length⟩ :: others) (a ++ b ++ []) =
        a ++ redactLine b ++ replaceFrom redactLine (span.start + b.length) others [] := replaceFrom_piece starts rfl
    simpa [replaceFrom_nil redactLine_nil] using part
  have second : replaceFrom redactLines (span.start + b.length + 1) (⟨span.start + b.length + 1, span.stop⟩ :: spans)
      (c ++ d) = redactLines c ++ replaceFrom redactLines span.stop spans d :=
    show replaceFrom redactLines _ _ ([] ++ c ++ d) = [] ++ redactLines c ++ _ from replaceFrom_piece rfl stops
  have whole : replaceFrom redactLines i (span :: spans) (a ++ (b ++ '\n' :: c) ++ d) =
      a ++ redactLines (b ++ '\n' :: c) ++ replaceFrom redactLines span.stop spans d :=
    replaceFrom_piece starts (by simp only [List.length_append, List.length_cons]; omega)
  rw [List.map_cons, List.map_cons, front, back, first, ordered.map_raise (by omega), second]
  simpa [redactLines_newline single] using whole

/-- Redaction taken apart at the first newline. Each piece is cut there in two, one of which may be empty. -/
lemma replaceFrom_newline (single : '\n' ∉ line)
    (ordered : Ordered (i + (line ++ '\n' :: rest).length) i spans) :
    replaceFrom redactLines i spans (line ++ '\n' :: rest) =
      replaceFrom redactLine i (spans.map (Span.clamp i (i + line.length))) line ++
        '\n' :: replaceFrom redactLines (i + line.length + 1) (spans.map (Span.raise (i + line.length + 1))) rest := by
  induction spans generalizing i line with
  | nil => rfl
  | cons span spans ih =>
    obtain _ | ⟨starts, stops, inside, ordered⟩ := ordered
    rcases Nat.lt_or_ge (i + line.length) span.start with after | before
    · -- All pieces stand behind the newline.
      have behind : Ordered (i + (line ++ '\n' :: rest).length) (i + line.length + 1) (span :: spans) :=
        .cons after stops inside ordered
      have stays : replaceFrom redactLine i ((span :: spans).map (Span.clamp i (i + line.length))) line = line :=
        replaceFrom_before redactLine_nil (behind.start_clamp (Nat.le_succ _))
      rw [stays, behind.map_raise le_rfl, ← List.singleton_append (l := rest), ← List.append_assoc,
        replaceFrom_append, List.append_assoc]
      · simp [Nat.add_assoc]
      · intro other member
        have starts := (behind.bounds other member).1
        simpa [Nat.add_assoc] using starts
    · obtain ⟨a, line, rfl, begins⟩ := exists_append (s := line) (k := span.start - i) (by omega)
      rcases Nat.lt_or_ge (i + (a ++ line).length) span.stop with across | within
      · obtain ⟨c, d, rfl, ends⟩ := exists_append (s := rest) (k := span.stop - (span.start + line.length + 1)) (by
          simp only [List.length_append, List.length_cons] at inside across ⊢
          omega)
        have final : i + (a ++ line).length = span.start + line.length := by
          rw [List.length_append]
          omega
        rw [final] at across ⊢
        exact replaceFrom_across single (by omega) (by omega) ordered
      · obtain ⟨b, c, rfl, ends⟩ := exists_append (s := line) (k := span.stop - span.start) (by
          rw [List.length_append] at within
          omega)
        have size : i + (a ++ (b ++ c) ++ '\n' :: rest).length = span.stop + (c ++ '\n' :: rest).length := by
          simp only [List.length_append]
          omega
        have final : i + (a ++ (b ++ c)).length = span.stop + c.length := by
          simp only [List.length_append]
          omega
        obtain ⟨-, single⟩ : '\n' ∉ a ∧ '\n' ∉ b ++ c := by simpa [not_or] using single
        have single' : '\n' ∉ c := fun member => single (List.mem_append_right b member)
        rw [final, ← List.append_assoc]
        exact replaceFrom_within single (by omega) (by omega) ordered (ih single' (size ▸ ordered))

/-- The lines of a redacted text are the lines of the text, each redacted where pieces stand on it. -/
lemma lines_replaceFrom (ordered : Ordered (i + s.length) i spans) :
    Text.lines (replaceFrom redactLines i spans s) = (Text.lines s).mapIdx fun n line =>
      replaceFrom redactLine (i + Text.lineStart s n)
        (spans.map (Span.clamp (i + Text.lineStart s n) (i + Text.lineStart s n + line.length))) line := by
  induction s using Text.piece_induction '\n' generalizing i spans with
  | last line single =>
    have whole : replaceFrom redactLines i spans line = replaceFrom redactLine i spans line :=
      replaceFrom_congr (fun part => redactLines_single) single
    rw [whole, Text.lines_single single,
      Text.lines_single (newline_notMem_replaceFrom (fun part => newline_notMem_redactLine) single)]
    simp [ordered.map_clamp_self]
  | more line rest single ih =>
    have fits : i + (line ++ '\n' :: rest).length = i + line.length + 1 + rest.length := by
      simp only [List.length_append, List.length_cons]
      omega
    have others : Ordered (i + line.length + 1 + rest.length) (i + line.length + 1)
        (spans.map (Span.raise (i + line.length + 1))) :=
      (fits ▸ ordered).raise _ (le_max_left _ _) (by omega)
    have first : '\n' ∉ replaceFrom redactLine i (spans.map (Span.clamp i (i + line.length))) line :=
      newline_notMem_replaceFrom (fun part => newline_notMem_redactLine) single
    rw [replaceFrom_newline single ordered, Text.lines_append_newline first, ih others,
      Text.lines_append_newline single, List.mapIdx_cons]
    congr 1
    congr 1
    funext n text
    have start : i + line.length + 1 + Text.lineStart rest n = i + Text.lineStart (line ++ '\n' :: rest) (n + 1) := by
      rw [Text.lineStart_succ single]
      omega
    have behind : i + line.length + 1 ≤ i + Text.lineStart (line ++ '\n' :: rest) (n + 1) := by omega
    have clamped (span : Span) := @Span.clamp_raise _ _ (i + Text.lineStart (line ++ '\n' :: rest) (n + 1) + text.length)
      span behind
    rw [start, List.map_map]
    simp only [Function.comp_def, clamped]

end

/-! ### Rows -/

/-- Every row shows a line under its own number, whatever the number of lines of context is. -/
lemma exists_of_mem_rows {content : List Char} {line context : Int} {shown : String}
    (member : shown ∈ rows content line context) :
    ∃ (n : Nat) (text : List Char), (Text.lines content)[n]? = some text ∧ shown = row n text := by
  obtain ⟨start, first⟩ := Int.eq_ofNat_of_zero_le (Int.le_max_left 0 (line - context - 1))
  unfold rows at member
  simp only [first, mem_numbered, Text.between, List.getElem?_drop] at member
  obtain ⟨k, text, here, rfl⟩ := member
  rw [Text.boundIndex_natCast] at here
  obtain ⟨inside, -⟩ := List.getElem?_eq_some_iff.mp here
  rw [List.length_take] at inside
  have index : min start (Text.lines content).length + k = start + k := by omega
  rw [index, List.getElem?_take] at here
  split at here
  · refine ⟨start + k, text, here, ?_⟩
    rw [row, Int.natCast_add, Int.add_right_comm]
  · cases here

end Excerpt

namespace BuiltinFamily

open Excerpt (InPlace around redactLine redactLines replaceFrom row rows)

/-- A line with no character of a match has no piece that is redacted. -/
lemma clamp_empty {start stop : Nat} {span : Span} (inside : start ≤ stop)
    (apart : ∀ k, start ≤ k → k < stop → ¬ (span.start ≤ k ∧ k < span.stop)) :
    (span.clamp start stop).stop ≤ (span.clamp start stop).start := by
  have first := apart (max start span.start)
  simp only [Span.clamp]
  omega

/-- The excerpt of a secret is cut from the content with each match of the rule redacted where it stands. Each match is
replaced by its redaction, line by line, and nothing else changes; so there are as many lines as before, and a line
differs only in the parts of the matches on it. Every row of the excerpt shows the line of its number. -/
theorem redaction_keeps_lines {rules : Ruleset} {context : Int} {path : String} {content : List Char} {rule : Rule}
    {finding : Finding} (found : evaluateSecret rules context (.of path content) rule = some finding) :
    ∃ (masked : List Char) (line : Nat), finding.lineStart = some (line : Int) ∧
      finding.snippet = some (around masked line context) ∧
      masked = (secretMatches rules (.of path content) rule).foldr (fun span text =>
        text.take span.start ++ redactLines (span.slice content.toArray) ++ text.drop span.stop) content ∧
      InPlace redactLines 0 (secretMatches rules (.of path content) rule) content masked ∧
      (Text.lines masked).length = (Text.lines content).length ∧
      (∀ n text, (Text.lines content)[n]? = some text → ∃ text', (Text.lines masked)[n]? = some text' ∧
        InPlace redactLine (Text.lineStart content n) ((secretMatches rules (.of path content) rule).map
          (Span.clamp (Text.lineStart content n) (Text.lineStart content n + text.length))) text text' ∧
        ((∀ span ∈ secretMatches rules (.of path content) rule, ∀ k, Text.lineStart content n ≤ k →
          k < Text.lineStart content n + text.length → ¬ (span.start ≤ k ∧ k < span.stop)) → text' = text)) ∧
      (∀ shown ∈ rows masked line context, ∃ n text', (Text.lines masked)[n]? = some text' ∧ shown = row n text') ∧
      (0 ≤ context → ∀ (n : Nat) text', (Text.lines masked)[n]? = some text' → line - context ≤ (n : Int) + 1 →
        (n : Int) + 1 ≤ line + context → row n text' ∈ rows masked line context) := by
  have ordered := secretMatches_ordered rules path content rule
  unfold evaluateSecret at found
  generalize secretMatches rules (.of path content) rule = spans at found ordered ⊢
  split at found
  · cases found
  next first others =>
  generalize first :: others = spans at found ordered ⊢
  obtain rfl := Option.some.inj found
  have ordered' : Ordered (0 + content.length) 0 spans := by rwa [Nat.zero_add]
  have lines := Excerpt.lines_replaceFrom ordered'
  refine ⟨Excerpt.mask spans content, _, rfl, rfl, ?_, ?_, ?_, ?_, fun shown => Excerpt.exists_of_mem_rows, ?_⟩
  · exact (Excerpt.foldr_eq_replaceFrom (show Ordered ([].length + content.length) [].length spans from ordered')).symm
  · exact Excerpt.inPlace_replaceFrom ordered'
  · rw [Excerpt.mask, lines, List.length_mapIdx]
  · intro n text here
    have fits := Nat.le_add_right (Text.lineStart content n) text.length
    refine ⟨_, by rw [Excerpt.mask, lines, List.getElem?_mapIdx, here]; rfl, ?_, fun apart => ?_⟩
    · rw [Nat.zero_add]
      exact Excerpt.inPlace_replaceFrom (ordered.clamp _ (Nat.le_max_left _ _) fits)
    · refine Excerpt.replaceFrom_empties Excerpt.redactLine_nil fun span member => ?_
      obtain ⟨whole, listed, rfl⟩ := List.mem_map.mp member
      rw [Nat.zero_add]
      exact clamp_empty fits (apart whole listed)
  · intro reaches n text' here near near'
    exact (Excerpt.mem_rows (by omega)).mpr ⟨n, text', here, near, near', rfl⟩

/-- A token on the line after its name. -/
def brokenAssignment : List Char := "const token =\n  \"SuperSecretValue123456\";\n".toList

theorem redaction_keeps_lines_broken :
    ∃ finding, evaluateSecret {} 2 (.of "a.js" brokenAssignment) Catalog.secrets[9] = some finding ∧
      ∃ masked line, finding.snippet = some (around masked line 2) ∧ (Text.lines masked).length = 3 := by
  have matches' : (evaluateSecret {} 2 (.of "a.js" brokenAssignment) Catalog.secrets[9]).isSome = true := by
    decide +kernel
  obtain ⟨finding, found⟩ := Option.isSome_iff_exists.mp matches'
  obtain ⟨masked, line, -, shown, -, -, count, -⟩ := redaction_keeps_lines found
  exact ⟨finding, found, masked, line, shown, count.trans (by decide)⟩

end BuiltinFamily

end RepoAudit
