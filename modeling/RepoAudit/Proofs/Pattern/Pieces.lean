import RepoAudit.Proofs.Pattern.Ways

/-!
# The pieces of text that ways take up

A way goes from a position to the end of a piece that stands there (`Takes`). For the parts that patterns are built from,
these are the pieces: a word, a run of characters of a class, and what a part and the next one take up together.
-/

namespace RepoAudit.Pattern

variable {s piece : List Char} {i n : Nat} {captures : Captures} {way : Hit} {cls : CharClass}

/-- The piece stands at the position, and the way goes on after it. -/
def Takes (s : List Char) (i : Nat) (captures : Captures) (piece : List Char) (way : Hit) : Prop :=
  piece <+: s.drop i ∧ way = ⟨i + piece.length, captures⟩

/-- Two pieces stand one after the other. -/
lemma append_prefix_drop_iff (first second : List Char) :
    first ++ second <+: s.drop i ↔ first <+: s.drop i ∧ second <+: s.drop (i + first.length) := by
  rw [← List.drop_drop]
  constructor
  · rintro ⟨rest, is⟩
    rw [← is, List.append_assoc, List.drop_left]
    exact ⟨List.prefix_append _ _, List.prefix_append _ _⟩
  · rintro ⟨⟨rest, is⟩, stands⟩
    rw [← is, List.drop_left] at stands
    rw [← is]
    exact (List.prefix_append_right_inj first).mpr stands

lemma cons_prefix_drop_iff {c : Char} : c :: piece <+: s.drop i ↔ [c] <+: s.drop i ∧ piece <+: s.drop (i + 1) :=
  append_prefix_drop_iff [c] piece

lemma takes_append_iff (first second : List Char) :
    Takes s i captures (first ++ second) way ↔
      ∃ mid, Takes s i captures first mid ∧ Takes s mid.stop mid.captures second way := by
  simp only [Takes, append_prefix_drop_iff, List.length_append]
  constructor
  · rintro ⟨⟨stands, stands'⟩, rfl⟩
    exact ⟨_, ⟨stands, rfl⟩, stands', by rw [Nat.add_assoc]⟩
  · rintro ⟨-, ⟨stands, rfl⟩, stands', rfl⟩
    exact ⟨⟨stands, stands'⟩, by rw [Nat.add_assoc]⟩

lemma takes_nil_iff : Takes s i captures [] way ↔ way = ⟨i, captures⟩ := by
  simp [Takes]

/-! ### How far runs reach -/

lemma singleton_prefix_drop_iff {c : Char} : [c] <+: s.drop i ↔ s[i]? = some c := by
  rw [← List.head?_drop]
  cases s.drop i with
  | nil => simp
  | cons d rest => simp [eq_comm]

lemma classAt_iff : classAt s.toArray cls i = true ↔ ∃ c, [c] <+: s.drop i ∧ cls.contains c = true := by
  simp only [singleton_prefix_drop_iff, classAt, List.getElem?_toArray]
  cases s[i]? with
  | none => simp
  | some c => simp

lemma le_runStop (limit i : Nat) : i ≤ runStop s.toArray cls limit i := by
  induction limit generalizing i with
  | zero => exact Nat.le_refl i
  | succ limit ih =>
    rw [runStop]
    split_ifs
    · exact Nat.le_of_succ_le (ih (i + 1))
    · exact Nat.le_refl i

lemma le_runStop_iff (limit : Nat) :
    i + n ≤ runStop s.toArray cls limit i ↔
      n ≤ limit ∧ ∃ piece, piece.length = n ∧ piece <+: s.drop i ∧ ∀ c ∈ piece, cls.contains c = true := by
  induction limit generalizing i n with
  | zero =>
    rw [runStop]
    constructor
    · intro reaches
      obtain rfl : n = 0 := by omega
      exact ⟨Nat.le_refl 0, [], rfl, List.nil_prefix, by simp⟩
    · rintro ⟨none, -⟩
      omega
  | succ limit ih =>
    cases n with
    | zero => exact iff_of_true (le_runStop _ _) ⟨Nat.zero_le _, [], rfl, List.nil_prefix, by simp⟩
    | succ n =>
      rw [runStop]
      split_ifs with inside
      · obtain ⟨c, stands, member⟩ := classAt_iff.mp inside
        rw [Nat.add_comm n 1, ← Nat.add_assoc, ih]
        constructor
        · rintro ⟨within, piece, length, follows, members⟩
          refine ⟨by omega, c :: piece, by simp [length, Nat.add_comm], ?_, by simpa [member] using members⟩
          exact cons_prefix_drop_iff.mpr ⟨stands, follows⟩
        · rintro ⟨within, piece, length, stands, members⟩
          cases piece with
          | nil =>
            rw [List.length_nil] at length
            omega
          | cons d piece =>
            refine ⟨by omega, piece, by simpa [Nat.add_comm] using length, (cons_prefix_drop_iff.mp stands).2, ?_⟩
            exact (List.forall_mem_cons.mp members).2
      · refine iff_of_false (by omega) ?_
        rintro ⟨-, piece, length, stands, members⟩
        cases piece with
        | nil => cases length
        | cons c piece =>
          exact inside (classAt_iff.mpr ⟨c, (cons_prefix_drop_iff.mp stands).1, members c List.mem_cons_self⟩)

lemma le_runLimit_iff {size : Nat} {most : Option Nat} :
    n ≤ Ways.runLimit size most i ↔ (∀ count ∈ most, n ≤ count) ∧ n ≤ size - i := by
  cases most with
  | none => simp [Ways.runLimit]
  | some count =>
    show n ≤ min count (size - i) ↔ _
    rw [Nat.le_min]
    simp

lemma mem_ends {mode : Mode} (yields : mode ≠ .possessive) {start stop : Nat} :
    way ∈ Ways.ends mode start stop captures ↔ ∃ j, start ≤ j ∧ j ≤ stop ∧ way = ⟨j, captures⟩ := by
  have listed : way ∈ (List.range' start (stop - start + 1)).map (Hit.mk · captures) ∧ start ≤ stop ↔
      ∃ j, start ≤ j ∧ j ≤ stop ∧ way = ⟨j, captures⟩ := by
    simp only [List.mem_map, List.mem_range'_1]
    constructor
    · rintro ⟨⟨j, within, rfl⟩, some⟩
      exact ⟨j, by omega, by omega, rfl⟩
    · rintro ⟨j, after, before, rfl⟩
      exact ⟨⟨j, by omega, rfl⟩, by omega⟩
  rw [← listed]
  unfold Ways.ends
  split_ifs with none
  · exact iff_of_false List.not_mem_nil fun member => by omega
  · rw [and_iff_left (by omega)]
    cases mode with
    | greedy => simp
    | lazy => rfl
    | possessive => exact absurd rfl yields

/-! ### Ways of the parts -/

lemma mem_ways_run {least : Nat} {most : Option Nat} {mode : Mode} (yields : mode ≠ .possessive) :
    way ∈ ways s.toArray (.run cls least most mode) i captures ↔
      ∃ piece, least ≤ piece.length ∧ (∀ count ∈ most, piece.length ≤ count) ∧ (∀ c ∈ piece, cls.contains c = true) ∧
        Takes s i captures piece way := by
  rw [ways, Ways.ofRun, mem_ends yields]
  constructor
  · rintro ⟨j, enough, within, rfl⟩
    obtain ⟨n, rfl⟩ := Nat.exists_eq_add_of_le (Nat.le_trans (Nat.le_add_right i least) enough)
    obtain ⟨few, piece, rfl, stands, members⟩ := (le_runStop_iff _).mp within
    exact ⟨piece, by omega, (le_runLimit_iff.mp few).1, members, stands, rfl⟩
  · rintro ⟨piece, enough, few, members, stands, rfl⟩
    have inside : piece.length ≤ s.length - i := by simpa using stands.length_le
    refine ⟨i + piece.length, by omega, ?_, rfl⟩
    exact (le_runStop_iff _).mpr ⟨le_runLimit_iff.mpr ⟨few, inside⟩, piece, rfl, stands, members⟩

lemma contains_single_iff {c d : Char} : (CharClass.single c).contains d = true ↔ d = c := by
  have order : c.toNat ≤ d.toNat ∧ d.toNat ≤ c.toNat ↔ d = c := by
    rw [← Char.toNat_inj]
    omega
  simp [CharClass.contains, CharClass.single, ClassItem.holds, order]

lemma mem_ways_single {c : Char} :
    way ∈ ways s.toArray (.one (.single c)) i captures ↔ Takes s i captures [c] way := by
  show way ∈ (if classAt s.toArray (.single c) i then [⟨i + 1, captures⟩] else []) ↔ _
  have here : classAt s.toArray (.single c) i = true ↔ [c] <+: s.drop i := by
    simp only [classAt_iff, contains_single_iff, exists_eq_right]
  split_ifs with inside
  · rw [List.mem_singleton]
    exact (and_iff_right (here.mp inside)).symm
  · exact iff_of_false List.not_mem_nil fun takes => inside (here.mpr takes.1)

/-- A word, or nothing. -/
def perhaps (there : Bool) (word : List Char) : List Char := if there then word else []

lemma mem_ways_optional {c : Char} :
    way ∈ ways s.toArray (Pattern.optional (.single c)) i captures ↔
      ∃ there, Takes s i captures (perhaps there [c]) way := by
  rw [Pattern.optional, mem_ways_run (by decide)]
  constructor
  · rintro ⟨piece, -, few, members, takes⟩
    cases piece with
    | nil => exact ⟨false, takes⟩
    | cons d piece =>
      obtain rfl : piece = [] := List.length_eq_zero_iff.mp (Nat.le_zero.mp (Nat.le_of_succ_le_succ (few 1 rfl)))
      obtain rfl := contains_single_iff.mp (members d List.mem_cons_self)
      exact ⟨true, takes⟩
  · rintro ⟨there, takes⟩
    refine ⟨_, Nat.zero_le _, ?_, ?_, takes⟩
    · intro count is
      obtain rfl := Option.mem_some_iff.mp is
      cases there <;> simp [perhaps]
    · intro d member
      cases there with
      | false => cases member
      | true => exact contains_single_iff.mpr (List.mem_singleton.mp member)

section Sequence

variable {text : Array Char} {pattern : Pattern} {patterns : List Pattern}

lemma ways_sequence_cons :
    ways text (sequence (pattern :: patterns)) = (ways text pattern).andThen (ways text (sequence patterns)) := by
  cases patterns with
  | nil =>
    funext i captures
    exact (List.flatMap_singleton' _).symm
  | cons next rest => rfl

lemma mem_ways_sequence_cons :
    way ∈ ways text (sequence (pattern :: patterns)) i captures ↔
      ∃ mid ∈ ways text pattern i captures, way ∈ ways text (sequence patterns) mid.stop mid.captures := by
  rw [ways_sequence_cons]
  exact List.mem_flatMap

lemma sequence_cons_ne_nil {mid : Hit} (goes : mid ∈ ways text pattern i captures)
    (rest : ways text (sequence patterns) mid.stop mid.captures ≠ []) :
    ways text (sequence (pattern :: patterns)) i captures ≠ [] := by
  obtain ⟨way, member⟩ := List.exists_mem_of_ne_nil _ rest
  exact List.ne_nil_of_mem (mem_ways_sequence_cons.mpr ⟨mid, goes, member⟩)

/-- The first way of a sequence begins with a way of its first part. -/
lemma exists_first {more : Ways} (first : ((ways text pattern).andThen more i captures).head? = some way) :
    ∃ mid ∈ ways text pattern i captures, (more mid.stop mid.captures).head? = some way := by
  rw [Ways.andThen, List.head?_flatMap] at first
  exact List.exists_of_findSome?_eq_some first

end Sequence

/-- Letters one after the other stand for the word that they spell. -/
def letters (word : String) : List Pattern := word.toList.map fun c => .one (.single c)

lemma mem_ways_letters {word : String} {patterns : List Pattern} :
    way ∈ ways s.toArray (sequence (letters word ++ patterns)) i captures ↔
      ∃ mid, Takes s i captures word.toList mid ∧ way ∈ ways s.toArray (sequence patterns) mid.stop mid.captures := by
  rw [letters]
  induction word.toList generalizing i captures with
  | nil => simp [takes_nil_iff]
  | cons c word ih =>
    rw [List.map_cons, List.cons_append, mem_ways_sequence_cons]
    constructor
    · rintro ⟨mid, one, member⟩
      obtain ⟨mid', others, member⟩ := ih.mp member
      exact ⟨mid', (takes_append_iff [c] word).mpr ⟨mid, mem_ways_single.mp one, others⟩, member⟩
    · rintro ⟨mid', takes, member⟩
      obtain ⟨mid, one, others⟩ := (takes_append_iff [c] word).mp takes
      exact ⟨mid, mem_ways_single.mpr one, ih.mpr ⟨mid', others, member⟩⟩

lemma mem_ways_literal {word : String} :
    way ∈ ways s.toArray (literal word) i captures ↔ Takes s i captures word.toList way := by
  have spelled : way ∈ ways s.toArray (sequence (letters word ++ [])) i captures ↔
      ∃ mid, Takes s i captures word.toList mid ∧ way ∈ ways s.toArray .empty mid.stop mid.captures :=
    mem_ways_letters
  rw [List.append_nil] at spelled
  refine spelled.trans ⟨?_, fun takes => ⟨way, takes, List.mem_singleton.mpr rfl⟩⟩
  rintro ⟨mid, takes, member⟩
  obtain rfl : way = mid := List.mem_singleton.mp member
  exact takes

lemma ways_maybe {text : Array Char} {pattern : Pattern} :
    ways text (maybe pattern) i captures = ways text pattern i captures ++ [⟨i, captures⟩] := by
  have last (j : Nat) (inner : Captures) :
      Ways.moreGreedy (ways text pattern) text.size (some 0) j inner = [⟨j, inner⟩] := by
    rw [Ways.moreGreedy, if_pos rfl]
  have once : Ways.moreGreedy (ways text pattern) text.size (some 1) i captures =
      ways text pattern i captures ++ [⟨i, captures⟩] := by
    rw [Ways.moreGreedy, if_neg (by simp)]
    simp only [Option.map_some, Nat.sub_self, last, dite_eq_ite, ite_self, List.flatMap_singleton']
  exact (List.flatMap_singleton _ _).trans once

lemma mem_ways_maybe_literal {word : String} :
    way ∈ ways s.toArray (maybe (literal word)) i captures ↔
      ∃ there, Takes s i captures (perhaps there word.toList) way := by
  rw [ways_maybe, List.mem_append, mem_ways_literal, List.mem_singleton]
  constructor
  · rintro (takes | rfl)
    · exact ⟨true, takes⟩
    · exact ⟨false, takes_nil_iff.mpr rfl⟩
  · rintro ⟨there, takes⟩
    cases there with
    | true => exact .inl takes
    | false => exact .inr (takes_nil_iff.mp takes)

/-! ### The first way after a run -/

lemma exists_least {α : Type} {f : Nat → Option α} {start stop : Nat} {a : α} (some : start ≤ stop)
    (found : (List.range' start (stop - start + 1)).findSome? f = .some a) :
    ∃ j, start ≤ j ∧ j ≤ stop ∧ f j = .some a ∧ ∀ k, start ≤ k → k < j → f k = none := by
  obtain ⟨before, j, after, split, here, unfit⟩ := List.findSome?_eq_some_iff.mp found
  have range (k : Nat) : start ≤ k ∧ k ≤ stop ↔ k ∈ before ∨ k = j ∨ k ∈ after := by
    rw [← List.mem_cons, ← List.mem_append, ← split, List.mem_range'_1]
    omega
  obtain ⟨low, high⟩ := (range j).mpr (.inr (.inl rfl))
  refine ⟨j, low, high, here, fun k after' less => ?_⟩
  rcases (range k).mp ⟨after', by omega⟩ with earlier | rfl | later
  · exact unfit k earlier
  · exact absurd less (Nat.lt_irrefl _)
  · have ordered := List.pairwise_lt_range' (s := start) (n := stop - start + 1)
    rw [split, List.pairwise_append, List.pairwise_cons] at ordered
    exact absurd (ordered.2.1.1 k later) (Nat.lt_asymm less)

/-- Where a run takes up as little as possible, the first way takes up a piece such that no shorter one goes on. -/
lemma exists_first_lazy {number least : Nat} {more : Ways}
    (first : ((ways s.toArray (.group number (.run cls least none .lazy))).andThen more i captures).head? = some way) :
    ∃ piece, least ≤ piece.length ∧ (∀ c ∈ piece, cls.contains c = true) ∧ piece <+: s.drop i ∧
      (more (i + piece.length) ((number, i, i + piece.length) :: captures)).head? = some way ∧
      ∀ n, least ≤ n → n < piece.length → more (i + n) ((number, i, i + n) :: captures) = [] := by
  rw [Ways.andThen, List.head?_flatMap] at first
  change (((Ways.ends .lazy (i + least) (runStop s.toArray cls (Ways.runLimit s.toArray.size none i) i) captures).map
    fun way => Hit.mk way.stop ((number, i, way.stop) :: way.captures)).findSome? _) = some way at first
  unfold Ways.ends at first
  split_ifs at first with short
  · cases first
  · simp only [List.findSome?_map] at first
    obtain ⟨j, low, high, here, unfit⟩ := exists_least (Nat.not_lt.mp short) first
    obtain ⟨n, rfl⟩ := Nat.exists_eq_add_of_le (Nat.le_trans (Nat.le_add_right i least) low)
    obtain ⟨-, piece, rfl, stands, members⟩ := (le_runStop_iff _).mp high
    refine ⟨piece, by omega, members, stands, here, fun n enough less => ?_⟩
    exact List.head?_eq_none_iff.mp (unfit (i + n) (by omega) (by omega))

end RepoAudit.Pattern
