import RepoAudit.Pattern.Reader
import RepoAudit.Proofs.Host.Reference
import RepoAudit.Proofs.Pattern.Pieces

/-!
# References as a pattern

The grammar of references can be written as a pattern, in which an owner takes up as much as it can and a name as little.
The pattern has several ways for the address of a clone, and the first leaves the ending out of the name: what is read is
what the pattern finds (`read_as_written`).
-/

namespace RepoAudit.Reference

open Pattern

/-- The grammar, written as a pattern. -/
def written : String :=
  "^(?:https?://(?:www\\.)?github\\.com/|git@github\\.com:)?" ++
    "(?P<owner>[A-Za-z0-9_.-]+)/(?P<name>[A-Za-z0-9_.-]+?)(?:\\.git)?/?$"

def nameClass : CharClass :=
  ⟨[.range 65 90, .range 97 122, .range 48 57, .range 95 95, .range 46 46, .range 45 45], false⟩

def webForm : Pattern :=
  sequence (letters "http" ++ Pattern.optional (.single 's') :: (letters "://" ++ maybe (literal "www.") ::
    letters "github.com/"))

/-- What may follow the name. -/
def endForms : List Pattern := [maybe (literal ".git"), Pattern.optional (.single '/'), .anchor .finalEnd]

/-- The pattern. -/
def form : Pattern :=
  sequence (.anchor .textStart :: maybe (.alt webForm (literal "git@github.com:")) ::
    .group 1 (atLeast 1 nameClass) :: .one (.single '/') :: .group 2 (.run nameClass 1 none .lazy) :: endForms)

deriving instance DecidableEq for Pattern

lemma read_written : Pattern.read written = .ok form := by
  have found : (Pattern.read written).toOption = some form := by decide +kernel
  cases is : Pattern.read written with
  | error failure =>
    rw [is] at found
    cases found
  | ok pattern =>
    rw [is] at found
    exact congrArg Except.ok (Option.some.inj found)

/-- The reference that a pattern finds in a text without the white space around it. -/
def matched (pattern : Pattern) (text : String) : Except Invalid Reference :=
  let chars := (Text.stripChars text.toList).toArray
  match matchFrom chars pattern done 0 [] with
  | none => .error ⟨text⟩
  | some hit =>
    match capture? hit.captures 1, capture? hit.captures 2 with
    | some (start, stop), some (start', stop') =>
      .ok ⟨String.ofList (Span.slice ⟨start, stop⟩ chars), String.ofList (Span.slice ⟨start', stop'⟩ chars)⟩
    | _, _ => .error ⟨text⟩

/-! ### Parts of the pattern -/

lemma ascii_of_isNameChar {c : Char} (plain : isNameChar c = true) : c.toNat < 128 := by
  simp only [isNameChar, Bool.or_eq_true, beq_iff_eq] at plain
  rcases plain with ((letter | rfl) | rfl) | rfl
  · have bounds := Text.toNat_of_isAlphanum letter
    omega
  all_goals decide

lemma contains_nameClass (c : Char) : nameClass.contains c = true ↔ isNameChar c = true := by
  have all : ∀ n < 128, nameClass.contains (Char.ofNat n) = isNameChar (Char.ofNat n) := by decide
  have same (ascii : c.toNat < 128) : nameClass.contains c = isNameChar c := by
    have same := all c.toNat ascii
    rwa [Char.ofNat_toNat] at same
  constructor
  · intro member
    have ascii : c.toNat < 128 := by
      simp [CharClass.contains, nameClass, ClassItem.holds] at member
      omega
    rwa [← same ascii]
  · intro plain
    rwa [same (ascii_of_isNameChar plain)]

lemma isName_iff {piece : List Char} :
    1 ≤ piece.length ∧ (∀ c ∈ piece, nameClass.contains c = true) ↔ IsName piece := by
  simp only [contains_nameClass]
  constructor
  · rintro ⟨some, plain⟩
    exact ⟨List.ne_nil_of_length_pos some, plain⟩
  · rintro ⟨any, plain⟩
    exact ⟨List.length_pos_of_ne_nil any, plain⟩

variable {s : List Char} {i : Nat} {captures : Captures} {way : Hit}

lemma mem_ways_webForm :
    way ∈ ways s.toArray webForm i captures ↔
      ∃ secure www, Takes s i captures (Opening.web secure www).text way := by
  have text (secure www : Bool) : (Opening.web secure www).text = "http".toList ++ (perhaps secure ['s'] ++
      ("://".toList ++ (perhaps www "www.".toList ++ "github.com/".toList))) := by
    cases secure <;> cases www <;> decide
  simp only [webForm, mem_ways_letters, mem_ways_sequence_cons, mem_ways_optional, mem_ways_maybe_literal, text,
    takes_append_iff]
  constructor
  · rintro ⟨a, http, b, ⟨secure, letter⟩, c, colon, d, ⟨www, label⟩, host⟩
    exact ⟨secure, www, a, http, b, letter, c, colon, d, label, mem_ways_literal.mp host⟩
  · rintro ⟨secure, www, a, http, b, letter, c, colon, d, label, host⟩
    exact ⟨a, http, b, ⟨secure, letter⟩, c, colon, d, ⟨www, label⟩, mem_ways_literal.mpr host⟩

lemma mem_ways_openings :
    way ∈ ways s.toArray (maybe (.alt webForm (literal "git@github.com:"))) i captures ↔
      ∃ opening : Opening, Takes s i captures opening.text way := by
  rw [ways_maybe, List.mem_append, List.mem_singleton, ways, List.mem_append, mem_ways_webForm, mem_ways_literal]
  constructor
  · rintro ((⟨secure, www, takes⟩ | takes) | rfl)
    · exact ⟨.web secure www, takes⟩
    · exact ⟨.clone, takes⟩
    · exact ⟨.bare, takes_nil_iff.mpr rfl⟩
  · rintro ⟨opening, takes⟩
    cases opening with
    | bare => exact .inr (takes_nil_iff.mp takes)
    | clone => exact .inl (.inr takes)
    | web secure www => exact .inl (.inl ⟨secure, www, takes⟩)

lemma mem_ways_name {number : Nat} {mode : Mode} (yields : mode ≠ .possessive) :
    way ∈ ways s.toArray (.group number (.run nameClass 1 none mode)) i captures ↔
      ∃ name, IsName name ∧ name <+: s.drop i ∧ way = ⟨i + name.length, (number, i, i + name.length) :: captures⟩ := by
  rw [ways, List.mem_map]
  simp only [mem_ways_run yields]
  constructor
  · rintro ⟨mid, ⟨name, some, -, plain, stands, rfl⟩, rfl⟩
    exact ⟨name, isName_iff.mp ⟨some, plain⟩, stands, rfl⟩
  · rintro ⟨name, isName, stands, rfl⟩
    obtain ⟨some, plain⟩ := isName_iff.mpr isName
    exact ⟨_, ⟨name, some, by simp, plain, stands, rfl⟩, rfl⟩

/-- No newline ends the text, so that the end is at its last position. -/
lemma holds_finalEnd (last : s.getLast? ≠ some '\n') (i : Nat) :
    Anchor.finalEnd.holds s.toArray i = true ↔ i = s.length := by
  have inside : ¬ (i + 1 = s.length ∧ s[i]? = some '\n') := by
    rintro ⟨before, there⟩
    rw [List.getLast?_eq_getElem?, ← before] at last
    exact last there
  simpa [Anchor.holds] using fun before there => absurd ⟨before, there⟩ inside

/-- What follows the name ends the text. -/
lemma mem_ways_endForms (last : s.getLast? ≠ some '\n') :
    way ∈ ways s.toArray (sequence endForms) i captures ↔
      ∃ clone closed, Takes s i captures (perhaps clone cloneEnding ++ perhaps closed ['/']) way ∧
        way.stop = s.length := by
  have final {way : Hit} (j : Nat) (inner : Captures) :
      way ∈ ways s.toArray (.anchor .finalEnd) j inner ↔ way = ⟨j, inner⟩ ∧ j = s.length := by
    show way ∈ (if Anchor.finalEnd.holds s.toArray j then [⟨j, inner⟩] else []) ↔ _
    rw [← holds_finalEnd last]
    split_ifs with holds
    · simp [holds]
    · simp [holds]
  simp only [endForms, mem_ways_sequence_cons, mem_ways_maybe_literal, mem_ways_optional, takes_append_iff]
  constructor
  · rintro ⟨a, ⟨clone, ending⟩, b, ⟨closed, slash⟩, c, anchored, member⟩
    obtain ⟨rfl, stop⟩ := (final _ _).mp anchored
    obtain rfl := List.mem_singleton.mp member
    exact ⟨clone, closed, ⟨a, ending, slash⟩, stop⟩
  · rintro ⟨clone, closed, ⟨a, ending, slash⟩, stop⟩
    exact ⟨a, ⟨clone, ending⟩, way, ⟨closed, slash⟩, way, (final _ _).mpr ⟨rfl, stop⟩, List.mem_singleton.mpr rfl⟩

/-! ### The first way -/

lemma slice_eq {piece : List Char} (stands : piece <+: s.drop i) :
    Span.slice ⟨i, i + piece.length⟩ s.toArray = piece := by
  simp [Span.slice, List.extract_eq_take_drop, (List.prefix_iff_eq_take.mp stands).symm]

/-- A text that is spelled by the grammar has a way. -/
lemma ways_form_ne_nil (last : s.getLast? ≠ some '\n') {spelling : Spelling} (spelled : spelling.text = s) :
    ways s.toArray form 0 [] ≠ [] := by
  obtain ⟨opening, owner, named, closed, isOwner, isNamed⟩ := spelling
  have whole : opening.text ++ (owner ++ (['/'] ++ (named ++ (perhaps false cloneEnding ++ perhaps closed ['/'])))) <+:
      s.drop 0 := by
    rw [List.drop_zero, ← spelled]
    exact List.prefix_rfl
  rw [append_prefix_drop_iff, append_prefix_drop_iff, append_prefix_drop_iff, append_prefix_drop_iff] at whole
  obtain ⟨opens, owned, slashed, names, closes⟩ := whole
  refine sequence_cons_ne_nil (List.mem_singleton.mpr (rfl : _ = (⟨0, []⟩ : Hit))) ?_
  refine sequence_cons_ne_nil (mem_ways_openings.mpr ⟨opening, opens, rfl⟩) ?_
  refine sequence_cons_ne_nil ((mem_ways_name (by decide)).mpr ⟨owner, isOwner, owned, rfl⟩) ?_
  refine sequence_cons_ne_nil (mem_ways_single.mpr ⟨slashed, rfl⟩) ?_
  refine sequence_cons_ne_nil ((mem_ways_name (by decide)).mpr ⟨named, isNamed, names, rfl⟩) ?_
  refine List.ne_nil_of_mem ((mem_ways_endForms last).mpr ⟨false, closed, ⟨closes, rfl⟩, ?_⟩)
  simp [← spelled, Spelling.text, perhaps]
  omega

/-- Where no shorter name goes on, the name has no ending of a clone. -/
lemma names_of_shortest (last : s.getLast? ≠ some '\n') {name : List Char} {closed : Bool}
    (stands : name ++ perhaps closed ['/'] <+: s.drop i)
    (stops : i + (name ++ perhaps closed ['/']).length = s.length)
    (shortest : ∀ n, 1 ≤ n → n < name.length →
      ways s.toArray (sequence endForms) (i + n) ((2, i, i + n) :: captures) = []) : Names name name := by
  refine .whole fun stem any is => ?_
  subst is
  have enough : 1 ≤ stem.length := List.length_pos_of_ne_nil any
  have none := shortest stem.length enough (by simp [cloneEnding])
  rw [List.append_assoc, append_prefix_drop_iff] at stands
  refine List.ne_nil_of_mem ((mem_ways_endForms last).mpr ⟨true, closed, ⟨stands.2, rfl⟩, ?_⟩) none
  simpa [perhaps, Nat.add_assoc] using stops

/-- The first way begins with an opening, an owner and a slash. -/
lemma exists_owner_of_first (first : (ways s.toArray form 0 []).head? = some way) :
    ∃ (opening : Opening) (owner : List Char), IsName owner ∧ opening.text <+: s.drop 0 ∧
      owner <+: s.drop opening.text.length ∧ ['/'] <+: s.drop (opening.text.length + owner.length) ∧
      (((ways s.toArray (.group 2 (.run nameClass 1 none .lazy))).andThen (ways s.toArray (sequence endForms)))
        (opening.text.length + owner.length + 1)
        [(1, opening.text.length, opening.text.length + owner.length)]).head? = some way := by
  rw [form, ways_sequence_cons] at first
  obtain ⟨mid, goes, first⟩ := exists_first first
  obtain rfl : mid = ⟨0, []⟩ := List.mem_singleton.mp goes
  rw [ways_sequence_cons] at first
  obtain ⟨mid, goes, first⟩ := exists_first first
  obtain ⟨opening, opens, rfl⟩ := mem_ways_openings.mp goes
  rw [ways_sequence_cons] at first
  obtain ⟨mid, goes, first⟩ := exists_first first
  obtain ⟨owner, isOwner, owned, rfl⟩ := (mem_ways_name (by decide)).mp goes
  rw [ways_sequence_cons] at first
  obtain ⟨mid, goes, first⟩ := exists_first first
  obtain ⟨slashed, rfl⟩ := mem_ways_single.mp goes
  rw [ways_sequence_cons] at first
  simp only [Nat.zero_add] at owned slashed first
  exact ⟨opening, owner, isOwner, opens, owned, slashed, first⟩

lemma isName_named {name : List Char} (isName : IsName name) (clone : Bool) :
    IsName (name ++ perhaps clone cloneEnding) := by
  cases clone with
  | false => rwa [perhaps, if_neg Bool.false_ne_true, List.append_nil]
  | true =>
    have ending : cloneEnding.all isNameChar = true := by decide
    refine ⟨by simp [isName.any], fun c member => ?_⟩
    rcases List.mem_append.mp member with inside | inside
    · exact isName.plain c inside
    · exact List.all_eq_true.mp ending c inside

/-- The first way goes along a spelling of the text, and the name that it remembers has no ending of a clone. -/
lemma spelling_of_first (last : s.getLast? ≠ some '\n') (first : (ways s.toArray form 0 []).head? = some way) :
    ∃ spelling : Spelling, spelling.text = s ∧ ∃ start stop start' stop',
      way.captures = [(2, start', stop'), (1, start, stop)] ∧ Span.slice ⟨start, stop⟩ s.toArray = spelling.owner ∧
      Names spelling.named (Span.slice ⟨start', stop'⟩ s.toArray) := by
  obtain ⟨opening, owner, isOwner, opens, owned, slashed, first⟩ := exists_owner_of_first first
  obtain ⟨name, some, plain, names, first, shortest⟩ := exists_first_lazy first
  obtain ⟨clone, closed, ⟨closes, rfl⟩, stops⟩ := (mem_ways_endForms last).mp (List.mem_of_head? first)
  have isName := isName_iff.mp ⟨some, plain⟩
  refine ⟨⟨opening, owner, name ++ perhaps clone cloneEnding, closed, isOwner, isName_named isName clone⟩, ?text,
    _, _, _, _, rfl, slice_eq owned, ?name⟩
  case text =>
    have whole : opening.text ++ (owner ++ (['/'] ++ (name ++ (perhaps clone cloneEnding ++ perhaps closed ['/'])))) <+:
        s.drop 0 := by
      rw [append_prefix_drop_iff, append_prefix_drop_iff, append_prefix_drop_iff, append_prefix_drop_iff, Nat.zero_add]
      exact ⟨opens, owned, slashed, names, closes⟩
    rw [Spelling.text, List.append_assoc]
    refine whole.eq_of_length ?_
    simp only [List.length_append, List.length_singleton, List.drop_zero] at stops ⊢
    omega
  case name =>
    rw [slice_eq names]
    cases clone with
    | true => exact .clone isName.any rfl
    | false =>
      show Names (name ++ []) name
      rw [List.append_nil]
      refine names_of_shortest last ((append_prefix_drop_iff name _).mpr ⟨names, closes⟩) ?_ shortest
      simpa [perhaps, Nat.add_assoc] using stops

/-! ### Reading and matching -/

lemma read_eq_matched (text : String) : read text = matched form text := by
  have last := Text.getLast?_stripChars_ne (show Text.isBlank '\n' = true by rfl) text.toList
  rw [matched, matchFrom_eq, Ways.first_done]
  cases first : (ways (Text.stripChars text.toList).toArray form 0 []).head? with
  | none =>
    rcases read_cases text with ⟨spelling, spelled, -⟩ | fails
    · exact absurd (List.head?_eq_none_iff.mp first) (ways_form_ne_nil last spelled)
    · exact fails
  | some way =>
    obtain ⟨spelling, spelled, start, stop, start', stop', remembered, owner, names⟩ := spelling_of_first last first
    rw [read_of_spelling spelled, Spelling.reference, names_iff.mp names, ← owner]
    have owned : capture? way.captures 1 = some (start, stop) := by
      rw [remembered]
      rfl
    have named : capture? way.captures 2 = some (start', stop') := by
      rw [remembered]
      rfl
    simp only [owned, named]

/-- What is read is what the written pattern finds, going back wherever it has to. -/
theorem read_as_written : ∃ pattern, Pattern.read written = .ok pattern ∧ ∀ text, read text = matched pattern text :=
  ⟨form, read_written, read_eq_matched⟩

end RepoAudit.Reference
