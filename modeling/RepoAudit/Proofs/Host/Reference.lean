import Mathlib.Data.List.Nodup
import RepoAudit.Host.Reference
import RepoAudit.Proofs.Text.Basic

/-!
# The grammar of references

A reference is spelled as an opening, the owner, a slash, the name and perhaps another slash (`Spelling`). A text has at
most one spelling, although the marks of openings and endings are characters of names too: no opening is a part of
another, and each has a mark before its first slash that no name has. What is read is the spelling of the text without
the white space around it.
-/

namespace RepoAudit.Reference

/-- What may stand before the owner. -/
inductive Opening where
  | bare
  | clone
  | web (secure www : Bool)
  deriving DecidableEq

def Opening.text : Opening → List Char
  | .bare => []
  | .clone => "git@github.com:".toList
  | .web secure www =>
    (if secure then "https://" else "http://").toList ++ (if www then "www." else "").toList ++ "github.com/".toList

/-- Letters, digits and three marks, and at least one of them. -/
structure IsName (s : List Char) : Prop where
  any : s ≠ []
  plain : ∀ c ∈ s, isNameChar c = true

instance (s : List Char) : Decidable (IsName s) :=
  decidable_of_iff (s ≠ [] ∧ s.all isNameChar = true)
    ⟨fun ⟨any, plain⟩ => ⟨any, List.all_eq_true.mp plain⟩, fun ⟨any, plain⟩ => ⟨any, List.all_eq_true.mpr plain⟩⟩

/-- A reference as it is spelled. -/
structure Spelling where
  opening : Opening
  owner : List Char
  named : List Char
  /-- There is a slash at the end. -/
  closed : Bool
  isOwner : IsName owner
  isNamed : IsName named

def Spelling.text (spelling : Spelling) : List Char :=
  spelling.opening.text ++ (spelling.owner ++ '/' :: (spelling.named ++ if spelling.closed then ['/'] else []))

/-- The name that a text stands for: an ending of clones does not count, if something stands before it. -/
inductive Names (named : List Char) : List Char → Prop where
  | clone {name : List Char} (any : name ≠ []) (ending : named = name ++ cloneEnding) : Names named name
  | whole (other : ∀ name, name ≠ [] → named ≠ name ++ cloneEnding) : Names named named

/-! ### Names -/

lemma names_dropCloneEnding (named : List Char) : Names named (dropCloneEnding named) := by
  rw [dropCloneEnding]
  split_ifs with ends
  · obtain ⟨suffix, longer⟩ : cloneEnding <:+ named ∧ cloneEnding.length < named.length := by simpa using ends
    obtain ⟨name, rfl⟩ := suffix
    have kept : (name ++ cloneEnding).take ((name ++ cloneEnding).length - cloneEnding.length) = name := by simp
    rw [kept]
    refine .clone ?_ rfl
    rintro rfl
    exact absurd longer (lt_irrefl _)
  · refine .whole fun name any is => ends ?_
    have longer : 0 < name.length := List.length_pos_of_ne_nil any
    simp [is, longer]

lemma Names.unique {named name other : List Char} (names : Names named name) (names' : Names named other) :
    name = other := by
  cases names with
  | clone any ending =>
    cases names' with
    | clone any' ending' => exact List.append_cancel_right (ending.symm.trans ending')
    | whole plain => exact absurd ending (plain _ any)
  | whole plain =>
    cases names' with
    | clone any ending => exact absurd ending (plain _ any)
    | whole _ => rfl

lemma names_iff {named name : List Char} : Names named name ↔ dropCloneEnding named = name := by
  constructor
  · exact (names_dropCloneEnding named).unique
  · rintro rfl
    exact names_dropCloneEnding named

/-! ### Openings -/

def Opening.all : List Opening :=
  [.bare, .web true true, .web true false, .web false true, .web false false, .clone]

lemma Opening.mem_all (opening : Opening) : opening ∈ all := by
  cases opening with
  | bare | clone => decide
  | web secure www => cases secure <;> cases www <;> decide

/-- Openings are the empty text and the addresses. -/
lemma map_text_all : Opening.all.map Opening.text = [] :: addresses := by decide

lemma text_mem (opening : Opening) : opening.text = [] ∨ opening.text ∈ addresses := by
  have listed : opening.text ∈ Opening.all.map Opening.text := List.mem_map_of_mem opening.mem_all
  rwa [map_text_all, List.mem_cons] at listed

lemma exists_text {address : List Char} (known : address ∈ addresses) : ∃ opening : Opening, opening.text = address := by
  have listed : address ∈ Opening.all.map Opening.text := by
    rw [map_text_all]
    exact .tail _ known
  obtain ⟨opening, -, is⟩ := List.mem_map.mp listed
  exact ⟨opening, is⟩

lemma Opening.eq_of_text {opening other : Opening} (same : opening.text = other.text) : opening = other := by
  have distinct : (Opening.all.map Opening.text).Nodup := by decide
  exact List.inj_on_of_nodup_map distinct opening.mem_all other.mem_all same

/-- No address begins another. -/
lemma eq_of_prefix_addresses {address other s : List Char} (known : address ∈ addresses) (known' : other ∈ addresses)
    (starts : address <+: s) (starts' : other <+: s) : address = other := by
  have free : ∀ address ∈ addresses, ∀ other ∈ addresses, address <+: other → address = other := by decide
  rcases List.prefix_or_prefix_of_prefix starts starts' with first | second
  · exact free _ known _ known' first
  · exact (free _ known' _ known second).symm

section

variable {owner : List Char}

lemma takeWhile_owner (isOwner : IsName owner) (rest : List Char) :
    (owner ++ '/' :: rest).takeWhile isNameChar = owner := by
  rw [List.takeWhile_append_of_pos isOwner.plain, List.takeWhile_cons_of_neg (by decide), List.append_nil]

lemma dropWhile_owner (isOwner : IsName owner) (rest : List Char) :
    (owner ++ '/' :: rest).dropWhile isNameChar = '/' :: rest := by
  rw [List.dropWhile_append_of_pos isOwner.plain, List.dropWhile_cons_of_neg (by decide)]

/-- An address has a mark that no name has before its first slash. -/
lemma not_prefix_owner {address : List Char} (known : address ∈ addresses) (isOwner : IsName owner) (rest : List Char) :
    ¬ address <+: owner ++ '/' :: rest := by
  have marked : ∀ address ∈ addresses, (address.dropWhile isNameChar).head?.any (· ≠ '/') = true := by decide
  have mark := marked address known
  rintro ⟨more, is⟩
  cases remains : address.dropWhile isNameChar with
  | nil =>
    rw [remains] at mark
    cases mark
  | cons c after =>
    have same : c :: (after ++ more) = '/' :: rest := by
      rw [← dropWhile_owner isOwner rest, ← is, List.dropWhile_append, remains]
      rfl
    rw [remains, (List.cons.inj same).1] at mark
    cases mark

end

lemma afterAddress_cases (s : List Char) :
    (∃ address ∈ addresses, s = address ++ afterAddress s) ∨
      (∀ address ∈ addresses, ¬ address <+: s) ∧ afterAddress s = s := by
  rw [afterAddress]
  cases is : addresses.find? (·.isPrefixOf s) with
  | some address =>
    have starts : address.isPrefixOf s = true := List.find?_some (p := fun known : List Char => known.isPrefixOf s) is
    refine .inl ⟨address, List.mem_of_find?_eq_some is, ?_⟩
    exact (List.prefix_iff_eq_append.mp (List.isPrefixOf_iff_prefix.mp starts)).symm
  | none =>
    refine .inr ⟨fun address known starts => ?_, rfl⟩
    exact List.find?_eq_none.mp is address known (List.isPrefixOf_iff_prefix.mpr starts)

lemma exists_opening (s : List Char) : ∃ opening : Opening, s = opening.text ++ afterAddress s := by
  rcases afterAddress_cases s with ⟨address, known, is⟩ | ⟨-, is⟩
  · obtain ⟨opening, rfl⟩ := exists_text known
    exact ⟨opening, is⟩
  · exact ⟨.bare, is.symm⟩

/-- What follows an opening is found. -/
lemma afterAddress_append (opening : Opening) {owner : List Char} (isOwner : IsName owner) (rest : List Char) :
    afterAddress (opening.text ++ (owner ++ '/' :: rest)) = owner ++ '/' :: rest := by
  rcases afterAddress_cases (opening.text ++ (owner ++ '/' :: rest)) with ⟨address, known, is⟩ | ⟨none, is⟩
  · rcases text_mem opening with bare | listed
    · rw [bare, List.nil_append] at is
      exact absurd ⟨_, is.symm⟩ (not_prefix_owner known isOwner rest)
    · obtain rfl := eq_of_prefix_addresses listed known (List.prefix_append _ _) ⟨_, is.symm⟩
      exact (List.append_cancel_left is).symm
  · rcases text_mem opening with bare | listed
    · rw [is, bare, List.nil_append]
    · exact absurd (List.prefix_append _ _) (none _ listed)

/-! ### Slashes at the end -/

lemma IsName.slash_notMem {s : List Char} (isName : IsName s) : '/' ∉ s := by
  intro member
  cases isName.plain _ member

lemma exists_closed (s : List Char) : ∃ closed : Bool, s = dropSlash s ++ if closed then ['/'] else [] := by
  rw [dropSlash]
  split_ifs with last
  · have any : s ≠ [] := by
      rintro rfl
      cases last
    have slash : s.getLast any = '/' := by
      rw [List.getLast?_eq_some_getLast any] at last
      simpa using last
    exact ⟨true, by rw [if_pos rfl, ← slash, List.dropLast_append_getLast]⟩
  · exact ⟨false, by simp⟩

lemma dropSlash_append {named : List Char} (isNamed : IsName named) (closed : Bool) :
    dropSlash (named ++ if closed then ['/'] else []) = named := by
  cases closed with
  | true => simp [dropSlash]
  | false =>
    have other : named.getLast? ≠ some '/' := fun last => isNamed.slash_notMem (List.mem_of_getLast? last)
    simp [dropSlash, other]

/-! ### Reading -/

def Spelling.reference (spelling : Spelling) : Reference :=
  ⟨String.ofList spelling.owner, String.ofList (dropCloneEnding spelling.named)⟩

lemma reference_eq_iff {spelling : Spelling} {reference : Reference} :
    spelling.reference = reference ↔
      spelling.owner = reference.owner.toList ∧ Names spelling.named reference.name.toList := by
  obtain ⟨owner, name⟩ := reference
  rw [Spelling.reference, mk.injEq, names_iff, ← String.toList_inj, ← String.toList_inj, String.toList_ofList,
    String.toList_ofList]

lemma read_of_spelling {spelling : Spelling} {text : String} (spelled : spelling.text = Text.stripChars text.toList) :
    read text = .ok spelling.reference := by
  have body : afterAddress (Text.stripChars text.toList) =
      spelling.owner ++ '/' :: (spelling.named ++ if spelling.closed then ['/'] else []) := by
    rw [← spelled, Spelling.text, afterAddress_append _ spelling.isOwner]
  have all : spelling.named.all isNameChar = true := List.all_eq_true.mpr spelling.isNamed.plain
  simp [read, body, takeWhile_owner spelling.isOwner, dropWhile_owner spelling.isOwner,
    dropSlash_append spelling.isNamed, spelling.isOwner.any, spelling.isNamed.any, all, Spelling.reference]

lemma read_cases (text : String) :
    (∃ spelling : Spelling, spelling.text = Text.stripChars text.toList ∧ read text = .ok spelling.reference) ∨
      read text = .error ⟨text⟩ := by
  obtain ⟨opening, whole⟩ := exists_opening (Text.stripChars text.toList)
  simp only [read]
  split
  next rest after =>
    obtain ⟨closed, ending⟩ := exists_closed rest
    split_ifs with unfit
    · exact .inr rfl
    · obtain ⟨⟨owner, named⟩, plain⟩ : ((afterAddress (Text.stripChars text.toList)).takeWhile isNameChar ≠ [] ∧
          dropSlash rest ≠ []) ∧ ∀ c ∈ dropSlash rest, isNameChar c = true := by simpa using unfit
      refine .inl ⟨⟨opening, _, _, closed, ⟨owner, fun c => List.mem_takeWhile_imp⟩, ⟨named, plain⟩⟩, ?_, rfl⟩
      rw [Spelling.text, ← ending, ← after, List.takeWhile_append_dropWhile, ← whole]
  next => exact .inr rfl

/-- A text has one spelling. -/
lemma Spelling.eq_of_text {spelling other : Spelling} (same : spelling.text = other.text) : spelling = other := by
  obtain ⟨opening, owner, named, closed, isOwner, isNamed⟩ := spelling
  obtain ⟨opening', owner', named', closed', isOwner', isNamed'⟩ := other
  simp only [Spelling.text] at same
  have body := congrArg afterAddress same
  rw [afterAddress_append _ isOwner, afterAddress_append _ isOwner'] at body
  obtain rfl : owner = owner' := by rw [← takeWhile_owner isOwner, body, takeWhile_owner isOwner']
  have rest := (List.cons.inj (List.append_cancel_left body)).2
  obtain rfl : named = named' := by rw [← dropSlash_append isNamed, rest, dropSlash_append isNamed']
  have ends := List.append_cancel_left rest
  obtain rfl : closed = closed' := by cases closed <;> cases closed' <;> first | rfl | cases ends
  obtain rfl := Opening.eq_of_text (List.append_cancel_right same)
  rfl

/-! ### White space around a spelling -/

lemma isBlank_of_isNameChar {c : Char} (plain : isNameChar c = true) : Text.isBlank c = false := by
  simp only [isNameChar, Bool.or_eq_true, beq_iff_eq] at plain
  rcases plain with ((letter | rfl) | rfl) | rfl
  · exact Text.isBlank_of_isAlphanum letter
  all_goals rfl

lemma isBlank_of_mem_text {spelling : Spelling} {c : Char} (member : c ∈ spelling.text) : Text.isBlank c = false := by
  have fixed : ∀ opening ∈ Opening.all, opening.text.all (fun c => !Text.isBlank c) = true := by decide
  simp only [Spelling.text, List.mem_append, List.mem_cons] at member
  rcases member with opening | owner | rfl | named | closed
  · simpa using List.all_eq_true.mp (fixed _ spelling.opening.mem_all) c opening
  · exact isBlank_of_isNameChar (spelling.isOwner.plain c owner)
  · rfl
  · exact isBlank_of_isNameChar (spelling.isNamed.plain c named)
  · split_ifs at closed
    · rw [List.mem_singleton.mp closed]
      rfl
    · cases closed

lemma Spelling.text_ne_nil (spelling : Spelling) : spelling.text ≠ [] := by
  simp [Spelling.text]

lemma read_padded {spelling : Spelling} {before after : List Char} (blank : before.all Text.isBlank = true)
    (blank' : after.all Text.isBlank = true) :
    read (String.ofList (before ++ (spelling.text ++ after))) = .ok spelling.reference := by
  refine read_of_spelling ?_
  rw [String.toList_ofList, Text.stripChars_padded spelling.text_ne_nil (fun _ member => isBlank_of_mem_text member)
    (List.all_eq_true.mp blank) (List.all_eq_true.mp blank')]

lemma names_plain {named name : List Char} (any : name ≠ []) (plain : ¬ cloneEnding <:+ name)
    (ending : named ∈ [name, name ++ cloneEnding]) : Names named name := by
  simp only [List.mem_cons, List.not_mem_nil, or_false] at ending
  rcases ending with rfl | rfl
  · exact .whole fun name _ is => plain ⟨name, is.symm⟩
  · exact .clone any rfl

/-- What is read are the texts of the grammar, with white space around them: the owner as it is spelled, and the name
without an ending of clones. The spelling of a text is the only one, and a text without one is refused. A name that does
not end like a clone is read from each of its spellings. -/
theorem read_iff_spelled :
    (∀ (text : String) (reference : Reference), read text = .ok reference ↔
      ∃ spelling : Spelling, spelling.text = Text.stripChars text.toList ∧ spelling.owner = reference.owner.toList ∧
        Names spelling.named reference.name.toList) ∧
      (∀ spelling other : Spelling, spelling.text = other.text → spelling = other) ∧
      (∀ text : String, (∀ spelling : Spelling, spelling.text ≠ Text.stripChars text.toList) →
        read text = .error ⟨text⟩) ∧
      ∀ (reference : Reference) (spelling : Spelling) (before after : List Char),
        spelling.owner = reference.owner.toList → reference.name.toList ≠ [] →
        ¬ cloneEnding <:+ reference.name.toList →
        spelling.named ∈ [reference.name.toList, reference.name.toList ++ cloneEnding] →
        before.all Text.isBlank = true → after.all Text.isBlank = true →
        read (String.ofList (before ++ (spelling.text ++ after))) = .ok reference := by
  refine ⟨fun text reference => ⟨?sound, ?complete⟩, fun _ _ => Spelling.eq_of_text, ?refused, ?recovered⟩
  case sound =>
    intro reads
    rcases read_cases text with ⟨spelling, spelled, is⟩ | fails
    · obtain rfl := Except.ok.inj (is.symm.trans reads)
      exact ⟨spelling, spelled, reference_eq_iff.mp rfl⟩
    · cases fails.symm.trans reads
  case complete =>
    rintro ⟨spelling, spelled, names⟩
    rw [read_of_spelling spelled, reference_eq_iff.mpr names]
  case refused =>
    intro text none
    rcases read_cases text with ⟨spelling, spelled, -⟩ | fails
    · exact absurd spelled (none spelling)
    · exact fails
  case recovered =>
    intro reference spelling before after owner any plain ending blank blank'
    rw [read_padded blank blank', reference_eq_iff.mpr ⟨owner, names_plain any plain ending⟩]

/-- The address of a clone with white space around it, and a text with white space inside. -/
theorem read_iff_spelled_clone :
    read " https://github.com/octo-org/tool.js.git/\n" = .ok ⟨"octo-org", "tool.js"⟩ ∧
      read "octo org/tool.js" = .error ⟨"octo org/tool.js"⟩ := by
  obtain ⟨-, -, refused, recovered⟩ := read_iff_spelled
  constructor
  · exact recovered ⟨"octo-org", "tool.js"⟩ ⟨.web true false, "octo-org".toList, "tool.js.git".toList, true, by decide,
      by decide⟩ [' '] ['\n'] rfl (by decide) (by decide) (by decide) rfl rfl
  · refine refused _ fun spelling is => ?_
    have inside : ' ' ∈ spelling.text := by
      rw [is]
      decide
    cases isBlank_of_mem_text inside

end RepoAudit.Reference
