import RepoAudit.Proofs.Json.Plain
import RepoAudit.Proofs.Json.Token

/-!
# Values that were written

A plain value is read as it was written, but for the order of members and for members of one name
(`Json.settled`). `Json.Reads` says of a text that it is read as a value wherever it stands, so arrays and
objects follow from their parts; the induction is on the depth to which the value is nested.
-/

namespace RepoAudit.Json

lemma ok_bind {ε α β : Type} (a : α) (next : α → Except ε β) :
    ((.ok a : Except ε α) >>= next) = next a := rfl

/-! ## Blanks -/

lemma skipSpace_append {blanks : List Char} (all : ∀ c ∈ blanks, isSpace c = true) (rest : List Char) :
    skipSpace (blanks ++ rest) = skipSpace rest := by
  rw [skipSpace, List.dropWhile_append_of_pos all, skipSpace]

lemma skipSpace_cons {c : Char} (solid : isSpace c = false) (rest : List Char) :
    skipSpace (c :: rest) = c :: rest := by
  simp [skipSpace, solid]

/-- A newline and an indentation are blanks. -/
lemma isSpace_newLine (level : Nat) : ∀ c ∈ (newLine level).toList, isSpace c = true := by
  simp [newLine, isSpace]

lemma skipSpace_newLine (level : Nat) (rest : List Char) :
    skipSpace ((newLine level).toList ++ rest) = skipSpace rest :=
  skipSpace_append (isSpace_newLine level) rest

/-! ## Parts -/

/-- True of the characters that a value may begin with. -/
def Solid (c : Char) : Prop := isSpace c = false ∧ c ≠ ']' ∧ c ≠ Char.ofNat 0xFEFF

/-- What a text is read as, wherever it stands: it begins a value, and it is read to its end as the value by
a reader that may go down some levels and has a step for each character. -/
structure Reads (depth : Nat) (text : List Char) (value : Json) : Prop where
  solid : ∃ c more, text = c :: more ∧ Solid c
  reads : ∀ steps rest, text.length ≤ steps → Apart rest →
    readValue steps depth (text ++ rest) = .ok (value, rest)

lemma Reads.skip {depth : Nat} {text : List Char} {value : Json} (reads : Reads depth text value)
    (rest : List Char) : skipSpace (text ++ rest) = text ++ rest := by
  obtain ⟨c, more, rfl, solid, -⟩ := reads.solid
  exact skipSpace_cons solid _

lemma apart_cons {c : Char} (other : c.isDigit = false ∧ c ≠ '.' ∧ c ≠ 'e' ∧ c ≠ 'E') (rest : List Char) :
    Apart (c :: rest) := by
  intro c' is
  obtain rfl : c = c' := by simpa using is
  exact other

lemma apart_newLine (level : Nat) (rest : List Char) : Apart ((newLine level).toList ++ rest) := by
  simp only [newLine, String.toList_ofList, List.cons_append]
  exact apart_cons (by decide) _

/-- Joined texts begin with the first of them. -/
lemma intercalate_begins {first : Char → Prop} (separator : List Char) {text : List Char}
    (texts : List (List Char)) (begins : ∃ c more, text = c :: more ∧ first c) :
    ∃ c more, separator.intercalate (text :: texts) = c :: more ∧ first c := by
  obtain ⟨c, more, rfl, holds⟩ := begins
  cases texts with
  | nil => exact ⟨c, more, List.intercalate_singleton, holds⟩
  | cons next texts => exact ⟨c, _, List.intercalate_cons_cons, holds⟩

lemma readItems_intercalate (depth outer inner : Nat) (rest : List Char) :
    ∀ (items : List (List Char × Json)) (steps : Nat) (done : List Json), items ≠ [] →
      (∀ item ∈ items, Reads depth item.1 item.2) →
      ((',' :: (newLine inner).toList).intercalate (items.map (·.1))).length < steps →
      readItems steps depth done ((',' :: (newLine inner).toList).intercalate (items.map (·.1)) ++
        ((newLine outer).toList ++ ']' :: rest)) =
        .ok (.array (done.reverse ++ items.map (·.2)), rest) := by
  intro items
  -- The induction is on the items; the reader takes at least one step for each of them, and has enough.
  induction items with
  | nil => exact fun _ _ present => absurd rfl present
  | cons item items ih =>
    intro steps done _ reads enough
    obtain ⟨steps, rfl⟩ : ∃ more, steps = more + 1 := ⟨steps - 1, by omega⟩
    have first := reads item List.mem_cons_self
    cases items with
    | nil =>
      simp only [List.map_cons, List.map_nil, List.intercalate_singleton] at enough ⊢
      rw [readItems, first.reads steps _ (by omega) (apart_newLine _ _), ok_bind]
      simp only [skipSpace_newLine, skipSpace_cons (show isSpace ']' = false by decide)]
      simp
    | cons next items =>
      have others := ih steps (item.2 :: done) (by simp) fun i member =>
        reads i (List.mem_cons_of_mem _ member)
      simp only [List.map_cons, List.intercalate_cons_cons, List.length_append, List.length_cons,
        List.append_assoc, List.cons_append] at enough others ⊢
      rw [readItems, first.reads steps _ (by omega) (apart_cons (by decide) _), ok_bind]
      simp only [skipSpace_cons (show isSpace ',' = false by decide), skipSpace_newLine]
      obtain ⟨c, more, begins, solid, -⟩ := intercalate_begins (',' :: (newLine inner).toList)
        (items.map (·.1)) (reads next (by simp)).solid
      rw [begins] at others enough ⊢
      rw [List.cons_append, skipSpace_cons solid, ← List.cons_append, others (by omega)]
      simp

/-- The text of a member. -/
def memberText (name : String) (text : List Char) : List Char :=
  (writeText name).toList ++ ':' :: ' ' :: text

lemma memberText_begins (name : String) (text : List Char) :
    ∃ c more, memberText name text = c :: more ∧ c = '"' := by
  simp [memberText, writeText]

/-- A member is read: its name, and what its text is read as. -/
lemma readMembers_memberText {depth steps : Nat} {name : String} {text after : List Char} {value : Json}
    (reads : Reads depth text value) (apart : Apart after)
    (enough : (memberText name text).length ≤ steps) (done : List (String × Json)) :
    readMembers (steps + 1) depth done (memberText name text ++ after) =
      match skipSpace after with
      | '\x7d' :: rest => .ok (.object (Member.put done name value), rest)
      | ',' :: rest => readMembers steps depth (Member.put done name value) (skipSpace rest)
      | rest => faultAt .expectingComma rest := by
  simp only [memberText, List.length_append, List.length_cons] at enough
  have ofName : (writeText name).toList.length ≤ steps + 1 := by omega
  obtain ⟨inside, split, named⟩ := readText_writeText (':' :: ' ' :: (text ++ after)) ofName
  have whole : memberText name text ++ after = '"' :: inside := by simpa [memberText] using split
  have blank : skipSpace (' ' :: (text ++ after)) = text ++ after := reads.skip after
  rw [whole, readMembers, named, ok_bind]
  simp only [skipSpace_cons (show isSpace ':' = false by decide), blank]
  rw [reads.reads steps after (by omega) apart]
  rfl

lemma readMembers_intercalate (depth outer inner : Nat) (rest : List Char) :
    ∀ (members : List (String × List Char × Json)) (steps : Nat) (done : List (String × Json)),
      members ≠ [] → (∀ member ∈ members, Reads depth member.2.1 member.2.2) →
      ((',' :: (newLine inner).toList).intercalate
        (members.map fun member => memberText member.1 member.2.1)).length < steps →
      readMembers steps depth done ((',' :: (newLine inner).toList).intercalate
        (members.map fun member => memberText member.1 member.2.1) ++
        ((newLine outer).toList ++ '\x7d' :: rest)) =
        .ok (.object (members.foldl (fun done member => Member.put done member.1 member.2.2) done),
          rest) := by
  intro members
  induction members with
  | nil => exact fun _ _ present => absurd rfl present
  | cons member members ih =>
    intro steps done _ reads enough
    obtain ⟨steps, rfl⟩ : ∃ more, steps = more + 1 := ⟨steps - 1, by omega⟩
    have first := reads member List.mem_cons_self
    cases members with
    | nil =>
      simp only [List.map_cons, List.map_nil, List.intercalate_singleton] at enough ⊢
      rw [readMembers_memberText first (apart_newLine _ _) (by omega)]
      simp only [skipSpace_newLine, skipSpace_cons (show isSpace '\x7d' = false by decide)]
      simp
    | cons next members =>
      have others := ih steps (Member.put done member.1 member.2.2) (by simp) fun m stored =>
        reads m (List.mem_cons_of_mem _ stored)
      simp only [List.map_cons, List.intercalate_cons_cons, List.length_append, List.length_cons,
        List.append_assoc, List.cons_append] at enough others ⊢
      rw [readMembers_memberText first (apart_cons (by decide) _) (by omega)]
      simp only [skipSpace_cons (show isSpace ',' = false by decide), skipSpace_newLine]
      obtain ⟨c, more, begins, quote⟩ := intercalate_begins (',' :: (newLine inner).toList)
        (members.map fun member => memberText member.1 member.2.1) (memberText_begins next.1 next.2.1)
      rw [begins] at others enough ⊢
      rw [List.cons_append, skipSpace_cons (by rw [quote]; rfl), ← List.cons_append,
        others (by omega)]
      simp

/-! ## Values -/

/-- The members in the order of their names. -/
def inOrder {α : Type} (members : List (String × α)) : List (String × α) :=
  members.mergeSort fun a b => decide (a.1 ≤ b.1)

/-- The members as they are put one after the other. -/
def collected (members : List (String × Json)) : List (String × Json) :=
  members.foldl (fun done member => Member.put done member.1 member.2) []

/-- A value as it is read where it was written: its members stand in the order of their names, and of two
members of one name there is the later one. -/
def settled : Json → Json
  | .array items => .array (settledItems items)
  | .object members => .object (collected (inOrder (settledMembers members)))
  | value => value
where
  settledItems : List Json → List Json
  | [] => []
  | item :: rest => settled item :: settledItems rest
  settledMembers : List (String × Json) → List (String × Json)
  | [] => []
  | (name, value) :: rest => (name, settled value) :: settledMembers rest

lemma settledItems_eq (items : List Json) : settled.settledItems items = items.map settled := by
  induction items with
  | nil => rfl
  | cons item rest ih => rw [settled.settledItems, ih, List.map_cons]

lemma settledMembers_eq (members : List (String × Json)) :
    settled.settledMembers members = members.map fun member => (member.1, member.2.settled) := by
  induction members with
  | nil => rfl
  | cons member rest ih => rw [settled.settledMembers, ih, List.map_cons]

lemma itemsAt_eq (level : Nat) (items : List Json) :
    writeAt.itemsAt level items = items.map (writeAt level) := by
  induction items with
  | nil => rfl
  | cons item rest ih => rw [writeAt.itemsAt, ih, List.map_cons]

lemma membersAt_eq (level : Nat) (members : List (String × Json)) :
    writeAt.membersAt level members = members.map fun member => (member.1, writeAt level member.2) := by
  induction members with
  | nil => rfl
  | cons member rest ih => rw [writeAt.membersAt, ih, List.map_cons]

-- Powers are those of the writer.
attribute [local instance (high)] instPowNat

lemma integer_writable {n : Int} (writable : isWritable (.integer n) = true) :
    n.natAbs < 10 ^ Number.digitLimit := by
  simpa only [isWritable, decide_eq_true_eq] using writable

lemma itemsWritable_iff (items : List Json) :
    isWritable.itemsWritable items = true ↔ ∀ item ∈ items, item.isWritable = true := by
  induction items with
  | nil => simp [isWritable.itemsWritable]
  | cons item rest ih => simp [isWritable.itemsWritable, ih]

lemma membersWritable_iff (members : List (String × Json)) :
    isWritable.membersWritable members = true ↔ ∀ member ∈ members, member.2.isWritable = true := by
  induction members with
  | nil => simp [isWritable.membersWritable]
  | cons member rest ih => simp [isWritable.membersWritable, ih]

/-- Members that change their values change them in their places. -/
lemma inOrder_map {α β : Type} (f : α → β) (members : List (String × α)) :
    inOrder (members.map fun member => (member.1, f member.2)) =
      (inOrder members).map fun member => (member.1, f member.2) :=
  (List.map_mergeSort (by simp)).symm

lemma mem_inOrder {α : Type} {members : List (String × α)} {member : String × α} :
    member ∈ inOrder members ↔ member ∈ members :=
  List.mem_mergeSort

lemma writeAt_object (level : Nat) (members : List (String × Json)) :
    writeAt level (.object members) = bracketed "\x7b" "\x7d" level
      ((inOrder members).map fun member => writeText member.1 ++ ": " ++ writeAt (level + 1) member.2) := by
  have ordered := inOrder_map (writeAt (level + 1)) members
  rw [inOrder] at ordered
  simp only [writeAt, membersAt_eq, ordered, List.map_map, Function.comp_def]

attribute [local simp] readValue

/-- The three words that stand for plain values are read. -/
lemma reads_word (depth : Nat) :
    Reads depth "null".toList .null ∧ Reads depth "true".toList (.bool true) ∧
      Reads depth "false".toList (.bool false) := by
  refine ⟨⟨⟨'n', _, rfl, rfl, by decide⟩, ?_⟩, ⟨⟨'t', _, rfl, rfl, by decide⟩, ?_⟩,
    ⟨⟨'f', _, rfl, rfl, by decide⟩, ?_⟩⟩
  all_goals
    intro steps rest enough _
    obtain ⟨steps, rfl⟩ : ∃ more, steps = more + 1 := ⟨steps - 1, by simp at enough; omega⟩
    simp [readWord?, wordValues]

lemma reads_text (depth : Nat) (s : String) : Reads depth (writeText s).toList (.text s) := by
  refine ⟨⟨'"', _, by simp [writeText]; rfl, rfl, by decide⟩, ?_⟩
  intro steps rest enough _
  obtain ⟨steps, rfl⟩ : ∃ more, steps = more + 1 := ⟨steps - 1, by simp [writeText] at enough; omega⟩
  obtain ⟨inside, split, reads⟩ := readText_writeText rest enough
  rw [split, readValue, reads]
  rfl

/-- The text of an integer begins with a digit, or with a sign and a digit. -/
lemma toString_begins (n : Int) : ∃ c more, c.isDigit = true ∧
    ((toString n).toList = c :: more ∨ (toString n).toList = '-' :: c :: more) := by
  have front (m : Nat) : ∃ c more, c.isDigit = true ∧ Nat.toDigits 10 m = c :: more := by
    obtain ⟨c, more, is⟩ := List.exists_cons_of_ne_nil (Nat.toDigits_ne_nil (n := m) (b := 10))
    exact ⟨c, more, Nat.isDigit_of_mem_toDigits (by decide) (Nat.le_refl 10) (is ▸ List.mem_cons_self), is⟩
  cases n with
  | ofNat m =>
    obtain ⟨c, more, digit, is⟩ := front m
    exact ⟨c, more, digit, .inl (toList_ofNat m ▸ is)⟩
  | negSucc m =>
    obtain ⟨c, more, digit, is⟩ := front (m + 1)
    exact ⟨c, more, digit, .inr (by rw [toList_negSucc, is])⟩

lemma digit_ne {c k : Char} (digit : c.isDigit = true) (no : k.isDigit = false) : c ≠ k := by
  rintro rfl
  rw [digit] at no
  cases no

/-- What begins like a number is read as a number. -/
lemma readValue_number (steps depth : Nat) {c : Char} (digit : c.isDigit = true) (more : List Char) :
    (∀ result, readNumber (c :: more) = some result → readValue (steps + 1) depth (c :: more) = result) ∧
    ∀ result, readNumber ('-' :: c :: more) = some result →
      readValue (steps + 1) depth ('-' :: c :: more) = result := by
  have other {k : Char} : k.isDigit = false → c ≠ k := digit_ne digit
  have quote : c ≠ '"' := other rfl
  have brace : c ≠ '\x7b' := other rfl
  have bracket : c ≠ '[' := other rfl
  have word : readWord? (c :: more) = none := by
    have first : 'n' ≠ c ∧ 't' ≠ c ∧ 'f' ≠ c ∧ 'N' ≠ c ∧ 'I' ≠ c ∧ '-' ≠ c :=
      ⟨(other rfl).symm, (other rfl).symm, (other rfl).symm, (other rfl).symm, (other rfl).symm,
        (other rfl).symm⟩
    simp [readWord?, wordValues, first]
  have signed : readWord? ('-' :: c :: more) = none := by
    have second : 'I' ≠ c := (other rfl).symm
    simp [readWord?, wordValues, second]
  constructor
  · intro result reads
    simp [quote, brace, bracket, word, reads]
  · intro result reads
    simp [signed, reads]

/-- A text that begins like a number is read as the number that it is. -/
lemma reads_number (depth : Nat) {text : List Char} {value : Json} {c : Char} {more : List Char}
    (digit : c.isDigit = true) (written : text = c :: more ∨ text = '-' :: c :: more)
    (reads : ∀ rest, Apart rest → readNumber (text ++ rest) = some (.ok (value, rest))) : Reads depth text value := by
  have solid : Solid c := by
    have other {k : Char} : k.isDigit = false → c ≠ k := digit_ne digit
    refine ⟨?_, other rfl, other rfl⟩
    have blank : c ≠ ' ' ∧ c ≠ '\t' ∧ c ≠ '\n' ∧ c ≠ '\r' := ⟨other rfl, other rfl, other rfl, other rfl⟩
    simp [isSpace, blank]
  refine ⟨?_, ?_⟩
  · obtain written | written := written
    · exact ⟨c, more, written, solid⟩
    · exact ⟨'-', c :: more, written, rfl, by decide⟩
  · intro steps rest enough apart
    have reads := reads rest apart
    obtain ⟨steps, rfl⟩ : ∃ more, steps = more + 1 := by
      refine ⟨steps - 1, ?_⟩
      obtain written | written := written <;> rw [written, List.length_cons] at enough <;> omega
    obtain written | written := written
    · rw [written] at reads ⊢
      exact (readValue_number steps depth digit _).1 _ reads
    · rw [written] at reads ⊢
      exact (readValue_number steps depth digit _).2 _ reads

lemma reads_integer (depth : Nat) {n : Int} (short : n.natAbs < 10 ^ Number.digitLimit) :
    Reads depth (toString n).toList (.integer n) := by
  obtain ⟨c, more, digit, written⟩ := toString_begins n
  exact reads_number depth digit written fun rest apart => readNumber_toString short apart

/-- The text of an array or an object with something in it. -/
lemma toList_bracketed (opening closing : String) (level : Nat) {parts : List String}
    (present : parts ≠ []) :
    (bracketed opening closing level parts).toList = opening.toList ++ ((newLine (level + 1)).toList ++
      ((',' :: (newLine (level + 1)).toList).intercalate (parts.map String.toList) ++
        ((newLine level).toList ++ closing.toList))) := by
  have some : parts.isEmpty = false := by simpa using present
  simp [bracketed, some, String.toList_intercalate]

lemma readValue_array (steps depth level : Nat) {c : Char} (solid : Solid c)
    (more : List Char) : readValue (steps + 1) (depth + 1) ('[' :: ((newLine level).toList ++ c :: more)) =
      readItems steps depth [] (c :: more) := by
  simp [skipSpace_newLine, skipSpace_cons solid.1, solid.2.1]

lemma readValue_object (steps depth level : Nat) (more : List Char) :
    readValue (steps + 1) (depth + 1) ('\x7b' :: ((newLine level).toList ++ '"' :: more)) =
      readMembers steps depth [] ('"' :: more) := by
  simp [skipSpace_newLine, skipSpace_cons (show isSpace '"' = false by decide)]

lemma reads_array {depth level : Nat} {items : List Json}
    (reads : ∀ item ∈ items, Reads depth (writeAt (level + 1) item).toList item.settled) :
    Reads (depth + 1) (writeAt level (.array items)).toList (settled (.array items)) := by
  rw [writeAt, itemsAt_eq, settled, settledItems_eq]
  cases items with
  | nil =>
    refine ⟨⟨'[', [']'], by simp [bracketed], rfl, by decide⟩, ?_⟩
    intro steps rest enough _
    obtain ⟨steps, rfl⟩ : ∃ more, steps = more + 1 := ⟨steps - 1, by simp [bracketed] at enough; omega⟩
    simp [bracketed, skipSpace_cons (show isSpace ']' = false by decide)]
  | cons item items =>
    have listed (steps : Nat) (rest : List Char) := readItems_intercalate depth level (level + 1) rest
      ((item :: items).map fun item => ((writeAt (level + 1) item).toList, item.settled)) steps [] (by simp)
      (List.forall_mem_map.mpr reads)
    obtain ⟨c, more, begins, solid⟩ := intercalate_begins (',' :: (newLine (level + 1)).toList)
      (items.map fun item => (writeAt (level + 1) item).toList) (reads item List.mem_cons_self).solid
    simp only [List.map_map, Function.comp_def, List.map_cons] at listed
    rw [toList_bracketed "[" "]" level (by simp)]
    simp only [List.map_map, Function.comp_def, List.map_cons]
    -- The reader looks at the first character to tell an empty array.
    rw [begins] at listed ⊢
    refine ⟨⟨'[', _, rfl, rfl, by decide⟩, ?_⟩
    intro steps rest enough _
    have long : "[".toList.length = 1 ∧ "]".toList.length = 1 := ⟨rfl, rfl⟩
    simp only [List.length_append, List.length_cons, long] at enough
    obtain ⟨steps, rfl⟩ : ∃ more, steps = more + 1 := ⟨steps - 1, by omega⟩
    have whole : "[".toList ++ ((newLine (level + 1)).toList ++ (c :: more ++
        ((newLine level).toList ++ "]".toList))) ++ rest = '[' :: ((newLine (level + 1)).toList ++
        c :: (more ++ ((newLine level).toList ++ ']' :: rest))) := by simp
    have short : (c :: more).length < steps := by
      rw [List.length_cons]
      omega
    rw [whole, readValue_array steps depth _ solid, ← List.cons_append, listed steps rest short]
    simp

lemma reads_object {depth level : Nat} {members : List (String × Json)}
    (reads : ∀ member ∈ members, Reads depth (writeAt (level + 1) member.2).toList member.2.settled) :
    Reads (depth + 1) (writeAt level (.object members)).toList (settled (.object members)) := by
  rw [writeAt_object, settled, settledMembers_eq, inOrder_map]
  have stored : ∀ member ∈ inOrder members,
      Reads depth (writeAt (level + 1) member.2).toList member.2.settled := fun member ordered =>
    reads member (mem_inOrder.mp ordered)
  generalize inOrder members = ordered at stored
  cases ordered with
  | nil =>
    refine ⟨⟨'\x7b', ['\x7d'], by simp [bracketed], rfl, by decide⟩, ?_⟩
    intro steps rest enough _
    obtain ⟨steps, rfl⟩ : ∃ more, steps = more + 1 := ⟨steps - 1, by simp [bracketed] at enough; omega⟩
    simp [bracketed, skipSpace_cons (show isSpace '\x7d' = false by decide), collected]
  | cons member ordered =>
    have text (member : String × Json) : (writeText member.1 ++ ": " ++ writeAt (level + 1) member.2).toList =
        memberText member.1 (writeAt (level + 1) member.2).toList := by simp [memberText]
    have listed (steps : Nat) (rest : List Char) := readMembers_intercalate depth level (level + 1) rest
      ((member :: ordered).map fun member =>
        (member.1, (writeAt (level + 1) member.2).toList, member.2.settled)) steps [] (by simp)
      (List.forall_mem_map.mpr stored)
    obtain ⟨c, more, begins, rfl⟩ := intercalate_begins (',' :: (newLine (level + 1)).toList)
      (ordered.map fun member => memberText member.1 (writeAt (level + 1) member.2).toList)
      (memberText_begins member.1 (writeAt (level + 1) member.2).toList)
    simp only [List.map_map, Function.comp_def, List.map_cons] at listed
    rw [toList_bracketed "\x7b" "\x7d" level (by simp)]
    simp only [List.map_map, Function.comp_def, List.map_cons, text]
    rw [begins] at listed ⊢
    refine ⟨⟨'\x7b', _, rfl, rfl, by decide⟩, ?_⟩
    intro steps rest enough _
    have long : "\x7b".toList.length = 1 ∧ "\x7d".toList.length = 1 := ⟨rfl, rfl⟩
    simp only [List.length_append, List.length_cons, long] at enough
    obtain ⟨steps, rfl⟩ : ∃ more, steps = more + 1 := ⟨steps - 1, by omega⟩
    have whole : "\x7b".toList ++ ((newLine (level + 1)).toList ++ ('"' :: more ++
        ((newLine level).toList ++ "\x7d".toList))) ++ rest = '\x7b' :: ((newLine (level + 1)).toList ++
        '"' :: (more ++ ((newLine level).toList ++ '\x7d' :: rest))) := by simp
    have short : ('"' :: more).length < steps := by
      rw [List.length_cons]
      omega
    rw [whole, readValue_object steps depth, ← List.cons_append, listed steps rest short]
    simp [collected, List.foldl_map]

/-- A plain value is read as it was written, by a reader that may go down as far as it is nested. -/
lemma reads_writeAt : ∀ {bound : Nat} {value : Json}, value.isPlain bound = true →
    value.isWritable = true → ∀ level depth, bound ≤ depth →
    Reads depth (writeAt level value).toList value.settled := by
  intro bound
  -- The induction is on the depth, not on the value: items are nested values of a smaller depth.
  induction bound with
  | zero =>
    intro value plain writable level depth _
    cases value with
    | null => exact (reads_word depth).1
    | bool b => cases b with
      | true => exact (reads_word depth).2.1
      | false => exact (reads_word depth).2.2
    | integer n => exact reads_integer depth (integer_writable writable)
    | text s => exact reads_text depth s
    | double | array | object => cases plain
  | succ bound ih =>
    intro value plain writable level depth deep
    obtain ⟨depth, rfl⟩ : ∃ less, depth = less + 1 := ⟨depth - 1, by omega⟩
    cases value with
    | null => exact (reads_word _).1
    | bool b => cases b with
      | true => exact (reads_word _).2.1
      | false => exact (reads_word _).2.2
    | integer n => exact reads_integer _ (integer_writable writable)
    | text s => exact reads_text _ s
    | double => cases plain
    | array items =>
      rw [isPlain_array, List.all_eq_true] at plain
      have writable := (itemsWritable_iff items).mp writable
      exact reads_array fun item stored =>
        ih (plain item stored) (writable item stored) _ depth (by omega)
    | object members =>
      rw [isPlain_object, List.all_eq_true] at plain
      have writable := (membersWritable_iff members).mp writable
      exact reads_object fun member stored =>
        ih (plain member stored) (writable member stored) _ depth (by omega)

/-- A document that is read wherever it stands is read. -/
lemma read_of_reads {value : Json} (reads : Reads nestingLimit (writeAt 0 value).toList value.settled) :
    read value.write = .ok value.settled := by
  obtain ⟨c, more, front, solid, -, unmarked⟩ := reads.solid
  have whole := reads.reads (2 * (writeAt 0 value).toList.length + 2) [] (by omega) (by simp [Apart])
  have skipped : skipSpace (writeAt 0 value).toList = (writeAt 0 value).toList := by
    rw [front]
    exact skipSpace_cons solid _
  -- The text does not begin with a byte order mark, which would be refused.
  have head : ((writeAt 0 value).toList.head? == some (Char.ofNat 0xFEFF)) = false := by
    rw [front, List.head?_cons]
    simpa using unmarked
  rw [List.append_nil] at whole
  simp only [read, write, skipped, whole, head, Bool.false_eq_true, if_false, ok_bind]
  rfl

/-- A document that was written is read as its settled form. -/
theorem read_write {value : Json} (plain : value.isPlain nestingLimit = true)
    (writable : value.isWritable = true) : read value.write = .ok value.settled :=
  read_of_reads (reads_writeAt plain writable 0 nestingLimit (Nat.le_refl _))

end RepoAudit.Json
