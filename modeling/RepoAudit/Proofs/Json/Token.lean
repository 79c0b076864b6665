import Mathlib.Tactic.Common
import RepoAudit.Json.Reader
import RepoAudit.Json.Writer

/-!
# Tokens that were written

Texts and integers are read as they were written. A text is escaped character by character, and each escape
is read as its character, so its induction is on the characters. An integer ends where no digit follows
(`Json.Apart`).
-/

namespace RepoAudit.Json

/-! ## Texts -/

lemma hexValue?_digitChar {d : Nat} (small : d < 16) : Text.hexValue? d.digitChar = some d := by
  revert d
  decide

/-- The last of some hexadecimal digits, which are padded with zeros. -/
lemma hexDigits_succ (width n : Nat) :
    Text.hexDigits (width + 2) n = Text.hexDigits (width + 1) (n / 16) ++ [(n % 16).digitChar] := by
  simp only [Text.hexDigits]
  by_cases small : n < 16
  · rw [Nat.toDigits_of_lt_base small, Nat.div_eq_of_lt small, Nat.mod_eq_of_lt small,
      Nat.toDigits_zero]
    simp [List.replicate_succ']
  · rw [Nat.toDigits_of_base_le (by decide) (Nat.le_of_not_lt small)]
    simp

lemma hexDigits_four {n : Nat} (small : n < 0x10000) :
    Text.hexDigits 4 n = [(n / 16 / 16 / 16).digitChar, (n / 16 / 16 % 16).digitChar,
      (n / 16 % 16).digitChar, (n % 16).digitChar] := by
  have one (m : Nat) (low : m < 16) : Text.hexDigits 1 m = [m.digitChar] := by
    simp [Text.hexDigits, Nat.toDigits_of_lt_base low]
  rw [hexDigits_succ, hexDigits_succ, hexDigits_succ, one _ (by omega)]
  rfl

/-- The escape of a unit is read as the unit. -/
lemma unit?_hexDigits {n : Nat} (small : n < 0x10000) {rest : List Char} (more : rest ≠ []) :
    unit? (Text.hexDigits 4 n ++ rest) = some (n, rest) := by
  have present : rest.isEmpty = false := by simpa using more
  rw [hexDigits_four small]
  simp only [List.cons_append, List.nil_append, unit?]
  rw [hexValue?_digitChar (by omega), hexValue?_digitChar (by omega),
    hexValue?_digitChar (by omega), hexValue?_digitChar (by omega)]
  simp only [present, Bool.false_eq_true, if_false, Option.some.injEq, Prod.mk.injEq, and_true]
  omega

/-- A unit that is no half of a pair is read as its character. -/
lemma readTextFrom_unitEscape (opened : List Char) (steps : Nat) (done : List Char) {n : Nat}
    (small : n < 0x10000) (whole : ¬ (0xD800 ≤ n ∧ n ≤ 0xDFFF)) {rest : List Char}
    (more : rest ≠ []) :
    readTextFrom opened (steps + 1) done (unitEscape n ++ rest) =
      readTextFrom opened steps (Char.ofNat n :: done) rest := by
  have high : ¬ (0xD800 ≤ n ∧ n ≤ 0xDBFF) := by omega
  have lone : loneUnit n = Char.ofNat n := by simp [loneUnit, whole]
  simp [unitEscape, readTextFrom, unit?_hexDigits small more, high, lone]

/-- The two units of a pair are read as its character. -/
lemma readTextFrom_pairEscape (opened : List Char) (steps : Nat) (done : List Char) {high low : Nat}
    (first : 0xD800 ≤ high ∧ high ≤ 0xDBFF) (second : 0xDC00 ≤ low ∧ low ≤ 0xDFFF)
    {rest : List Char} (more : rest ≠ []) :
    readTextFrom opened (steps + 1) done (unitEscape high ++ (unitEscape low ++ rest)) =
      readTextFrom opened steps (joinUnits high low :: done) rest := by
  have long : (Text.hexDigits 4 low ++ rest).drop 4 = rest := by
    rw [hexDigits_four (by omega)]
    rfl
  have present : rest.isEmpty = false := by simpa using more
  have following : unitEscape low ++ rest ≠ [] := by simp [unitEscape]
  simp [unitEscape, readTextFrom, unit?_hexDigits (show high < 0x10000 by omega), first, second, long,
    present, unit?_hexDigits (show low < 0x10000 by omega) more]

/-- How a character stands in a text: with one letter for it, as it is, as one unit or as a pair of them. -/
inductive Escapes (c : Char) : List Char → Prop
  | letter {e : Char} : simpleEscape? e = some c → Escapes c ['\\', e]
  | plain : c ≠ '"' → c ≠ '\\' → 32 ≤ c.toNat → Escapes c [c]
  | unit : c.toNat < 0x10000 → Escapes c (unitEscape c.toNat)
  | pair {m : Nat} : c.toNat = 0x10000 + m →
    Escapes c (unitEscape (0xD800 + m / 1024) ++ unitEscape (0xDC00 + m % 1024))

lemma escapes_escapeChar (c : Char) : Escapes c (escapeChar c) := by
  have character {k e : Char} (is : (c == k) = true) (read : simpleEscape? e = some k) : Escapes c ['\\', e] :=
    .letter (beq_iff_eq.mp is ▸ read)
  have number {k : Nat} {e : Char} (is : (c.toNat == k) = true) (read : simpleEscape? e = some (Char.ofNat k)) :
      Escapes c ['\\', e] := by
    rw [← beq_iff_eq.mp is, Char.ofNat_toNat] at read
    exact .letter read
  unfold escapeChar
  -- The characters with a letter come first: five by what they are and two by their numbers.
  refine iteInduction (fun is => character is rfl) fun quote => ?_
  refine iteInduction (fun is => character is rfl) fun backslash => ?_
  refine iteInduction (fun is => character is rfl) fun _ => ?_
  refine iteInduction (fun is => character is rfl) fun _ => ?_
  refine iteInduction (fun is => character is rfl) fun _ => ?_
  refine iteInduction (fun is => number is rfl) fun _ => ?_
  refine iteInduction (fun is => number is rfl) fun _ => ?_
  refine iteInduction (fun is => ?_) fun _ => ?_
  · simp only [Bool.and_eq_true, decide_eq_true_eq] at is
    exact .plain (by simpa using quote) (by simpa using backslash) is.1
  refine iteInduction (fun small => .unit small) fun large => ?_
  exact .pair (Nat.add_sub_of_le (Nat.le_of_not_lt large)).symm

/-- A character is read as it was escaped. -/
lemma readTextFrom_escapeChar (opened : List Char) (steps : Nat) (done : List Char) (c : Char)
    {rest : List Char} (more : rest ≠ []) :
    readTextFrom opened (steps + 1) done (escapeChar c ++ rest) =
      readTextFrom opened steps (c :: done) rest := by
  have valid : c.toNat < 0xD800 ∨ 0xDFFF < c.toNat ∧ c.toNat < 0x110000 := c.valid
  have stands := escapes_escapeChar c
  generalize escapeChar c = text at stands ⊢
  cases stands with
  | @letter e read =>
    have other : e ≠ 'u' := by
      rintro rfl
      cases read
    simp [readTextFrom, read]
  | plain quote backslash printable => simp [readTextFrom, quote, backslash, Nat.not_lt.mpr printable]
  | unit small =>
    rw [readTextFrom_unitEscape opened steps done small (by omega) more, Char.ofNat_toNat]
  | @pair m large =>
    -- The two units are joined to the number that was split.
    have joined : joinUnits (0xD800 + m / 1024) (0xDC00 + m % 1024) = c := by
      have number : 0x10000 + (0xD800 + m / 1024 - 0xD800) * 1024 + (0xDC00 + m % 1024 - 0xDC00) = c.toNat := by omega
      rw [joinUnits, number, Char.ofNat_toNat]
    rw [List.append_assoc, readTextFrom_pairEscape opened steps done (by omega) (by omega) more, joined]

lemma readText_escape {s : List Char} {steps : Nat} (enough : s.length < steps) (rest : List Char) :
    readText steps (s.flatMap escapeChar ++ '"' :: rest) = .ok (String.ofList s, rest) := by
  have reads (opened : List Char) : ∀ (s : List Char) (steps : Nat) (done : List Char),
      s.length < steps → readTextFrom opened steps done (s.flatMap escapeChar ++ '"' :: rest) =
        .ok (String.ofList (done.reverse ++ s), rest) := by
    intro s
    induction s with
    | nil =>
      intro steps done enough
      obtain ⟨steps, rfl⟩ := Nat.exists_eq_add_of_lt enough
      simp [readTextFrom]
    | cons c s ih =>
      intro steps done enough
      obtain ⟨steps, rfl⟩ : ∃ more, steps = more + 1 := ⟨steps - 1, by simp at enough; omega⟩
      rw [List.flatMap_cons, List.append_assoc,
        readTextFrom_escapeChar opened steps done c (by simp), ih steps (c :: done) (by simpa using enough)]
      simp
  exact reads _ s steps [] enough

/-- An escaped text is no shorter than the text. -/
lemma length_le_flatMap_escapeChar (s : List Char) : s.length ≤ (s.flatMap escapeChar).length := by
  have one (c : Char) : 1 ≤ (escapeChar c).length := by
    have stands := escapes_escapeChar c
    generalize escapeChar c = text at stands ⊢
    cases stands <;> exact Nat.succ_le_succ (Nat.zero_le _)
  induction s with
  | nil => exact Nat.le_refl _
  | cons c s ih =>
    rw [List.flatMap_cons, List.length_append, List.length_cons]
    exact Nat.add_comm s.length 1 ▸ Nat.add_le_add (one c) ih

/-- A text between quotes is read as it was written. -/
lemma readText_writeText {s : String} {steps : Nat} (after : List Char)
    (enough : (writeText s).toList.length ≤ steps + 1) :
    ∃ inside, (writeText s).toList ++ after = '"' :: inside ∧ readText steps inside = .ok (s, after) := by
  refine ⟨s.toList.flatMap escapeChar ++ '"' :: after, by simp [writeText], ?_⟩
  have long := length_le_flatMap_escapeChar s.toList
  simp only [writeText, String.toList_ofList, List.length_append, List.length_cons] at enough
  rw [readText_escape (by omega), String.ofList_toList]

/-! ## Integers -/

/-- True of a rest that does not go on with a number. -/
def Apart (rest : List Char) : Prop :=
  ∀ c ∈ rest.head?, c.isDigit = false ∧ c ≠ '.' ∧ c ≠ 'e' ∧ c ≠ 'E'

lemma takeDigits_until {digits rest : List Char} (all : ∀ c ∈ digits, c.isDigit = true)
    (stops : ∀ c ∈ rest.head?, c.isDigit = false) : takeDigits (digits ++ rest) = (digits, rest) := by
  have stops : rest.takeWhile Char.isDigit = [] ∧ rest.dropWhile Char.isDigit = rest := by
    cases rest with
    | nil => simp
    | cons c rest => simp [stops c (by simp)]
  rw [takeDigits, List.takeWhile_append_of_pos all, List.dropWhile_append_of_pos all, stops.1,
    stops.2, List.append_nil]

lemma takeDigits_append {digits rest : List Char} (all : ∀ c ∈ digits, c.isDigit = true)
    (apart : Apart rest) : takeDigits (digits ++ rest) = (digits, rest) :=
  takeDigits_until all fun c first => (apart c first).1

lemma digitsValue_toDigits (n : Nat) : digitsValue (Nat.toDigits 10 n) = n := by
  have same := Nat.ofDigitChars_ten_toDigits (n := n)
  simp only [Nat.ofDigitChars_eq_foldl, Nat.mul_comm 10] at same
  exact same

/-- Only the digits of zero begin with a zero. -/
lemma toDigits_cases (n : Nat) :
    n = 0 ∧ Nat.toDigits 10 n = ['0'] ∨
    ∃ c digits, Nat.toDigits 10 n = c :: digits ∧ c ≠ '0' := by
  -- The induction follows the digits from the last one to the first.
  induction n using Nat.strongRecOn with
  | ind n ih =>
    obtain rfl | positive := Nat.eq_zero_or_pos n
    · exact .inl ⟨rfl, rfl⟩
    by_cases small : n < 10
    · refine .inr ⟨n.digitChar, [], Nat.toDigits_of_lt_base small, ?_⟩
      have digit : ∀ n < 10, 0 < n → n.digitChar ≠ '0' := by decide
      exact digit n small positive
    · rw [Nat.toDigits_of_base_le (by decide) (Nat.le_of_not_lt small)]
      obtain ⟨zero, -⟩ | ⟨c, digits, front, other⟩ := ih (n / 10) (by omega)
      · omega
      · exact .inr ⟨c, digits ++ [(n % 10).digitChar], by rw [front]; rfl, other⟩

-- Powers are those of the writer.
attribute [local instance (high)] instPowNat

lemma readNumber_toDigits {n : Nat} (short : n < 10 ^ Number.digitLimit) {rest : List Char}
    (apart : Apart rest) :
    readNumber (Nat.toDigits 10 n ++ rest) = some (.ok (.integer n, rest)) ∧
      readNumber ('-' :: (Nat.toDigits 10 n ++ rest)) = some (.ok (.integer (-n), rest)) := by
  have length : (Nat.toDigits 10 n).length ≤ Number.digitLimit :=
    (Nat.length_toDigits_le_iff (by decide) (by decide)).mpr short
  have digits : ∀ c ∈ Nat.toDigits 10 n, c.isDigit = true := fun c =>
    Nat.isDigit_of_mem_toDigits (by decide) (by decide)
  have value := digitsValue_toDigits n
  have taken := takeDigits_append digits apart
  have plain {c : Char} {more : List Char} (is : rest = c :: more) :
      c ≠ '.' ∧ c ≠ 'e' ∧ c ≠ 'E' := (apart c (by simp [is])).2
  obtain ⟨rfl, zero⟩ | ⟨c, more, front, other⟩ := toDigits_cases n
  · have none : digitsValue ['0'] = 0 := rfl
    rw [zero]
    cases rest with
    | nil => simp [readNumber.eq_def, none, Number.digitLimit]
    | cons c rest =>
      obtain ⟨point, small, large⟩ := plain rfl
      simp [readNumber.eq_def, none, Number.digitLimit, point, small, large]
  · have sign : c ≠ '-' := by
      rintro rfl
      exact absurd (digits '-' (by simp [front])) (by decide)
    rw [front, List.length_cons] at length
    rw [front] at value taken
    rw [front, List.cons_append]
    rw [List.cons_append] at taken
    generalize more ++ rest = body at taken ⊢
    cases rest with
    | nil => simpa [readNumber.eq_def, value, other, taken, sign] using length
    | cons c' rest =>
      obtain ⟨point, small, large⟩ := plain rfl
      simpa [readNumber.eq_def, value, point, small, large, taken, other, sign] using length

lemma toList_ofNat (m : Nat) : (toString (Int.ofNat m)).toList = Nat.toDigits 10 m := Nat.toList_repr

lemma toList_negSucc (m : Nat) :
    (toString (Int.negSucc m)).toList = '-' :: Nat.toDigits 10 (m + 1) := by
  rw [show toString (Int.negSucc m) = "-" ++ (m + 1).repr from rfl]
  simp

lemma readNumber_toString {n : Int} (short : n.natAbs < 10 ^ Number.digitLimit) {rest : List Char}
    (apart : Apart rest) :
    readNumber ((toString n).toList ++ rest) = some (.ok (.integer n, rest)) := by
  cases n with
  | ofNat m =>
    rw [toList_ofNat]
    exact (readNumber_toDigits short apart).1
  | negSucc m =>
    rw [toList_negSucc]
    exact (readNumber_toDigits short apart).2

end RepoAudit.Json
