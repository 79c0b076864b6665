import Mathlib.Data.List.TakeWhile
import RepoAudit.Proofs.Json.RoundTrip
import RepoAudit.Proofs.Number.Shortest

/-!
# Numbers that were read and written

A number is read part by part (`Json.readUnsigned`): its digits, those behind a point, and an exponent. What is read is
an integer of no more digits than can be written, or a canonical double; and a canonical double is written as a numeral
(`Json.Numeral`) that is read as the same double.
-/

namespace RepoAudit.Json

/-! ## The parts of a number -/

/-- The digits before the point: a zero stands alone. -/
def takeWhole (s : List Char) : List Char × List Char :=
  match s with
  | '0' :: rest => (['0'], rest)
  | _ => takeDigits s

/-- The digits behind a point. -/
def takeFraction (s : List Char) : List Char × List Char :=
  match s with
  | '.' :: more =>
    let (digits, after) := takeDigits more
    if digits.isEmpty then ([], s) else (digits, after)
  | _ => ([], s)

/-- An exponent. -/
def takeExponent (s : List Char) : Option Int × List Char :=
  match s with
  | mark :: more =>
    if mark == 'e' || mark == 'E' then
      let (down, unsigned) := match more with
        | '-' :: u => (true, u)
        | '+' :: u => (false, u)
        | u => (false, u)
      let (digits, after) := takeDigits unsigned
      if digits.isEmpty then (none, s)
      else (some (if down then -(digitsValue digits : Int) else digitsValue digits), after)
    else (none, s)
  | [] => (none, s)

/-- What a number without its sign is read as, part by part. -/
def readUnsigned (negative : Bool) (s : List Char) : Option (Except Fault (Json × List Char)) :=
  let whole := takeWhole s
  if whole.1.isEmpty then none
  else
    let fraction := takeFraction whole.2
    let exponent := takeExponent fraction.2
    if fraction.1.isEmpty && exponent.1.isNone then
      if Number.digitLimit < whole.1.length then some (.error (.integerTooLong whole.1.length))
      else some (.ok (.integer (if negative then -digitsValue whole.1 else digitsValue whole.1), exponent.2))
    else
      some (.ok (.double (Double.ofDecimal negative (digitsValue (whole.1 ++ fraction.1))
        (exponent.1.getD 0 - fraction.1.length)), exponent.2))

lemma readNumber_minus (s : List Char) : readNumber ('-' :: s) = readUnsigned true s := rfl

lemma readNumber_unsigned {c : Char} (unsigned : c ≠ '-') (s : List Char) :
    readNumber (c :: s) = readUnsigned false (c :: s) := by
  rw [readNumber.eq_def]
  split
  next negative body is =>
  split at is
  · next minus => exact absurd (List.cons.inj minus).1 unsigned
  · cases is
    rfl

/-! ## What is read -/

lemma digitsValue_append (digits : List Char) (c : Char) :
    digitsValue (digits ++ [c]) = digitsValue digits * 10 + (c.toNat - 48) := by
  simp [digitsValue]

lemma digitsValue_lt {digits : List Char} (all : ∀ c ∈ digits, c.isDigit = true) :
    digitsValue digits < 10 ^ digits.length := by
  induction digits using List.reverseRecOn with
  | nil => exact Nat.one_pos
  | append_singleton digits c ih =>
    have before := ih fun d stored => all d (List.mem_append_left _ stored)
    have small : c.toNat - 48 < 10 := by
      have digit := all c (by simp)
      simp only [Char.isDigit, Bool.and_eq_true, decide_eq_true_eq, UInt32.le_iff_toNat_le] at digit
      have most : c.toNat ≤ 57 := digit.2
      omega
    rw [digitsValue_append, List.length_append, List.length_singleton, pow_succ]
    omega

lemma isDigit_takeDigits (s : List Char) : ∀ c ∈ (takeDigits s).1, c.isDigit = true :=
  fun _ => List.mem_takeWhile_imp

lemma isDigit_takeWhole (s : List Char) : ∀ c ∈ (takeWhole s).1, c.isDigit = true := by
  unfold takeWhole
  split
  · simp
  · exact isDigit_takeDigits s

-- Powers are those of the writer.
attribute [local instance (high)] instPowNat

/-- A number that is read is an integer of so many digits as can be written, or a canonical double. -/
lemma readNumber_ok {s rest : List Char} {value : Json} (reads : readNumber s = some (.ok (value, rest))) :
    (∃ n : Int, value = .integer n ∧ n.natAbs < 10 ^ Number.digitLimit) ∨
      ∃ x : Double, value = .double x ∧ x.Canonical := by
  have unsigned {negative : Bool} {s : List Char} (reads : readUnsigned negative s = some (.ok (value, rest))) :
      (∃ n : Int, value = .integer n ∧ n.natAbs < 10 ^ Number.digitLimit) ∨
        ∃ x : Double, value = .double x ∧ x.Canonical := by
    unfold readUnsigned at reads
    dsimp only at reads
    split at reads
    · cases reads
    split at reads
    · split at reads
      · cases reads
      · next short =>
        cases reads
        refine .inl ⟨_, rfl, ?_⟩
        have few : digitsValue (takeWhole s).1 < 10 ^ Number.digitLimit :=
          (digitsValue_lt (isDigit_takeWhole s)).trans_le (Nat.pow_le_pow_right (by decide) (Nat.le_of_not_lt short))
        cases negative <;> simpa using few
    · cases reads
      exact .inr ⟨_, rfl, Double.canonical_ofDecimal _ _ _⟩
  cases s with
  | nil => cases reads
  | cons c s =>
    by_cases minus : c = '-'
    · rw [minus, readNumber_minus] at reads
      exact unsigned reads
    · rw [readNumber_unsigned minus] at reads
      exact unsigned reads

/-! ## Numerals -/

/-- A number as it is written: its digits, those behind a point, and an exponent with its sign. -/
structure Numeral where
  whole : List Char
  fraction : List Char := []
  exponent : Option (Bool × List Char) := none

namespace Numeral

/-- The text of the exponent. -/
def tail (n : Numeral) : List Char :=
  match n.exponent with
  | none => []
  | some (down, digits) => 'e' :: (if down then '-' else '+') :: digits

/-- The text of a number. -/
def text (n : Numeral) : List Char :=
  n.whole ++ ((if n.fraction.isEmpty then [] else '.' :: n.fraction) ++ n.tail)

/-- The exponent, which is zero where none is written. -/
def shift (n : Numeral) : Int :=
  match n.exponent with
  | none => 0
  | some (down, digits) => if down then -(digitsValue digits : Int) else digitsValue digits

/-- The double that a number stands for. -/
def toDouble (n : Numeral) (negative : Bool) : Double :=
  Double.ofDecimal negative (digitsValue (n.whole ++ n.fraction)) (n.shift - n.fraction.length)

/-- True of a number that is read as a double: it has a point or an exponent, and no digit before a point is a zero
that leads others. -/
structure Valid (n : Numeral) : Prop where
  natural : n.whole = ['0'] ∨ ∃ c more, n.whole = c :: more ∧ c ≠ '0'
  whole : ∀ c ∈ n.whole, c.isDigit = true
  fraction : ∀ c ∈ n.fraction, c.isDigit = true
  exponent : ∀ e ∈ n.exponent, e.2 ≠ [] ∧ ∀ c ∈ e.2, c.isDigit = true
  double : n.fraction = [] → n.exponent ≠ none

section Reads

variable {n : Numeral} (valid : n.Valid) {rest : List Char}
include valid

lemma Valid.begins : ∃ c more, n.whole = c :: more ∧ c.isDigit = true := by
  obtain is | ⟨c, more, is, -⟩ := valid.natural
  · exact ⟨'0', [], is, rfl⟩
  · exact ⟨c, more, is, valid.whole c (by simp [is])⟩

lemma Valid.takeWhole {tail : List Char} (stops : ∀ c ∈ tail.head?, c.isDigit = false) :
    Json.takeWhole (n.whole ++ tail) = (n.whole, tail) := by
  have taken := takeDigits_until valid.whole stops
  obtain is | ⟨c, more, is, other⟩ := valid.natural
  · rw [is]
    rfl
  · rw [is] at taken ⊢
    unfold Json.takeWhole
    split
    · next same => exact absurd (List.cons.inj same).1 other
    · exact taken

lemma Valid.takeFraction {tail : List Char} (stops : ∀ c ∈ tail.head?, c.isDigit = false ∧ c ≠ '.') :
    Json.takeFraction ((if n.fraction.isEmpty then [] else '.' :: n.fraction) ++ tail) = (n.fraction, tail) := by
  have taken := takeDigits_until valid.fraction fun c first => (stops c first).1
  unfold Json.takeFraction
  by_cases none : n.fraction = []
  · simp only [none, List.isEmpty_nil, if_true, List.nil_append]
    split
    · exact absurd rfl (stops '.' (by simp)).2
    · rfl
  · have present : n.fraction.isEmpty = false := by simpa using none
    simp [present, taken]

lemma Valid.takeExponent (apart : Apart rest) :
    Json.takeExponent (n.tail ++ rest) = (n.exponent.map fun _ => n.shift, rest) := by
  unfold tail shift
  cases is : n.exponent with
  | none =>
    unfold Json.takeExponent
    cases rest with
    | nil => rfl
    | cons c rest =>
      obtain ⟨-, -, small, large⟩ := apart c (by simp)
      simp [small, large]
  | some exponent =>
    obtain ⟨present, digits⟩ := valid.exponent exponent is
    obtain ⟨down, digits'⟩ := exponent
    have taken := takeDigits_until digits fun c first => (apart c first).1
    have present : digits'.isEmpty = false := by simpa using present
    cases down <;> simp [Json.takeExponent, taken, present]

lemma Valid.readUnsigned (apart : Apart rest) (negative : Bool) :
    Json.readUnsigned negative (n.text ++ rest) = some (.ok (.double (n.toDouble negative), rest)) := by
  have behind : ∀ c ∈ (n.tail ++ rest).head?, c.isDigit = false ∧ c ≠ '.' := by
    unfold tail
    cases n.exponent with
    | none => exact fun c first => ⟨(apart c first).1, (apart c first).2.1⟩
    | some exponent => simp
  have after : ∀ c ∈ ((if n.fraction.isEmpty then [] else '.' :: n.fraction) ++ (n.tail ++ rest)).head?,
      c.isDigit = false := by
    split
    · exact fun c first => (behind c first).1
    · simp
  have some : n.whole.isEmpty = false := by
    obtain ⟨c, more, is, -⟩ := valid.begins
    simp [is]
  have split : n.text ++ rest =
      n.whole ++ ((if n.fraction.isEmpty then [] else '.' :: n.fraction) ++ (n.tail ++ rest)) := by
    simp [text]
  have double : (n.fraction.isEmpty && (n.exponent.map fun _ => n.shift).isNone) = false := by
    have double := valid.double
    cases is : n.fraction <;> cases is' : n.exponent <;> simp_all
  have shift : (n.exponent.map fun _ => n.shift).getD 0 = n.shift := by
    unfold Numeral.shift
    cases n.exponent <;> rfl
  unfold Json.readUnsigned
  rw [split]
  simp only [valid.takeWhole after, valid.takeFraction behind, valid.takeExponent apart, some, double, shift,
    Bool.false_eq_true, if_false, toDouble]

/-- A numeral is read as the double that it stands for. -/
lemma Valid.readNumber (apart : Apart rest) :
    Json.readNumber (n.text ++ rest) = some (.ok (.double (n.toDouble false), rest)) ∧
      Json.readNumber ('-' :: (n.text ++ rest)) = some (.ok (.double (n.toDouble true), rest)) := by
  rw [readNumber_minus]
  refine ⟨?_, valid.readUnsigned apart true⟩
  rw [← valid.readUnsigned apart false]
  obtain ⟨c, more, is, digit⟩ := valid.begins
  rw [text, is]
  exact readNumber_unsigned (digit_ne digit rfl) _

end Reads

end Numeral

/-! ## Doubles that are written -/

section Written

lemma digitsValue_zero_cons (digits : List Char) : digitsValue ('0' :: digits) = digitsValue digits := rfl

lemma digitsValue_zeros_append (k : Nat) (digits : List Char) :
    digitsValue (List.replicate k '0' ++ digits) = digitsValue digits := by
  induction k with
  | zero => rfl
  | succ k ih => rw [List.replicate_succ, List.cons_append, digitsValue_zero_cons, ih]

lemma digitsValue_append_zeros (digits : List Char) (k : Nat) :
    digitsValue (digits ++ List.replicate k '0') = digitsValue digits * 10 ^ k := by
  induction k with
  | zero => simp
  | succ k ih =>
    rw [List.replicate_succ', ← List.append_assoc, digitsValue_append, ih, pow_succ, mul_assoc]
    rfl

lemma isDigit_zeros (k : Nat) : ∀ c ∈ List.replicate k '0', c.isDigit = true := by
  intro c stored
  rw [List.eq_of_mem_replicate stored]
  rfl

lemma exponentText_eq (e : Int) : ∃ digits, (Double.exponentText e).toList =
      'e' :: (if decide (e < 0) then '-' else '+') :: digits ∧ digits ≠ [] ∧ (∀ c ∈ digits, c.isDigit = true) ∧
      digitsValue digits = e.natAbs := by
  have digits : (toString e.natAbs).toList = Nat.toDigits 10 e.natAbs := Nat.toList_repr
  have all : ∀ c ∈ Nat.toDigits 10 e.natAbs, c.isDigit = true := fun c =>
    Nat.isDigit_of_mem_toDigits (by decide) (by decide)
  have value := digitsValue_toDigits e.natAbs
  have sign : (if e < 0 then "-" else "+").toList = [if decide (e < 0) then '-' else '+'] := by
    split <;> simp_all
  by_cases short : (toString e.natAbs).length < 2
  · refine ⟨'0' :: Nat.toDigits 10 e.natAbs, ?_, by simp, ?_, ?_⟩
    · simp only [Double.exponentText, short, if_true, String.toList_append, sign, digits]
      rfl
    · simpa using all
    · rw [digitsValue_zero_cons, value]
  · refine ⟨Nat.toDigits 10 e.natAbs, ?_, Nat.toDigits_ne_nil, all, value⟩
    simp only [Double.exponentText, short, if_false, String.toList_append, sign, digits]
    rfl

variable {d : Double.Decimal} {m : Nat} {q : Int}

/-- True of a numeral that is read as a finite double, with the sign that stands before it. -/
structure Numeral.StandsFor (n : Numeral) (m : Nat) (q : Int) : Prop where
  valid : n.Valid
  stands : ∀ negative, n.toDouble negative = .finite negative m q

section Layout

variable (reads : d.Reads m q) {c : Char} {more : List Char} {k : Nat}
variable (all : ∀ c' ∈ c :: more, c'.isDigit = true) (value : digitsValue (c :: more) = d.digits)
include reads all value

/-- The point stands before the digits. -/
lemma standsFor_small (place : d.exponent = -(k + 1 + more.length : Int)) :
    Numeral.StandsFor ⟨['0'], List.replicate k '0' ++ c :: more, none⟩ m q := by
  refine ⟨⟨.inl rfl, by simp, ?_, by simp, by simp⟩, fun negative => ?_⟩
  · intro c' stored
    exact (List.mem_append.mp stored).elim (isDigit_zeros _ c') (all c')
  · rw [← reads.reads negative, Numeral.toDouble, List.singleton_append, digitsValue_zero_cons,
      digitsValue_zeros_append, value]
    congr 1
    simp only [Numeral.shift, List.length_append, List.length_replicate, List.length_cons]
    omega

variable (natural : c ≠ '0')
include natural

/-- The digits of an integer are followed by zeros, and a zero stands behind the point. -/
lemma standsFor_integer (up : 0 ≤ d.exponent) :
    Numeral.StandsFor ⟨c :: more ++ List.replicate d.exponent.toNat '0', ['0'], none⟩ m q := by
  refine ⟨⟨.inr ⟨c, _, rfl, natural⟩, ?_, by simp, by simp, by simp⟩, fun negative => ?_⟩
  · intro c' stored
    exact (List.mem_append.mp stored).elim (all c') (isDigit_zeros _ c')
  · rw [← reads.reads negative, Numeral.toDouble]
    apply Double.ofDecimal_congr reads.some reads.low reads.high
    · simp [Numeral.shift]
    · simp [Numeral.shift]
    · rw [digitsValue_append, digitsValue_append_zeros, value, Double.zpow_of_nonneg 10 up]
      simp [Numeral.shift]

/-- The point stands among the digits. -/
lemma standsFor_point (inside : k < more.length) (place : d.exponent = k - more.length) :
    Numeral.StandsFor ⟨(c :: more).take (k + 1), (c :: more).drop (k + 1), none⟩ m q := by
  have some : ¬ more.length ≤ k := by omega
  refine ⟨⟨.inr ⟨c, _, rfl, natural⟩, fun c' stored => all c' (List.mem_of_mem_take stored),
    fun c' stored => all c' (List.mem_of_mem_drop stored), by simp, by simp [some]⟩, fun negative => ?_⟩
  rw [← reads.reads negative, Numeral.toDouble, List.take_append_drop, value]
  congr 1
  simp only [Numeral.shift, List.length_drop, List.length_cons]
  omega

/-- In scientific notation one digit stands before the point. -/
lemma standsFor_scientific {lead : Int} (place : d.exponent = lead - more.length) {power : List Char}
    (present : power ≠ []) (digits : ∀ c' ∈ power, c'.isDigit = true) (size : digitsValue power = lead.natAbs) :
    Numeral.StandsFor ⟨[c], more, some (decide (lead < 0), power)⟩ m q := by
  refine ⟨⟨.inr ⟨c, [], rfl, natural⟩, fun c' stored => all c' (by simp [List.mem_singleton.mp stored]),
    fun c' stored => all c' (List.mem_cons_of_mem _ stored), ?_, by simp⟩, fun negative => ?_⟩
  · rintro e ⟨⟩
    exact ⟨present, digits⟩
  · rw [← reads.reads negative, Numeral.toDouble, List.singleton_append, value]
    congr 1
    simp only [Numeral.shift, size, decide_eq_true_eq]
    split <;> omega

end Layout

/-- Decimal digits that are read back as a double are written as a numeral that stands for it. -/
lemma write_numeral (reads : d.Reads m q) :
    ∃ n : Numeral, n.StandsFor m q ∧ (Double.Layout.plain.write d).toList = n.text := by
  have all : ∀ c ∈ Nat.toDigits 10 d.digits, c.isDigit = true := fun c =>
    Nat.isDigit_of_mem_toDigits (by decide) (by decide)
  have value := digitsValue_toDigits d.digits
  obtain ⟨c, more, is, natural⟩ : ∃ c more, Nat.toDigits 10 d.digits = c :: more ∧ c ≠ '0' := by
    obtain ⟨none, -⟩ | front := toDigits_cases d.digits
    · exact absurd none reads.some.ne'
    · exact front
  have digits : (toString d.digits).toList = c :: more := is ▸ Nat.toList_repr
  rw [is] at all value
  unfold Double.Layout.write
  simp only [digits, Double.Layout.plain, if_true]
  generalize placed : d.exponent + ((c :: more).length : Int) - 1 = lead
  rw [List.length_cons, Nat.cast_succ] at placed
  -- The cases are those of the writer: without an exponent there are three places for the point.
  split
  · split
    · next up => exact ⟨_, standsFor_integer reads all value natural up, by simp [Numeral.text, Numeral.tail]⟩
    · split
      · have inside : lead.toNat < more.length := by omega
        have some : ¬ more.length ≤ lead.toNat := by omega
        exact ⟨_, standsFor_point reads all value natural inside (by omega), by
          simp [Numeral.text, Numeral.tail, some]⟩
      · have place : d.exponent = -(((-lead).toNat - 1 : Nat) + 1 + more.length : Int) := by omega
        exact ⟨_, standsFor_small reads all value place, by simp [Numeral.text, Numeral.tail]⟩
  · obtain ⟨power, is, present, digits', size⟩ := exponentText_eq lead
    refine ⟨_, standsFor_scientific reads all value natural (by omega) present digits' size, ?_⟩
    rw [String.toList_append, is, String.toList_ofList]
    cases more <;> simp [Numeral.text, Numeral.tail]

/-- A finite double is read as it was written: without its sign its text is a numeral, which stands for it. -/
lemma reads_finite (depth : Nat) {negative : Bool} (canonical : (Double.finite negative m q).Canonical) :
    Reads depth (Double.finite negative m q).text.toList (.double (.finite negative m q)) := by
  obtain ⟨n, ⟨valid, stands⟩, is⟩ : ∃ n : Numeral, n.StandsFor m q ∧
      (if m = 0 then "0.0" else Double.Layout.plain.write (Double.shortest m q)).toList = n.text := by
    split
    · next zero =>
      obtain ⟨-, -, -, is | some⟩ := canonical
      · refine ⟨⟨['0'], ['0'], none⟩, ⟨⟨.inl rfl, by simp, by simp, by simp, by simp⟩, fun negative => ?_⟩, rfl⟩
        rw [zero, is]
        rfl
      · rw [zero] at some
        norm_num at some
    · next some => exact write_numeral (Double.shortest_reads (Nat.pos_of_ne_zero some) canonical)
  obtain ⟨c, more, begins, digit⟩ := valid.begins
  rw [Double.text, String.toList_append, is]
  have written : (if negative then "-" else "").toList ++ n.text = c :: (more ++ n.text.drop (more.length + 1)) ∨
      (if negative then "-" else "").toList ++ n.text = '-' :: c :: (more ++ n.text.drop (more.length + 1)) := by
    rw [Numeral.text, begins]
    cases negative <;> simp
  refine reads_number depth digit written fun rest apart => ?_
  obtain ⟨plain, minus⟩ := valid.readNumber apart
  rw [stands] at plain minus
  cases negative
  · exact plain
  · exact minus

lemma reads_double (depth : Nat) {x : Double} (canonical : x.Canonical) :
    Reads depth (writeDouble x).toList (.double x) := by
  -- Each of the three words is found among those that stand for values.
  have word {text : List Char} (solid : ∃ c more, text = c :: more ∧ Solid c)
      (reads : ∀ steps rest, readValue (steps + 1) depth (text ++ rest) = .ok (.double x, rest)) :
      Reads depth text (.double x) := by
    refine ⟨solid, fun steps rest enough _ => ?_⟩
    obtain ⟨c, more, rfl, -⟩ := solid
    obtain ⟨steps, rfl⟩ : ∃ more, steps = more + 1 := ⟨steps - 1, by simp at enough; omega⟩
    exact reads steps rest
  cases x with
  | nan =>
    refine word ⟨'N', _, rfl, rfl, by decide⟩ fun steps rest => ?_
    simp [readValue, readWord?, wordValues, writeDouble]
  | infinite negative =>
    cases negative with
    | false =>
      refine word ⟨'I', _, rfl, rfl, by decide⟩ fun steps rest => ?_
      simp [readValue, readWord?, wordValues, writeDouble]
    | true =>
      refine word ⟨'-', _, rfl, rfl, by decide⟩ fun steps rest => ?_
      simp [readValue, readWord?, wordValues, writeDouble]
  | finite negative m q => exact reads_finite depth canonical

end Written

end RepoAudit.Json
