import Mathlib.Data.List.Forall2
import Mathlib.Data.String.Basic
import RepoAudit.Clock

/-!
# The order of instants and of their texts

Of two instants the earlier one has the lesser text, because every field of an instant has its width and the greater
fields come first. There is one exception: the fraction of a second is left out when it is zero, and the mark that
stands in its place then is greater than a point. So a whole second has a greater text than the other instants of its
second (`Instant.text_le_iff`).
-/

namespace RepoAudit

/-! ## Digits -/

namespace Text

/-- The last digits of a number. -/
def digits : Nat → Nat → List Char
  | 0, _ => []
  | width + 1, n => digits width (n / 10) ++ [(n % 10).digitChar]

@[simp] lemma length_digits (width n : Nat) : (digits width n).length = width := by
  induction width generalizing n with
  | zero => rfl
  | succ width ih => simp [digits, ih]

lemma digits_zero (width : Nat) : digits width 0 = List.replicate width '0' := by
  induction width with
  | zero => rfl
  | succ width ih => rw [digits, List.replicate_succ', ih]; rfl

/-- A number that is not too great has its digits, with zeros before them. -/
lemma toList_padded {width n : Nat} (wide : 0 < width) (small : n < 10 ^ width) :
    (padded width n).toList = digits width n := by
  have is : (padded width n).toList =
      List.replicate (width - (Nat.toDigits 10 n).length) '0' ++ Nat.toDigits 10 n := by
    simp [padded, String.toList_append, Nat.repr]
  rw [is]
  clear is
  induction width generalizing n with
  | zero => cases wide
  | succ width ih =>
    by_cases single : n < 10
    · rw [Nat.toDigits_of_lt_base single, digits, Nat.div_eq_of_lt single, Nat.mod_eq_of_lt single, digits_zero]
      rfl
    · have more : 10 ≤ n := Nat.le_of_not_lt single
      have wide : 0 < width := by
        rcases width with _ | width
        · exact absurd small (by simpa using more)
        · exact Nat.succ_pos _
      have fewer : n / 10 < 10 ^ width := Nat.div_lt_of_lt_mul (by rwa [Nat.pow_succ'] at small)
      rw [Nat.toDigits_of_base_le (by decide) more, List.length_append, List.length_singleton, Nat.add_sub_add_right,
        ← List.append_assoc, ih wide fewer, digits]

section Append

variable {α : Type} [LinearOrder α]

lemma append_lt_append {xs ys : List α} (same : xs.length = ys.length) (less : xs < ys) (s t : List α) :
    xs ++ s < ys ++ t := by
  induction xs generalizing ys with
  | nil =>
    cases ys with
    | nil => exact absurd less (List.lt_irrefl _)
    | cons y ys => cases same
  | cons x xs ih =>
    cases ys with
    | nil => cases same
    | cons y ys =>
      rw [List.cons_append, List.cons_append, List.cons_lt_cons_iff]
      obtain first | ⟨rfl, rest⟩ := List.cons_lt_cons_iff.mp less
      · exact .inl first
      · exact .inr ⟨rfl, ih (Nat.succ.inj same) rest⟩

lemma append_lt_append_left (xs : List α) {s t : List α} (less : s < t) : xs ++ s < xs ++ t := by
  induction xs with
  | nil => exact less
  | cons x xs ih => exact List.cons_lt_cons_iff.mpr (.inr ⟨rfl, ih⟩)

/-- Two rows of as many items, with a last item each, are in order by the rows, or else by the last items. -/
lemma lt_or_of_append_le {xs ys : List α} {x y : α} (same : xs.length = ys.length)
    (ordered : xs ++ [x] ≤ ys ++ [y]) : xs < ys ∨ xs = ys ∧ x ≤ y := by
  obtain less | rfl | greater := lt_trichotomy xs ys
  · exact .inl less
  · refine .inr ⟨rfl, le_of_not_gt fun greater => not_lt_of_ge ordered ?_⟩
    exact append_lt_append_left _ (List.cons_lt_cons_iff.mpr (.inl greater))
  · exact absurd (append_lt_append same.symm greater _ _) (not_lt_of_ge ordered)

end Append

lemma digitChar_lt {m n : Nat} (less : m < n) (small : n < 10) : m.digitChar < n.digitChar := by
  have all : ∀ n < 10, ∀ m < n, m.digitChar < n.digitChar := by decide
  exact all n small m less

/-- The lesser of two numbers has the lesser digits. -/
lemma digits_lt {width m n : Nat} (less : m < n) (small : n < 10 ^ width) : digits width m < digits width n := by
  induction width generalizing m n with
  | zero =>
    rw [Nat.pow_zero] at small
    omega
  | succ width ih =>
    have fewer : n / 10 < 10 ^ width := Nat.div_lt_of_lt_mul (by rwa [Nat.pow_succ'] at small)
    rw [digits, digits]
    obtain before | same := Nat.lt_or_eq_of_le (Nat.div_le_div_right (c := 10) less.le)
    · exact append_lt_append (by simp) (ih before fewer) _ _
    · rw [same]
      have last : m % 10 < n % 10 := by omega
      exact append_lt_append_left _ (List.cons_lt_cons_iff.mpr (.inl (digitChar_lt last (Nat.mod_lt _ (by decide)))))

/-- Fields one after the other, each with its width and with what stands after it. -/
def joined : List (Nat × List Char) → List Nat → List Char
  | (width, mark) :: forms, n :: rest => digits width n ++ (mark ++ joined forms rest)
  | _, _ => []

/-- Fields that are not too great for their widths. -/
def Fit (forms : List (Nat × List Char)) (fields : List Nat) : Prop :=
  List.Forall₂ (fun form n => n < 10 ^ form.1) forms fields

/-- The first field in which two rows differ tells which one has the lesser text. -/
lemma joined_lt {forms : List (Nat × List Char)} {first second : List Nat} (same : first.length = second.length)
    (fit : Fit forms second) (less : first < second) (s t : List Char) :
    joined forms first ++ s < joined forms second ++ t := by
  induction fit generalizing first with
  | nil =>
    rw [List.length_eq_zero_iff.mp same] at less
    exact absurd less (List.lt_irrefl _)
  | @cons form n forms rest small _ ih =>
    obtain ⟨width, mark⟩ := form
    cases first with
    | nil => cases same
    | cons m others =>
      simp only [joined, List.append_assoc]
      obtain before | ⟨rfl, after⟩ := List.cons_lt_cons_iff.mp less
      · exact append_lt_append (by simp) (digits_lt before small) _ _
      · exact append_lt_append_left _ (append_lt_append_left _ (ih (Nat.succ.inj same) after))

end Text

/-! ## Instants -/

namespace Instant

/-- The fields of an instant down to its second. -/
def fields (t : Instant) : List Nat := [t.year, t.month, t.day, t.hour, t.minute, t.second]

/-- The widths of these fields, with the marks that stand after them. -/
def forms : List (Nat × List Char) := [(4, ['-']), (2, ['-']), (2, ['T']), (2, [':']), (2, [':']), (2, [])]

/-- An instant whose fields are not too great for their widths. -/
structure Fits (t : Instant) : Prop where
  fields : Text.Fit forms t.fields
  microsecond : t.microsecond < 10 ^ 6

/-- One instant is not after another one: of the first fields in which they differ its own is the lesser. -/
def NotAfter (t t' : Instant) : Prop := t.fields ++ [t.microsecond] ≤ t'.fields ++ [t'.microsecond]

/-- An instant is the whole second of another one, which is after it. -/
def Opens (t t' : Instant) : Prop := t = { t' with microsecond := 0 } ∧ t'.microsecond ≠ 0

instance (t t' : Instant) : Decidable (t.NotAfter t') :=
  inferInstanceAs (Decidable (t.fields ++ [t.microsecond] ≤ t'.fields ++ [t'.microsecond]))

instance (t t' : Instant) : Decidable (t.Opens t') := inferInstanceAs (Decidable (_ ∧ _))

variable {t t' : Instant}

lemma toList_text (fits : t.Fits) : t.text.toList = Text.joined forms t.fields ++ (t.fraction.toList ++ ['Z']) := by
  obtain ⟨_ | ⟨year, _ | ⟨month, _ | ⟨day, _ | ⟨hour, _ | ⟨minute, _ | ⟨second, -⟩⟩⟩⟩⟩⟩, -⟩ := fits
  simp only [text, String.toList_append, Text.toList_padded (by decide) year, Text.toList_padded (by decide) month,
    Text.toList_padded (by decide) day, Text.toList_padded (by decide) hour, Text.toList_padded (by decide) minute,
    Text.toList_padded (by decide) second]
  simp [Text.joined, forms, fields]

/-- The fields of two instants of which one is not after the other. -/
lemma NotAfter.fields (ordered : t.NotAfter t') :
    t.fields < t'.fields ∨ t.fields = t'.fields ∧ t.microsecond ≤ t'.microsecond :=
  Text.lt_or_of_append_le rfl ordered

lemma eq_of_fields (fields : t.fields = t'.fields) (microsecond : t.microsecond = t'.microsecond) : t = t' := by
  cases t
  cases t'
  simp only [Instant.fields, List.cons.injEq] at fields
  simp_all

lemma toList_fraction (fraction : t.microsecond ≠ 0) (small : t.microsecond < 10 ^ 6) :
    t.fraction.toList = '.' :: Text.digits 6 t.microsecond := by
  rw [Instant.fraction, if_neg fraction, String.toList_append, Text.toList_padded (by decide) small]
  rfl

/-- Of two instants the earlier one has the lesser text, unless it is the whole second of the other one. -/
theorem text_le_iff (fits : t.Fits) (fits' : t'.Fits) (ordered : t.NotAfter t') :
    t.text ≤ t'.text ↔ ¬ t.Opens t' := by
  have texts : t.text < t'.text ↔ t.text.toList < t'.text.toList := String.lt_iff_toList_lt
  have texts' : t'.text < t.text ↔ t'.text.toList < t.text.toList := String.lt_iff_toList_lt
  rw [toList_text fits, toList_text fits'] at texts texts'
  obtain before | ⟨same, within⟩ := ordered.fields
  · have length : t.fields.length = t'.fields.length := rfl
    refine iff_of_true (le_of_lt (texts.mpr (Text.joined_lt length fits'.fields before _ _))) fun opens => ?_
    rw [opens.1] at before
    exact lt_irrefl t'.fields before
  rw [same] at texts texts'
  by_cases whole : t.microsecond = 0
  · by_cases whole' : t'.microsecond = 0
    · obtain rfl := eq_of_fields same (whole.trans whole'.symm)
      exact iff_of_true (le_refl _) fun opens => opens.2 whole'
    · -- The mark of universal time stands where the other instant has a point.
      have opens : t.Opens t' := ⟨eq_of_fields same whole, whole'⟩
      refine iff_of_false (not_le_of_gt (texts'.mpr (Text.append_lt_append_left _ ?_))) (not_not_intro opens)
      rw [toList_fraction whole' fits'.microsecond, fraction, if_pos whole]
      exact List.cons_lt_cons_iff.mpr (.inl (by decide))
  · have apart : ¬ t.Opens t' := fun opens => whole (congrArg microsecond opens.1)
    refine iff_of_true ?_ apart
    obtain less | equal := Nat.lt_or_eq_of_le within
    · have fraction' : t'.microsecond ≠ 0 := Nat.ne_of_gt (Nat.lt_of_le_of_lt (Nat.zero_le _) less)
      refine le_of_lt (texts.mpr (Text.append_lt_append_left _ ?_))
      rw [toList_fraction whole fits.microsecond, toList_fraction fraction' fits'.microsecond]
      refine Text.append_lt_append (by simp) (List.cons_lt_cons_iff.mpr (.inr ⟨rfl, ?_⟩)) _ _
      exact Text.digits_lt less fits'.microsecond
    · obtain rfl := eq_of_fields same equal
      exact le_refl _

end Instant

end RepoAudit
