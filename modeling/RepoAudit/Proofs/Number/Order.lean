import RepoAudit.Proofs.Number.Canonical

/-!
# Rounding keeps the order

Among the numbers that a double can have (`Double.Representable`), the one that rounding gives is as near as any. So
of two exact results the smaller one is not rounded above the other, and a difference is not rounded above what it is
taken from.
-/

namespace RepoAudit.Double

/-- A number of 53 bits at an exponent that doubles have. -/
def Representable (number : ℚ) : Prop := ∃ m q : ℤ, number = m * 2 ^ q ∧ |m| < 2 ^ 53 ∧ leastExponent ≤ q

section Nearest

variable {number value x y r s d : ℚ}

/-- Within half of a power of two no multiple of it is nearer. -/
lemma near_of_multiple {m q : ℤ} (near : |number - m * 2 ^ q| ≤ 2 ^ q / 2) (n : ℤ) :
    |number - m * 2 ^ q| ≤ |number - n * 2 ^ q| := by
  obtain rfl | other := eq_or_ne m n
  · rfl
  have power : (0 : ℚ) < 2 ^ q := by positivity
  have apart : (2 : ℚ) ^ q ≤ |(m : ℚ) * 2 ^ q - n * 2 ^ q| := by
    rw [← sub_mul, abs_mul, abs_of_pos power]
    apply le_mul_of_one_le_left power.le
    exact_mod_cast Int.one_le_abs (sub_ne_zero.mpr other)
  have around := abs_sub_le ((m : ℚ) * 2 ^ q) number (n * 2 ^ q)
  rw [abs_sub_comm ((m : ℚ) * 2 ^ q) number] at around
  linarith

lemma Nearest.best (nearest : Nearest number value) (can : Representable d) :
    |number - value| ≤ |number - d| := by
  obtain ⟨m, q, rfl, near, least, -⟩ := nearest
  obtain ⟨n, p, rfl, bits, above⟩ := can
  rcases le_or_gt q p with coarse | fine
  · obtain ⟨k, rfl⟩ := Int.le.dest coarse
    have multiple : (n : ℚ) * 2 ^ (q + k) = (n * 2 ^ k : ℤ) * 2 ^ q := by
      rw [zpow_add₀ two_ne_zero, zpow_natCast]
      push_cast
      ring
    rw [multiple]
    exact near_of_multiple near _
  · -- A number with a lower exponent lies on the other side of the power of two that the number has.
    have wide : 2 ^ 52 * (2 : ℚ) ^ q ≤ |number| :=
      (two_zpow_add 52 q).symm.trans_le (least.resolve_left (by omega))
    have below : |(n : ℚ) * 2 ^ p| ≤ 2 ^ 52 * (2 : ℚ) ^ q := by
      have bits : |(n : ℚ)| ≤ 2 ^ 53 := by exact_mod_cast bits.le
      rw [abs_mul, abs_of_pos (by positivity : (0 : ℚ) < 2 ^ p)]
      calc |(n : ℚ)| * 2 ^ p ≤ 2 ^ 53 * 2 ^ p := by gcongr
        _ = 2 ^ (53 + p) := (two_zpow_add 53 p).symm
        _ ≤ 2 ^ (52 + q) := zpow_le_zpow_right₀ one_le_two (by omega)
        _ = 2 ^ 52 * 2 ^ q := two_zpow_add 52 q
    have beyond : |number| - 2 ^ 52 * (2 : ℚ) ^ q ≤ |number - n * 2 ^ p| := by
      have := abs_sub_abs_le_abs_sub number (n * 2 ^ p)
      linarith
    refine le_trans ?_ beyond
    have bound : ((2 ^ 52 : ℤ) : ℚ) = 2 ^ 52 := by norm_num
    rcases le_or_gt 0 number with positive | negative
    · have closer := near_of_multiple near (2 ^ 52)
      rw [abs_of_nonneg positive] at wide ⊢
      rwa [bound, abs_of_nonneg (sub_nonneg.mpr wide)] at closer
    · have closer := near_of_multiple near (-2 ^ 52)
      rw [abs_of_neg negative] at wide ⊢
      have under : number - -2 ^ 52 * (2 : ℚ) ^ q ≤ 0 := by linarith
      rw [Int.cast_neg, bound, abs_of_nonpos under] at closer
      linarith

/-- Of two numbers the smaller one is not rounded above the other. -/
lemma Nearest.le_of_lt (nearest : Nearest x r) (nearest' : Nearest y s) (can : Representable r)
    (can' : Representable s) (less : x < y) : r ≤ s := by
  by_contra above
  -- Then the first lies in the upper half between the results, and the second one in the lower half.
  have upper : r + s ≤ 2 * x := by
    have best := sq_le_sq.mpr (nearest.best can')
    nlinarith
  have lower : 2 * y ≤ r + s := by
    have best := sq_le_sq.mpr (nearest'.best can)
    nlinarith
  linarith

end Nearest

section Sums

variable {x y x' y' : Double} {a b a' b' r s : ℚ}

lemma Canonical.representable (canonical : x.Canonical) (is : x.value? = some a) : Representable a := by
  cases x with
  | nan => cases is
  | infinite => cases is
  | finite negative m q =>
    obtain rfl := Option.some.inj is
    obtain ⟨bits, least, -⟩ := canonical
    have bits : (m : ℤ) < 2 ^ 53 := by exact_mod_cast bits
    refine ⟨signed negative m, q, rfl, ?_, least⟩
    cases negative
    · rwa [signed, if_neg Bool.false_ne_true, abs_of_nonneg m.cast_nonneg]
    · rwa [signed, if_pos rfl, abs_neg, abs_of_nonneg m.cast_nonneg]

lemma canonical_ofScaled (z q : ℤ) (zeroNegative : Bool) : (ofScaled z q zeroNegative).Canonical := by
  unfold ofScaled
  split
  · exact canonical_zero _
  · split
    · exact canonical_ofRatio _ _ _
    · exact canonical_ofRatio _ _ _

lemma canonical_add (x y : Double) : (x.add y).Canonical := by
  cases x with
  | nan => trivial
  | infinite s =>
    cases y with
    | nan => trivial
    | infinite t =>
      rw [add]
      split
      · trivial
      · trivial
    | finite => trivial
  | finite s m p =>
    cases y with
    | nan => trivial
    | infinite => trivial
    | finite => exact canonical_ofScaled _ _ _

/-- What a number is rounded to depends on its value alone. -/
lemma value?_ofScaled_congr {z q z' q' : ℤ} (same : (z : ℚ) * 2 ^ q = z' * 2 ^ q') (negative negative' : Bool) :
    (ofScaled z q negative).value? = (ofScaled z' q' negative').value? := by
  have power : (0 : ℚ) < 2 ^ q := by positivity
  have power' : (0 : ℚ) < 2 ^ q' := by positivity
  obtain rfl | some := eq_or_ne z 0
  · have none : z' = 0 := by
      rw [Int.cast_zero, zero_mul, eq_comm, mul_eq_zero, or_iff_left power'.ne'] at same
      exact_mod_cast same
    subst none
    simp [ofScaled, zero, value?, signed]
  have some' : z' ≠ 0 := by
    rintro rfl
    rw [Int.cast_zero, zero_mul, mul_eq_zero, or_iff_left power.ne'] at same
    exact some (by exact_mod_cast same)
  obtain ⟨num, den, given, positive, quotient, is⟩ := ofScaled_eq some q negative
  obtain ⟨num', den', given', positive', quotient', is'⟩ := ofScaled_eq some' q' negative'
  have equal : (num / den : ℚ) = num' / den' := by
    rw [quotient, quotient', ← abs_of_pos power, ← abs_of_pos power', ← abs_mul, ← abs_mul, same]
  have sign (w p : ℤ) : w < 0 ↔ (w : ℚ) * 2 ^ p < 0 := by
    have power : (0 : ℚ) < 2 ^ p := by positivity
    rw [mul_neg_iff, ← Int.cast_lt_zero (R := ℚ), or_iff_right fun both => power.not_gt both.2, and_iff_left power]
  have signs : z < 0 ↔ z' < 0 := by rw [sign z q, sign z' q', same]
  rw [is, is', decide_eq_decide.mpr signs, ofRatio_congr given positive given' positive' equal]

lemma value?_add_congr (left : x.value? = some a) (right : y.value? = some b) (left' : x'.value? = some a')
    (right' : y'.value? = some b') (same : a + b = a' + b') : (x.add y).value? = (x'.add y').value? := by
  cases x with
  | nan => cases left
  | infinite => cases left
  | finite =>
    cases y with
    | nan => cases right
    | infinite => cases right
    | finite =>
      cases x' with
      | nan => cases left'
      | infinite => cases left'
      | finite =>
        cases y' with
        | nan => cases right'
        | infinite => cases right'
        | finite =>
          cases left
          cases right
          cases left'
          cases right'
          rw [← alignedSum_eq, ← alignedSum_eq] at same
          exact value?_ofScaled_congr same _ _

/-- Sums are rounded in their order. -/
lemma value?_add_le (left : x.value? = some a) (right : y.value? = some b) (left' : x'.value? = some a')
    (right' : y'.value? = some b') (small : |a + b| ≤ 2 ^ 60) (small' : |a' + b'| ≤ 2 ^ 60)
    (le : a + b ≤ a' + b') :
    ∃ r s, (x.add y).value? = some r ∧ (x'.add y').value? = some s ∧ r ≤ s := by
  obtain ⟨r, is, nearest⟩ := value?_add left right small
  obtain ⟨s, is', nearest'⟩ := value?_add left' right' small'
  refine ⟨r, s, is, is', ?_⟩
  rcases le.eq_or_lt with same | less
  · rw [value?_add_congr left right left' right' same, is'] at is
    exact (Option.some.inj is).ge
  · have can := (canonical_add x y).representable is
    have can' := (canonical_add x' y').representable is'
    exact nearest.le_of_lt nearest' can can' less

/-- Differences with one subtrahend are rounded in the order of what they are taken from. -/
lemma value?_sub_le_sub (left : x.value? = some a) (left' : x'.value? = some a') (right : y.value? = some b)
    (small : |a - b| ≤ 2 ^ 60) (small' : |a' - b| ≤ 2 ^ 60) (le : a ≤ a') :
    ∃ r s, (x.sub y).value? = some r ∧ (x'.sub y).value? = some s ∧ r ≤ s := by
  rw [sub_eq_add_neg] at small small'
  exact value?_add_le left (value?_negate right) left' (value?_negate right) small small' (by linarith)

/-- A difference is not rounded above the double that it is taken from. -/
lemma value?_sub_le (canonical : x.Canonical) (left : x.value? = some a) (right : y.value? = some b) (positive : 0 ≤ b)
    (small : |a - b| ≤ 2 ^ 60) : ∃ r, (x.sub y).value? = some r ∧ r ≤ a := by
  obtain ⟨r, is, nearest⟩ := value?_sub left right small
  refine ⟨r, is, ?_⟩
  have best := nearest.best (canonical.representable left)
  rw [sub_sub_cancel_left, abs_neg, abs_of_nonneg positive] at best
  have := (abs_le.mp best).1
  linarith

end Sums

end RepoAudit.Double
