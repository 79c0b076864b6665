import RepoAudit.Proofs.Number.Rounding

/-!
# Canonical doubles

Rounding gives canonical doubles (`Double.Canonical`), and each value has one of them, so what a quotient is rounded
to depends on its value alone. A quotient that is less than a part in `2^54` away from a canonical double is rounded to
it, also where it lies below a power of two, between doubles that are closer to each other.
-/

namespace RepoAudit.Double

/-- True of the doubles that rounding gives: a finite one has a significand of 53 bits, unless its exponent is the
least one. -/
def Canonical : Double → Prop
  | .finite _ m q => m < 2 ^ 53 ∧ leastExponent ≤ q ∧ q ≤ greatestExponent ∧ (q = leastExponent ∨ 2 ^ 52 ≤ m)
  | _ => True

lemma canonical_zero (negative : Bool) : (zero negative).Canonical :=
  ⟨by positivity, le_refl _, by decide, .inl rfl⟩

section Quotient

variable {num den : ℕ} {q : ℤ} {m : ℕ}

lemma leastExponent_le_exponentOf (num den : ℕ) : leastExponent ≤ exponentOf num den := le_max_right _ _

/-- A quotient has 53 bits at one exponent only. -/
lemma exponentOf_eq (given : 0 < num) (positive : 0 < den) (least : leastExponent ≤ q)
    (enough : q = leastExponent ∨ 2 ^ (52 + q) ≤ (num : ℚ) / den) (most : (num : ℚ) / den < 2 ^ (53 + q)) :
    exponentOf num den = q := by
  obtain ⟨enough', most'⟩ := exponentOf_bounds given positive
  have least' := leastExponent_le_exponentOf num den
  have apart {p r : ℤ} (wide : 2 ^ (52 + r) ≤ (num : ℚ) / den) (narrow : (num : ℚ) / den < 2 ^ (53 + p)) : r ≤ p := by
    have powers : (2 : ℚ) ^ (52 + r) < 2 ^ (53 + p) := wide.trans_lt narrow
    rw [zpow_lt_zpow_iff_right₀ one_lt_two] at powers
    omega
  apply le_antisymm
  · obtain is | wide := enough'
    · exact is.trans_le least
    · exact apart wide most
  · obtain rfl | wide := enough
    · exact least'
    · exact apart wide most'

lemma divideToEven_mul {c : ℕ} (some : 0 < c) (num den : ℕ) :
    divideToEven (num * c) (den * c) = divideToEven num den := by
  have scale (a b : ℕ) : a * c < 2 * (b * c) ↔ a < 2 * b := by
    rw [← mul_assoc]
    exact Nat.mul_lt_mul_right some
  have scale' (a b : ℕ) : a * c = 2 * (b * c) ↔ a = 2 * b := by
    rw [← mul_assoc]
    exact Nat.mul_left_inj some.ne'
  simp only [divideToEven, Nat.mul_div_mul_right _ _ some, Nat.mul_mod_mul_right, scale, scale']

lemma divideToEven_congr {num' den' : ℕ} (positive : 0 < den) (positive' : 0 < den')
    (same : (num : ℚ) / den = num' / den') : divideToEven num den = divideToEven num' den' := by
  have cross : num * den' = num' * den := by
    rw [div_eq_div_iff (by exact_mod_cast positive.ne') (by exact_mod_cast positive'.ne')] at same
    exact_mod_cast same
  rw [← divideToEven_mul positive' num den, cross, mul_comm den den', divideToEven_mul positive]

/-- A quotient that is less than one half away from a number is rounded to it. -/
lemma divideToEven_eq (positive : 0 < den) (near : |(num : ℚ) / den - m| < 1 / 2) : divideToEven num den = m := by
  have near' := divideToEven_near num positive
  have apart : |((divideToEven num den : ℤ) - m : ℚ)| < 1 := by
    calc |((divideToEven num den : ℤ) - m : ℚ)|
        = |((num : ℚ) / den - m) - (num / den - divideToEven num den)| := by
          congr 1
          push_cast
          ring
      _ ≤ |(num : ℚ) / den - m| + |(num : ℚ) / den - divideToEven num den| := abs_sub _ _
      _ < 1 := by linarith
  have same : (divideToEven num den : ℤ) - m = 0 := Int.abs_lt_one_iff.mp (by exact_mod_cast apart)
  omega

/-- What a quotient is rounded to, by its exponent and its significand. -/
lemma ofRatio_eq (given : 0 < num) (positive : 0 < den) (negative : Bool) (is : exponentOf num den = q)
    (rounded : divideToEven (scaled num den q).1 (scaled num den q).2 = m) :
    ofRatio negative num den =
      if m = 2 ^ 53 then if greatestExponent < q + 1 then .infinite negative else .finite negative (2 ^ 52) (q + 1)
      else if greatestExponent < q then .infinite negative else .finite negative m q := by
  have nonzero : ¬ (num = 0 ∨ den = 0) := by omega
  rw [ofRatio, if_neg nonzero, is]
  dsimp only
  rw [rounded]
  change (if greatestExponent < (if m = 2 ^ 53 then ((2 ^ 52 : ℕ), q + 1) else (m, q)).2 then _ else
    Double.finite negative (if m = 2 ^ 53 then ((2 ^ 52 : ℕ), q + 1) else (m, q)).1
      (if m = 2 ^ 53 then ((2 ^ 52 : ℕ), q + 1) else (m, q)).2) = _
  split <;> rfl

/-- What a quotient is rounded to depends on its value alone. -/
lemma ofRatio_congr {num' den' : ℕ} (given : 0 < num) (positive : 0 < den) (given' : 0 < num') (positive' : 0 < den')
    (same : (num : ℚ) / den = num' / den') (negative : Bool) :
    ofRatio negative num den = ofRatio negative num' den' := by
  have exponent : exponentOf num' den' = exponentOf num den := by
    obtain ⟨enough, most⟩ := exponentOf_bounds given positive
    rw [same] at enough most
    exact exponentOf_eq given' positive' (leastExponent_le_exponentOf num den) enough most
  rw [ofRatio_eq given positive negative rfl rfl, ofRatio_eq given' positive' negative exponent ?_]
  obtain ⟨some, is⟩ := scaled_eq num positive (exponentOf num den)
  obtain ⟨some', is'⟩ := scaled_eq num' positive' (exponentOf num den)
  exact divideToEven_congr some' some (by rw [is, is', same])

/-- A quotient that is less than half a unit away from a multiple of it is rounded to that. -/
lemma divideToEven_scaled (positive : 0 < den) (near : |(num : ℚ) / den - m * 2 ^ q| < 2 ^ q / 2) :
    divideToEven (scaled num den q).1 (scaled num den q).2 = m := by
  obtain ⟨positive', is⟩ := scaled_eq num positive q
  have power : (0 : ℚ) < 2 ^ q := by positivity
  have same : (num : ℚ) / den / 2 ^ q - m = (num / den - m * 2 ^ q) / 2 ^ q := by
    rw [sub_div, mul_div_cancel_right₀ _ power.ne']
  apply divideToEven_eq positive'
  rw [is, same, abs_div, abs_of_pos power, div_lt_iff₀ power]
  linarith

/-- A significand has no more than 53 bits before a carry, and not less, unless the exponent is the least one. -/
lemma divideToEven_bounds (given : 0 < num) (positive : 0 < den) (is : exponentOf num den = q) :
    divideToEven (scaled num den q).1 (scaled num den q).2 ≤ 2 ^ 53 ∧
      (q = leastExponent ∨ 2 ^ 52 ≤ divideToEven (scaled num den q).1 (scaled num den q).2) := by
  obtain ⟨enough, most⟩ := exponentOf_bounds given positive
  obtain ⟨some, scale⟩ := scaled_eq num positive q
  have near := divideToEven_near (scaled num den q).1 some
  generalize divideToEven (scaled num den q).1 (scaled num den q).2 = m at near ⊢
  rw [scale, abs_le] at near
  rw [is] at enough most
  have power : (0 : ℚ) < 2 ^ q := by positivity
  constructor
  · have below : (num : ℚ) / den / 2 ^ q < 2 ^ 53 := by
      rw [div_lt_iff₀ power]
      exact most.trans_eq (two_zpow_add 53 q)
    have : (m : ℚ) < 2 ^ 53 + 1 := by linarith [near.1]
    exact Nat.lt_add_one_iff.mp (by exact_mod_cast this)
  · refine enough.imp id fun wide => ?_
    have above : 2 ^ 52 ≤ (num : ℚ) / den / 2 ^ q := by
      rw [le_div_iff₀ power]
      exact (two_zpow_add 52 q).symm.trans_le wide
    have : (2 : ℚ) ^ 52 < m + 1 := by linarith [near.2]
    exact Nat.lt_add_one_iff.mp (by exact_mod_cast this)

lemma canonical_ofRatio (negative : Bool) (num den : ℕ) : (ofRatio negative num den).Canonical := by
  by_cases none : num = 0 ∨ den = 0
  · rw [ofRatio, if_pos none]
    exact canonical_zero negative
  have given : 0 < num := by omega
  have positive : 0 < den := by omega
  rw [ofRatio_eq given positive negative rfl rfl]
  have least := leastExponent_le_exponentOf num den
  obtain ⟨most, enough⟩ := divideToEven_bounds given positive rfl
  split
  · split
    · trivial
    · exact ⟨by norm_num, by omega, by omega, .inr (le_refl _)⟩
  · next uncarried =>
    split
    · trivial
    · exact ⟨lt_of_le_of_ne most uncarried, least, by omega, enough⟩

/-- A quotient that lies a little below a power of two, between doubles that are closer to each other, is rounded up to
the power. -/
lemma ofRatio_of_near_below {negative : Bool} (given : 0 < num) (positive : 0 < den) (least : leastExponent ≤ q - 1)
    (greatest : q ≤ greatestExponent) (near : |(num : ℚ) / den - 2 ^ 52 * 2 ^ q| < 2 ^ 52 * 2 ^ q / 2 ^ 54)
    (narrow : (num : ℚ) / den < 2 ^ 52 * 2 ^ q) : ofRatio negative num den = .finite negative (2 ^ 52) q := by
  have half : (2 : ℚ) ^ q = 2 * 2 ^ (q - 1) := by
    rw [zpow_sub_one₀ two_ne_zero]
    ring
  have power : (0 : ℚ) < 2 ^ (q - 1) := by positivity
  rw [half] at near narrow
  obtain ⟨below, above⟩ := abs_lt.mp near
  have wide : 2 ^ (52 + (q - 1)) ≤ (num : ℚ) / den := by
    refine (two_zpow_add 52 (q - 1)).trans_le ?_
    linarith
  have fits : (num : ℚ) / den < 2 ^ (53 + (q - 1)) := by
    refine lt_of_lt_of_eq ?_ (two_zpow_add 53 (q - 1)).symm
    linarith
  have exponent := exponentOf_eq given positive least (.inr wide) fits
  have rounded : divideToEven (scaled num den (q - 1)).1 (scaled num den (q - 1)).2 = 2 ^ 53 := by
    apply divideToEven_scaled positive
    have same : ((2 ^ 53 : ℕ) : ℚ) * 2 ^ (q - 1) = 2 ^ 52 * (2 * 2 ^ (q - 1)) := by
      push_cast
      ring
    rw [same]
    linarith
  rw [ofRatio_eq given positive negative exponent rounded, if_pos rfl, sub_add_cancel, if_neg (by omega)]

/-- A quotient that is less than a part in `2^54` away from a canonical double is rounded to it. -/
lemma ofRatio_of_near {negative : Bool} (given : 0 < num) (positive : 0 < den) (some : 0 < m)
    (canonical : (finite negative m q).Canonical) (near : |(num : ℚ) / den - m * 2 ^ q| < m * 2 ^ q / 2 ^ 54) :
    ofRatio negative num den = .finite negative m q := by
  obtain ⟨most, least, greatest, enough⟩ := canonical
  have power : (0 : ℚ) < 2 ^ q := by positivity
  have most' : (m : ℚ) ≤ 2 ^ 53 - 1 := by
    have : (m : ℚ) + 1 ≤ 2 ^ 53 := by exact_mod_cast most
    linarith
  obtain ⟨below, above⟩ := abs_lt.mp near
  by_cases wide : q = leastExponent ∨ 2 ^ (52 + q) ≤ (num : ℚ) / den
  · -- The quotient has the exponent of the double.
    have fits : (num : ℚ) / den < 2 ^ (53 + q) := by
      refine lt_of_lt_of_eq ?_ (two_zpow_add 53 q).symm
      nlinarith
    have exponent := exponentOf_eq given positive least wide fits
    have rounded : divideToEven (scaled num den q).1 (scaled num den q).2 = m := by
      apply divideToEven_scaled positive
      refine near.trans_le ?_
      nlinarith
    rw [ofRatio_eq given positive negative exponent rounded, if_neg most.ne, if_neg (by omega)]
  · -- The double is the power of two that the quotient lies below.
    obtain ⟨inner, narrow⟩ := not_or.mp wide
    have narrow : (num : ℚ) / den < 2 ^ 52 * 2 ^ q := (not_le.mp narrow).trans_eq (two_zpow_add 52 q)
    obtain rfl : m = 2 ^ 52 := by
      refine le_antisymm ?_ (enough.resolve_left inner)
      have : (m : ℚ) < 2 ^ 52 + 1 := by nlinarith
      exact Nat.lt_add_one_iff.mp (by exact_mod_cast this)
    push_cast at near
    exact ofRatio_of_near_below given positive (by omega) greatest near narrow

end Quotient

/-! ## Decimals -/

lemma zpow_of_nonneg (b : ℚ) {e : ℤ} (up : 0 ≤ e) : b ^ e = b ^ e.toNat := by
  rw [← zpow_natCast, Int.toNat_of_nonneg up]

lemma zpow_of_neg (b : ℚ) {e : ℤ} (down : ¬ 0 ≤ e) : b ^ e = (b ^ (-e).toNat)⁻¹ := by
  rw [← zpow_natCast, Int.toNat_of_nonneg (by omega), zpow_neg, inv_inv]

section Decimals

variable {digits : ℕ} {exponent : ℤ}

/-- A decimal whose exponent is not far from that of a double is rounded as a quotient. -/
lemma ofDecimal_eq (some : 0 < digits) (low : -400 ≤ exponent) (high : exponent ≤ 400) :
    ∃ num den : ℕ, 0 < num ∧ 0 < den ∧ (num : ℚ) / den = digits * 10 ^ exponent ∧
      ∀ negative, ofDecimal negative digits exponent = ofRatio negative num den := by
  have nonzero : ¬ digits = 0 := some.ne'
  have inner : ¬ exponent + ((digits.log2 / 3 + 1 : ℕ) : ℤ) < -400 := by omega
  by_cases up : 0 ≤ exponent
  · refine ⟨digits * 10 ^ exponent.toNat, 1, by positivity, one_pos, ?_, fun negative => ?_⟩
    · push_cast
      rw [div_one, zpow_of_nonneg 10 up]
    · rw [ofDecimal, if_neg nonzero, if_neg (by omega), if_neg inner, if_pos up]
  · refine ⟨digits, 10 ^ (-exponent).toNat, some, by positivity, ?_, fun negative => ?_⟩
    · push_cast
      rw [div_eq_mul_inv, zpow_of_neg 10 up]
    · rw [ofDecimal, if_neg nonzero, if_neg (by omega), if_neg inner, if_neg up]

/-- What a decimal is rounded to depends on its value alone. -/
lemma ofDecimal_congr {digits' : ℕ} {exponent' : ℤ} (some : 0 < digits) (low : -400 ≤ exponent)
    (high : exponent ≤ 400) (low' : -400 ≤ exponent') (high' : exponent' ≤ 400)
    (same : (digits' : ℚ) * 10 ^ exponent' = digits * 10 ^ exponent) (negative : Bool) :
    ofDecimal negative digits' exponent' = ofDecimal negative digits exponent := by
  have some' : 0 < digits' := by
    have value : (0 : ℚ) < digits' * 10 ^ exponent' := by
      rw [same]
      positivity
    exact_mod_cast pos_of_mul_pos_left value (by positivity)
  obtain ⟨num, den, given, positive, value, is⟩ := ofDecimal_eq some low high
  obtain ⟨num', den', given', positive', value', is'⟩ := ofDecimal_eq some' low' high'
  rw [is, is']
  exact ofRatio_congr given' positive' given positive (by rw [value, value', same]) negative

lemma canonical_ofDecimal (negative : Bool) (digits : ℕ) (exponent : ℤ) :
    (ofDecimal negative digits exponent).Canonical := by
  unfold ofDecimal
  split
  · exact canonical_zero negative
  split
  · trivial
  split
  · exact canonical_zero negative
  split <;> exact canonical_ofRatio _ _ _

lemma ofDecimal_sign {m : ℕ} {q : ℤ} (some : 0 < digits) (low : -400 ≤ exponent) (high : exponent ≤ 400)
    (is : ofDecimal false digits exponent = .finite false m q) (negative : Bool) :
    ofDecimal negative digits exponent = .finite negative m q := by
  obtain ⟨num, den, given, positive, -, rounds⟩ := ofDecimal_eq some low high
  rw [rounds, ofRatio_eq given positive _ rfl rfl] at is ⊢
  split at is
  · next carried =>
    split at is
    · cases is
    · next fits =>
      cases is
      rw [if_pos carried, if_neg fits]
  · next uncarried =>
    split at is
    · cases is
    · next fits =>
      cases is
      rw [if_neg uncarried, if_neg fits]

end Decimals

end RepoAudit.Double
