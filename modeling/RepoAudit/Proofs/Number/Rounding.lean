import Mathlib.Algebra.Order.Field.Power
import Mathlib.Data.Rat.Floor
import Mathlib.Tactic.FieldSimp
import Mathlib.Tactic.Linarith
import Mathlib.Tactic.NormNum
import Mathlib.Tactic.Positivity
import Mathlib.Tactic.Ring
import RepoAudit.Number.Double

/-!
# The rounding of doubles

An operation on doubles gives a number nearest to the exact result (`Double.Nearest`). From this follow a bound on
the error, exact results where a double has them, and that a power of two is not passed by less than half of the
distance to its neighbour.
-/

namespace RepoAudit.Double

/-- The value of a finite double. -/
def value? : Double → Option ℚ
  | .finite negative m q => some (signed negative m * 2 ^ q)
  | _ => none

/-- A value is nearest to a number, as far as doubles go: it is a multiple of a power of two by which the number has
53 bits, unless the power is the least one, and it is at most half of that power away. -/
def Nearest (number value : ℚ) : Prop :=
  ∃ m q : ℤ, value = m * 2 ^ q ∧ |number - value| ≤ 2 ^ q / 2 ∧
    (q = leastExponent ∨ 2 ^ (52 + q) ≤ |number|) ∧ |number| < 2 ^ (53 + q)

section Nearest

variable {number value : ℚ}

lemma Nearest.neg (nearest : Nearest number value) : Nearest (-number) (-value) := by
  obtain ⟨m, q, is, near, least, most⟩ := nearest
  refine ⟨-m, q, ?_, ?_, ?_, ?_⟩
  · rw [is]
    push_cast
    ring
  · rw [neg_sub_neg, abs_sub_comm]
    exact near
  · rwa [abs_neg]
  · rwa [abs_neg]

lemma nearest_zero : Nearest 0 0 :=
  ⟨0, leastExponent, by simp, by simp; positivity, .inl rfl, by rw [abs_zero]; positivity⟩

lemma two_zpow_add (n : ℕ) (q : ℤ) : (2 : ℚ) ^ (n + q) = 2 ^ n * 2 ^ q := by
  rw [zpow_add₀ two_ne_zero, zpow_natCast]

/-- The error is a part of the number, apart from the least doubles. -/
lemma Nearest.near (nearest : Nearest number value) : |number - value| ≤ |number| / 2 ^ 53 + 1 / 2 ^ 60 := by
  obtain ⟨m, q, -, near, least, -⟩ := nearest
  refine near.trans ?_
  obtain rfl | wide := least
  · have tiny : (2 : ℚ) ^ leastExponent ≤ 2 ^ (-60 : ℤ) := zpow_le_zpow_right₀ one_le_two (by decide)
    have part : 0 ≤ |number| / 2 ^ 53 := by positivity
    norm_num at tiny ⊢
    linarith
  · have part : (2 : ℚ) ^ q / 2 ≤ |number| / 2 ^ 53 := by
      have wide : 2 ^ 52 * (2 : ℚ) ^ q ≤ |number| := (two_zpow_add 52 q).symm.trans_le wide
      linarith
    have rest : (0 : ℚ) < 1 / 2 ^ 60 := by positivity
    linarith

lemma Nearest.near_of_le {bound : ℚ} (nearest : Nearest number value) (size : |number| ≤ bound) :
    |number - value| ≤ bound / 2 ^ 53 + 1 / 2 ^ 60 := by
  refine nearest.near.trans ?_
  gcongr

/-- A number that is nearer to a power of two than to the next double beyond it is not rounded beyond it. -/
lemma Nearest.abs_le (nearest : Nearest number value) (within : |number| < 2 ^ 56 + 8) : |value| ≤ 2 ^ 56 := by
  obtain ⟨m, q, is, near, least, most⟩ := nearest
  have positive : (0 : ℚ) < 2 ^ q := by positivity
  have beyond : |value| ≤ |number| + 2 ^ q / 2 := by
    have := abs_sub_abs_le_abs_sub value number
    rw [abs_sub_comm] at this
    linarith
  have size : |value| = (|m| : ℤ) * 2 ^ q := by
    rw [is, abs_mul, abs_of_pos positive, Int.cast_abs]
  rw [size] at beyond ⊢
  obtain low | high : q ≤ 3 ∨ 4 ≤ q := by omega
  · have bits : |m| ≤ 2 ^ 53 := by
      have most : |number| < 2 ^ 53 * 2 ^ q := most.trans_eq (two_zpow_add 53 q)
      have : ((|m| : ℤ) : ℚ) < 2 ^ 53 + 1 := by
        by_contra above
        nlinarith
      exact Int.lt_add_one_iff.mp (by exact_mod_cast this)
    have power : (2 : ℚ) ^ q ≤ 2 ^ (3 : ℤ) := zpow_le_zpow_right₀ one_le_two low
    have bits : ((|m| : ℤ) : ℚ) ≤ 2 ^ 53 := by exact_mod_cast bits
    calc ((|m| : ℤ) : ℚ) * 2 ^ q ≤ 2 ^ 53 * 2 ^ (3 : ℤ) := by gcongr
      _ = 2 ^ 56 := by norm_num
  · have wide := least.resolve_left (by rintro rfl; exact absurd high (by decide))
    obtain rfl : q = 4 := by
      by_contra other
      have : (2 : ℚ) ^ (57 : ℤ) ≤ 2 ^ (52 + q) := zpow_le_zpow_right₀ one_le_two (by omega)
      norm_num at this within
      linarith
    have bits : |m| ≤ 2 ^ 52 := by
      have : ((|m| : ℤ) : ℚ) < 2 ^ 52 + 1 := by
        norm_num at beyond within ⊢
        linarith
      exact Int.lt_add_one_iff.mp (by exact_mod_cast this)
    have bits : ((|m| : ℤ) : ℚ) ≤ 2 ^ 52 := by exact_mod_cast bits
    norm_num at bits ⊢
    linarith

/-- A multiple of one half that has 53 bits is a double. -/
lemma Nearest.eq_of_half (nearest : Nearest number value) {k : ℤ} (half : number = k / 2)
    (small : |number| < 2 ^ 52) : value = number := by
  obtain ⟨m, q, is, near, least, -⟩ := nearest
  have below : q ≤ -1 := by
    obtain rfl | wide := least
    · decide
    · by_contra above
      have : (2 : ℚ) ^ (52 : ℤ) ≤ 2 ^ (52 + q) := zpow_le_zpow_right₀ one_le_two (by omega)
      exact absurd (this.trans wide) (not_le.mpr small)
  obtain ⟨n, rfl⟩ : ∃ n : ℕ, q = -1 - n := ⟨(-1 - q).toNat, by omega⟩
  -- Both are multiples of the same power of two, and they are less than it apart.
  have whole : number = (k * 2 ^ n : ℤ) * 2 ^ (-1 - n : ℤ) := by
    rw [half, zpow_sub₀ two_ne_zero]
    push_cast
    rw [zpow_natCast, zpow_neg_one]
    field_simp
  rw [is, whole, ← sub_mul, abs_mul, abs_of_pos (by positivity : (0 : ℚ) < 2 ^ (-1 - n : ℤ))] at near
  have apart : |((k * 2 ^ n : ℤ) : ℚ) - m| ≤ 1 / 2 := by
    have : (0 : ℚ) < 2 ^ (-1 - n : ℤ) := by positivity
    nlinarith
  have same : k * 2 ^ n - m = 0 := by
    rw [← Int.abs_lt_one_iff]
    have : |((k * 2 ^ n - m : ℤ) : ℚ)| < 1 := by
      push_cast at apart ⊢
      linarith
    exact_mod_cast this
  rw [whole, is, sub_eq_zero.mp same]

end Nearest

/-! ## Quotients -/

section Quotient

variable {num den : ℕ} {q : ℤ}

lemma scaled_eq (num : ℕ) (positive : 0 < den) (q : ℤ) : 0 < (scaled num den q).2 ∧
    ((scaled num den q).1 : ℚ) / (scaled num den q).2 = num / den / 2 ^ q := by
  unfold scaled
  split
  · next up =>
    obtain ⟨n, rfl⟩ := Int.eq_ofNat_of_zero_le up
    refine ⟨by positivity, ?_⟩
    push_cast
    rw [Int.toNat_natCast, zpow_natCast, div_mul_eq_div_div]
  · next down =>
    obtain ⟨n, rfl⟩ : ∃ n : ℕ, q = -n := ⟨(-q).toNat, by omega⟩
    refine ⟨positive, ?_⟩
    push_cast
    rw [neg_neg, Int.toNat_natCast, zpow_neg, zpow_natCast, div_inv_eq_mul]
    ring

lemma divideToEven_near (num : ℕ) (positive : 0 < den) :
    |(num : ℚ) / den - divideToEven num den| ≤ 1 / 2 := by
  have rest := Nat.mod_lt num positive
  have whole := Nat.div_add_mod num den
  have near : 2 * num ≤ 2 * (den * divideToEven num den) + den ∧
      2 * (den * divideToEven num den) ≤ 2 * num + den := by
    unfold divideToEven
    dsimp only
    generalize num / den = quotient at *
    generalize num % den = remainder at *
    split
    · rw [mul_add]
      omega
    · split
      · obtain even | odd := Nat.mod_two_eq_zero_or_one quotient
        · rw [even, Nat.add_zero]
          omega
        · rw [odd, mul_add]
          omega
      · omega
  obtain ⟨below, above⟩ := near
  have below : 2 * (num : ℚ) ≤ 2 * (den * divideToEven num den) + den := by exact_mod_cast below
  have above : 2 * (den * divideToEven num den : ℚ) ≤ 2 * num + den := by exact_mod_cast above
  have positive : (0 : ℚ) < den := by exact_mod_cast positive
  rw [abs_le]
  constructor
  · rw [neg_le_sub_iff_le_add, ← sub_le_iff_le_add, le_div_iff₀ positive]
    linarith
  · rw [sub_le_iff_le_add, div_le_iff₀ positive]
    linarith

lemma two_zpow_log2 {n : ℕ} (some : 0 < n) :
    (2 : ℚ) ^ (n.log2 : ℤ) ≤ n ∧ (n : ℚ) < 2 ^ (n.log2 + 1 : ℤ) := by
  constructor
  · exact_mod_cast Nat.log2_self_le some.ne'
  · exact_mod_cast Nat.lt_log2_self

/-- The quotient of the leading powers of two misses a quotient by less than a factor of two. -/
lemma quotient_bounds (given : 0 < num) (positive : 0 < den) :
    2 ^ (num.log2 - den.log2 - 1 : ℤ) ≤ (num : ℚ) / den ∧
      (num : ℚ) / den < 2 ^ (num.log2 - den.log2 + 1 : ℤ) := by
  obtain ⟨low, high⟩ := two_zpow_log2 given
  obtain ⟨low', high'⟩ := two_zpow_log2 positive
  have positive : (0 : ℚ) < den := by exact_mod_cast positive
  rw [le_div_iff₀ positive, div_lt_iff₀ positive]
  constructor
  · calc (2 : ℚ) ^ (num.log2 - den.log2 - 1 : ℤ) * den
        ≤ 2 ^ (num.log2 - den.log2 - 1 : ℤ) * 2 ^ (den.log2 + 1 : ℤ) := by gcongr
      _ = 2 ^ (num.log2 : ℤ) := by
        rw [← zpow_add₀ two_ne_zero]
        congr 1
        omega
      _ ≤ num := low
  · calc (num : ℚ) < 2 ^ (num.log2 + 1 : ℤ) := high
      _ = 2 ^ (num.log2 - den.log2 + 1 : ℤ) * 2 ^ (den.log2 : ℤ) := by
        rw [← zpow_add₀ two_ne_zero]
        congr 1
        omega
      _ ≤ 2 ^ (num.log2 - den.log2 + 1 : ℤ) * den := by gcongr

/-- The quotient has 53 bits at its exponent, unless it is the least one. -/
lemma exponentOf_bounds (given : 0 < num) (positive : 0 < den) :
    (exponentOf num den = leastExponent ∨ 2 ^ (52 + exponentOf num den) ≤ (num : ℚ) / den) ∧
      (num : ℚ) / den < 2 ^ (53 + exponentOf num den) := by
  set guess : ℤ := (num.log2 : ℤ) - den.log2 - 52 with guessed
  obtain ⟨positive', is⟩ := scaled_eq num positive guess
  obtain ⟨above, below⟩ := quotient_bounds given positive
  have few : (scaled num den guess).1 / (scaled num den guess).2 < 2 ^ 52 ↔
      (num : ℚ) / den < 2 ^ (52 + guess) := by
    have power : (0 : ℚ) < 2 ^ guess := by positivity
    have split : (2 : ℚ) ^ (52 + guess) = 2 ^ 52 * 2 ^ guess := two_zpow_add 52 guess
    rw [Nat.div_lt_iff_lt_mul positive', split, ← div_lt_iff₀ power, ← is,
      div_lt_iff₀ (by exact_mod_cast positive')]
    exact_mod_cast Iff.rfl
  -- At the guess the quotient has 52 or 53 bits.
  have exact : ∃ exact : ℤ, exponentOf num den = max exact leastExponent ∧
      2 ^ (52 + exact) ≤ (num : ℚ) / den ∧ (num : ℚ) / den < 2 ^ (53 + exact) := by
    unfold exponentOf
    simp only [← guessed]
    split
    · next fewer =>
      refine ⟨guess - 1, rfl, ?_, ?_⟩
      · exact (congrArg ((2 : ℚ) ^ ·) (by omega)).trans_le above
      · exact (few.mp fewer).trans_eq (congrArg ((2 : ℚ) ^ ·) (by omega))
    · next enough =>
      refine ⟨guess, rfl, not_lt.mp fun fewer => enough (few.mpr fewer), ?_⟩
      exact below.trans_eq (congrArg ((2 : ℚ) ^ ·) (by omega))
  obtain ⟨exact, chosen, enough, most⟩ := exact
  rw [chosen]
  obtain lower | upper := le_total exact leastExponent
  · rw [max_eq_right lower]
    refine ⟨.inl rfl, most.trans_le ?_⟩
    exact zpow_le_zpow_right₀ one_le_two (by omega)
  · rw [max_eq_left upper]
    exact ⟨.inr enough, most⟩

/-- A quotient that is not too large is rounded to a number nearest to it. -/
lemma ofRatio_nearest (negative : Bool) (num : ℕ) (positive : 0 < den) (small : (num : ℚ) / den ≤ 2 ^ 60) :
    ∃ (m : ℕ) (q : ℤ), ofRatio negative num den = .finite negative m q ∧ Nearest (num / den) (m * 2 ^ q) := by
  unfold ofRatio
  obtain rfl | given := Nat.eq_zero_or_pos num
  · refine ⟨0, leastExponent, by simp [zero], ?_⟩
    simpa using nearest_zero
  have nonzero : ¬(num = 0 ∨ den = 0) := by omega
  rw [if_neg nonzero]
  obtain ⟨enough, most⟩ := exponentOf_bounds given positive
  set q := exponentOf num den
  obtain ⟨positive', is⟩ := scaled_eq num positive q
  have power : (0 : ℚ) < 2 ^ q := by positivity
  have near := divideToEven_near (scaled num den q).1 positive'
  rw [is] at near
  set m := divideToEven (scaled num den q).1 (scaled num den q).2
  have quotient : (0 : ℚ) ≤ num / den := by positivity
  have nearest : Nearest (num / den) (m * 2 ^ q) := by
    refine ⟨m, q, by push_cast; rfl, ?_, ?_, ?_⟩
    · have split : (num : ℚ) / den - m * 2 ^ q = (num / den / 2 ^ q - m) * 2 ^ q := by
        rw [sub_mul, div_mul_cancel₀ _ power.ne']
      rw [split, abs_mul, abs_of_pos power]
      linarith [mul_le_mul_of_nonneg_right near power.le]
    · rwa [abs_of_nonneg quotient]
    · rwa [abs_of_nonneg quotient]
  have low : q < 900 := by
    obtain least | wide := enough
    · rw [least]
      decide
    · by_contra high
      have : (2 : ℚ) ^ (61 : ℤ) ≤ 2 ^ (52 + q) := zpow_le_zpow_right₀ one_le_two (by omega)
      norm_num at this small
      linarith
  dsimp only
  have fits (n : ℤ) (below : n ≤ 900) : ¬ greatestExponent < n := by
    unfold greatestExponent
    omega
  split
  · next carried =>
    have carried : m = 2 ^ precision := carried
    rw [if_neg (fits _ (by omega))]
    refine ⟨2 ^ 52, q + 1, rfl, ?_⟩
    have same : ((2 ^ 52 : ℕ) : ℚ) * 2 ^ (q + 1) = m * 2 ^ q := by
      rw [carried, zpow_add₀ two_ne_zero, precision]
      push_cast
      ring
    rw [same]
    exact nearest
  · rw [if_neg (fits _ (by omega))]
    exact ⟨m, q, rfl, nearest⟩

end Quotient

/-! ## Sums -/

lemma value?_ofRatio (negative : Bool) (num : ℕ) {den : ℕ} (positive : 0 < den)
    (small : (num : ℚ) / den ≤ 2 ^ 60) : ∃ r, (ofRatio negative num den).value? = some r ∧
      Nearest (if negative then -(num / den) else num / den) r := by
  obtain ⟨m, q, is, nearest⟩ := ofRatio_nearest negative num positive small
  rw [is, value?]
  refine ⟨_, rfl, ?_⟩
  cases negative
  · simpa [signed] using nearest
  · simpa [signed] using nearest.neg

/-- A number other than zero is rounded as the quotient of its absolute value, with its sign. -/
lemma ofScaled_eq {z : ℤ} (some : z ≠ 0) (q : ℤ) (zeroNegative : Bool) : ∃ num den : ℕ, 0 < num ∧ 0 < den ∧
    (num / den : ℚ) = |(z : ℚ)| * 2 ^ q ∧ ofScaled z q zeroNegative = ofRatio (z < 0) num den := by
  have size : ((z.natAbs : ℕ) : ℚ) = |(z : ℚ)| := by rw [Nat.cast_natAbs, Int.cast_abs]
  have positive : 0 < z.natAbs := Int.natAbs_pos.mpr some
  rw [ofScaled, if_neg some]
  split
  · next up =>
    obtain ⟨n, rfl⟩ := Int.eq_ofNat_of_zero_le up
    refine ⟨z.natAbs * 2 ^ n, 1, by positivity, Nat.one_pos, ?_, rfl⟩
    push_cast [size]
    rw [zpow_natCast, div_one]
  · next down =>
    obtain ⟨n, rfl⟩ : ∃ n : ℕ, q = -n := ⟨(-q).toNat, by omega⟩
    refine ⟨z.natAbs, 2 ^ n, positive, by positivity, ?_, ?_⟩
    · push_cast [size]
      rw [zpow_neg, zpow_natCast, div_eq_mul_inv]
    · rw [neg_neg, Int.toNat_natCast]

lemma value?_ofScaled (z q : ℤ) (zeroNegative : Bool) (small : |(z : ℚ) * 2 ^ q| ≤ 2 ^ 60) :
    ∃ r, (ofScaled z q zeroNegative).value? = some r ∧ Nearest (z * 2 ^ q) r := by
  obtain rfl | some := eq_or_ne z 0
  · refine ⟨0, ?_, ?_⟩
    · simp [ofScaled, zero, value?, signed]
    · rw [Int.cast_zero, zero_mul]
      exact nearest_zero
  · obtain ⟨num, den, -, positive, quotient, is⟩ := ofScaled_eq some q zeroNegative
    rw [abs_mul, abs_of_pos (by positivity : (0 : ℚ) < 2 ^ q), ← quotient] at small
    obtain ⟨r, is', nearest⟩ := value?_ofRatio (z < 0) num positive small
    rw [← is] at is'
    refine ⟨r, is', ?_⟩
    -- The quotient that is rounded is the absolute value of the number.
    rw [quotient] at nearest
    obtain below | above := lt_or_ge z 0
    · have negative : (z : ℚ) < 0 := by exact_mod_cast below
      rwa [if_pos (decide_eq_true below), abs_of_neg negative, neg_mul, neg_neg] at nearest
    · have positive : (0 : ℚ) ≤ z := by exact_mod_cast above
      rwa [if_neg (by simpa using above), abs_of_nonneg positive] at nearest

lemma alignedSum_eq (x p y q : ℤ) :
    ((alignedSum x p y q).1 : ℚ) * 2 ^ (alignedSum x p y q).2 = x * 2 ^ p + y * 2 ^ q := by
  unfold alignedSum
  split
  · next first =>
    obtain ⟨n, rfl⟩ : ∃ n : ℕ, q = p + n := ⟨(q - p).toNat, by omega⟩
    rw [add_sub_cancel_left, Int.toNat_natCast, zpow_add₀ two_ne_zero, zpow_natCast]
    push_cast
    ring
  · next second =>
    obtain ⟨n, rfl⟩ : ∃ n : ℕ, p = q + n := ⟨(p - q).toNat, by omega⟩
    rw [add_sub_cancel_left, Int.toNat_natCast, zpow_add₀ two_ne_zero, zpow_natCast]
    push_cast
    ring

variable {x y : Double} {a b : ℚ}

/-- A sum that is not too large is rounded to a number nearest to it. -/
lemma value?_add (left : x.value? = some a) (right : y.value? = some b) (small : |a + b| ≤ 2 ^ 60) :
    ∃ r, (x.add y).value? = some r ∧ Nearest (a + b) r := by
  cases x with
  | nan | infinite => cases left
  | finite s m p =>
    cases y with
    | nan | infinite => cases right
    | finite t n q =>
      obtain rfl := Option.some.inj left
      obtain rfl := Option.some.inj right
      rw [← alignedSum_eq] at small ⊢
      exact value?_ofScaled _ _ _ small

lemma value?_negate (is : x.value? = some a) : x.negate.value? = some (-a) := by
  cases x with
  | nan | infinite => cases is
  | finite s m q =>
    obtain rfl := Option.some.inj is
    cases s <;> simp [negate, value?, signed]

lemma value?_sub (left : x.value? = some a) (right : y.value? = some b) (small : |a - b| ≤ 2 ^ 60) :
    ∃ r, (x.sub y).value? = some r ∧ Nearest (a - b) r := by
  rw [sub_eq_add_neg] at small ⊢
  exact value?_add left (value?_negate right) small

lemma floor_eq (is : x.value? = some a) : x.floor = .ok ⌊a⌋ := by
  cases x with
  | nan | infinite => cases is
  | finite s m q =>
    obtain rfl := Option.some.inj is
    rw [floor]
    congr 1
    split
    · next up =>
      obtain ⟨n, rfl⟩ := Int.eq_ofNat_of_zero_le up
      rw [Int.toNat_natCast, zpow_natCast]
      exact_mod_cast (Int.floor_intCast (signed s m * 2 ^ n)).symm
    · next down =>
      obtain ⟨n, rfl⟩ : ∃ n : ℕ, q = -n := ⟨(-q).toNat, by omega⟩
      have quotient : (signed s m : ℚ) * 2 ^ (-n : ℤ) = signed s m / (2 ^ n : ℕ) := by
        rw [zpow_neg, zpow_natCast]
        push_cast
        rw [div_eq_mul_inv]
      rw [neg_neg, Int.toNat_natCast, quotient, Rat.floor_intCast_div_natCast, Int.fdiv_eq_ediv_of_nonneg]
      · push_cast
        rfl
      · positivity

lemma value?_half : half.value? = some (1 / 2) := by
  obtain ⟨r, is, nearest⟩ := value?_ofRatio false 1 two_pos (by norm_num)
  have exact : r = 1 / 2 := by
    have same := nearest.eq_of_half (k := 1) (by simp) (by norm_num)
    simpa using same
  exact exact ▸ is

/-- A half goes up, except that the sum with one half may be rounded first. -/
lemma roundHalfUp_eq (is : x.value? = some a) (small : |a| ≤ 2 ^ 59) :
    ∃ r, (x.add half).value? = some r ∧ Nearest (a + 1 / 2) r ∧ x.roundHalfUp = .ok ⌊r⌋ := by
  have small' : |a + 1 / 2| ≤ 2 ^ 60 := by
    refine (abs_add_le _ _).trans ?_
    norm_num at small ⊢
    linarith
  obtain ⟨r, adds, nearest⟩ := value?_add is value?_half small'
  exact ⟨r, adds, nearest, floor_eq adds⟩

end RepoAudit.Double
