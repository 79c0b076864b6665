import RepoAudit.Number.Shortest
import RepoAudit.Proofs.Number.Canonical

/-!
# The shortest digits

The digits that are found for a canonical double are read back as it (`Double.shortest_reads`). The search ends with
17 digits at the latest: the nearest decimal of so many digits is closer than a part in `2^54`.
-/

namespace RepoAudit.Double

section Quotient

variable {num den : ℕ}

lemma ratioOf_eq (m : ℕ) (q : ℤ) :
    0 < (ratioOf m q).2 ∧ ((ratioOf m q).1 : ℚ) / (ratioOf m q).2 = m * 2 ^ q := by
  unfold ratioOf
  split
  · next up =>
    refine ⟨one_pos, ?_⟩
    push_cast
    rw [div_one, zpow_of_nonneg 2 up]
  · next down =>
    refine ⟨by positivity, ?_⟩
    push_cast
    rw [div_eq_mul_inv, zpow_of_neg 2 down]

lemma decimalScaled_eq (num : ℕ) (positive : 0 < den) (e : ℤ) : 0 < (decimalScaled num den e).2 ∧
    ((decimalScaled num den e).1 : ℚ) / (decimalScaled num den e).2 = num / den / 10 ^ e := by
  unfold decimalScaled
  split
  · next up =>
    refine ⟨by positivity, ?_⟩
    push_cast
    rw [div_mul_eq_div_div, zpow_of_nonneg 10 up]
  · next down =>
    refine ⟨positive, ?_⟩
    push_cast
    rw [zpow_of_neg 10 down, div_inv_eq_mul]
    ring

lemma digitCount_bounds {n : ℕ} (some : 0 < n) :
    (10 : ℚ) ^ (digitCount n - 1 : ℤ) ≤ n ∧ (n : ℚ) < 10 ^ (digitCount n : ℤ) := by
  have long : 0 < digitCount n := Nat.length_toDigits_pos
  obtain ⟨less, is⟩ : ∃ less, digitCount n = less + 1 := ⟨digitCount n - 1, by omega⟩
  have below : n < 10 ^ digitCount n := (Nat.length_toDigits_le_iff (by decide) long).mp (le_refl _)
  have above : 10 ^ less ≤ n := by
    by_contra fewer
    obtain rfl | more := Nat.eq_zero_or_pos less
    · omega
    · have short := (Nat.length_toDigits_le_iff (by decide) more).mpr (not_le.mp fewer)
      rw [← digitCount] at short
      omega
  constructor
  · rw [is]
    push_cast
    rw [add_sub_cancel_right, zpow_natCast]
    exact_mod_cast above
  · rw [zpow_natCast]
    exact_mod_cast below

/-- The leading digit of a quotient stands at its leading exponent. -/
lemma leadingExponent_bounds (given : 0 < num) (positive : 0 < den) :
    (10 : ℚ) ^ leadingExponent num den ≤ num / den ∧ (num : ℚ) / den < 10 ^ (leadingExponent num den + 1) := by
  set guess : ℤ := (digitCount num : ℤ) - digitCount den with guessed
  obtain ⟨low, high⟩ := digitCount_bounds given
  obtain ⟨low', high'⟩ := digitCount_bounds positive
  obtain ⟨positive', is⟩ := decimalScaled_eq num positive guess
  have den_pos : (0 : ℚ) < den := by exact_mod_cast positive
  have less : (decimalScaled num den guess).1 < (decimalScaled num den guess).2 ↔ (num : ℚ) / den < 10 ^ guess := by
    have positive' : (0 : ℚ) < (decimalScaled num den guess).2 := by exact_mod_cast positive'
    rw [← div_lt_one (by positivity : (0 : ℚ) < 10 ^ guess), ← is, div_lt_one positive']
    exact_mod_cast Iff.rfl
  have above : (10 : ℚ) ^ (guess - 1) ≤ num / den := by
    rw [le_div_iff₀ den_pos]
    calc (10 : ℚ) ^ (guess - 1) * den ≤ 10 ^ (guess - 1) * 10 ^ (digitCount den : ℤ) := by gcongr
      _ = 10 ^ (digitCount num - 1 : ℤ) := by
        rw [← zpow_add₀ (by norm_num)]
        congr 1
        omega
      _ ≤ num := low
  have below : (num : ℚ) / den < 10 ^ (guess + 1) := by
    rw [div_lt_iff₀ den_pos]
    calc (num : ℚ) < 10 ^ (digitCount num : ℤ) := high
      _ = 10 ^ (guess + 1) * 10 ^ (digitCount den - 1 : ℤ) := by
        rw [← zpow_add₀ (by norm_num)]
        congr 1
        omega
      _ ≤ 10 ^ (guess + 1) * den := by gcongr
  unfold leadingExponent
  simp only [← guessed]
  split
  · next fewer =>
    rw [sub_add_cancel]
    exact ⟨above, less.mp fewer⟩
  · next enough => exact ⟨not_lt.mp fun fewer => enough (less.mpr fewer), below⟩

end Quotient

/-! ## The search -/

section Search

variable {x : Double} {num den : ℕ} {e : ℤ}

/-- Of two neighbours the nearest multiple of the power of ten is tried first. -/
lemma neighbour?_eq (x : Double) (num den : ℕ) (e : ℤ) : ∃ other, neighbour? x num den e =
    let reads (k : ℕ) : Bool := k != 0 && ofDecimal false k e == x
    let nearest := divideToEven (decimalScaled num den e).1 (decimalScaled num den e).2
    if reads nearest then some ⟨nearest, e⟩ else if reads other then some ⟨other, e⟩ else none := by
  have nearest (n d : ℕ) : divideToEven n d =
      if d < 2 * (n % d) ∨ d = 2 * (n % d) ∧ n / d % 2 = 1 then n / d + 1 else n / d := by
    unfold divideToEven
    dsimp only
    split_ifs <;> omega
  rw [nearest]
  exact ⟨_, rfl⟩

lemma reads_iff {k : ℕ} : (k != 0 && ofDecimal false k e == x) = true ↔ 0 < k ∧ ofDecimal false k e = x := by
  simp [Nat.pos_iff_ne_zero]

lemma neighbour?_reads {d : Decimal} (is : neighbour? x num den e = some d) :
    d.exponent = e ∧ 0 < d.digits ∧ ofDecimal false d.digits d.exponent = x := by
  obtain ⟨other, tries⟩ := neighbour?_eq x num den e
  rw [tries] at is
  dsimp only at is
  split at is
  · next passes =>
    cases is
    exact ⟨rfl, reads_iff.mp passes⟩
  · split at is
    · next passes =>
      cases is
      exact ⟨rfl, reads_iff.mp passes⟩
    · cases is

/-- The nearest multiple of the power of ten is found when it is read back. -/
lemma neighbour?_isSome {k : ℕ} (some : 0 < k) (reads : ofDecimal false k e = x)
    (nearest : divideToEven (decimalScaled num den e).1 (decimalScaled num den e).2 = k) :
    (neighbour? x num den e).isSome = true := by
  obtain ⟨other, tries⟩ := neighbour?_eq x num den e
  rw [tries, nearest]
  dsimp only
  rw [if_pos (reads_iff.mpr ⟨some, reads⟩)]
  rfl

/-- A search that ends with 17 digits at the latest finds digits that are read back. -/
lemma searchDigits_reads {lead : ℤ} (found : (neighbour? x num den (lead - 16)).isSome = true) :
    ∀ (steps count : ℕ), 0 < steps → count + steps = 18 → 0 < count →
      lead - 16 ≤ (searchDigits x num den lead steps count).exponent ∧
      (searchDigits x num den lead steps count).exponent ≤ lead ∧
      0 < (searchDigits x num den lead steps count).digits ∧
      ofDecimal false (searchDigits x num den lead steps count).digits
        (searchDigits x num den lead steps count).exponent = x := by
  intro steps
  induction steps with
  | zero => exact fun _ none => absurd none (lt_irrefl 0)
  | succ steps ih =>
    intro count _ total some
    rw [searchDigits]
    split
    · next d is =>
      obtain ⟨exponent, reads⟩ := neighbour?_reads is
      exact ⟨by omega, by omega, reads⟩
    · next none =>
      refine ih _ (Nat.pos_of_ne_zero fun last => ?_) (by omega) (Nat.succ_pos count)
      -- The last try is the one with 17 digits.
      have same : lead - (count : ℤ) + 1 = lead - 16 := by omega
      rw [same] at none
      rw [none] at found
      cases found

lemma dropZeros_eq : ∀ (steps : ℕ) (d : Decimal), 0 < d.digits →
    0 < (dropZeros steps d).digits ∧ d.exponent ≤ (dropZeros steps d).exponent ∧
      (dropZeros steps d).exponent ≤ d.exponent + steps ∧
      ((dropZeros steps d).digits : ℚ) * 10 ^ (dropZeros steps d).exponent = d.digits * 10 ^ d.exponent := by
  intro steps
  induction steps with
  | zero => exact fun d some => ⟨some, le_refl _, by simp [dropZeros], rfl⟩
  | succ steps ih =>
    intro d some
    rw [dropZeros]
    split
    · next trailing =>
      obtain ⟨some', low, high, same⟩ := ih ⟨d.digits / 10, d.exponent + 1⟩ (by
        change 0 < d.digits / 10
        omega)
      refine ⟨some', by simp at low; omega, by simp at high; push_cast; omega, ?_⟩
      have split : (d.digits : ℚ) = (d.digits / 10 : ℕ) * 10 := by
        exact_mod_cast (Nat.div_mul_cancel (Nat.dvd_of_mod_eq_zero trailing.2)).symm
      rw [same, split, zpow_add_one₀ (by norm_num)]
      ring
    · exact ⟨some, le_refl _, by push_cast; omega, rfl⟩

end Search

/-! ## Canonical doubles -/

lemma two_zpow_le_ten_zpow (n : ℕ) : (2 : ℚ) ^ (3 * n : ℤ) ≤ 10 ^ (n : ℤ) := by
  rw [zpow_mul, zpow_natCast, zpow_natCast]
  gcongr
  norm_num

lemma ten_zpow_neg_le_two_zpow (n : ℕ) : (10 : ℚ) ^ (-n : ℤ) ≤ 2 ^ (-(3 * n) : ℤ) := by
  rw [zpow_neg, zpow_neg]
  exact inv_anti₀ (by positivity) (two_zpow_le_ten_zpow n)

section Canonical

variable {m : ℕ} {q : ℤ}

/-- The leading digit of a double stands between exponents for which no decimal is too great or too small. -/
lemma leadingExponent_range (some : 0 < m) (canonical : (finite false m q).Canonical) {num den : ℕ}
    (given : 0 < num) (positive : 0 < den) (value : (num : ℚ) / den = m * 2 ^ q) :
    -360 < leadingExponent num den ∧ leadingExponent num den < 342 := by
  obtain ⟨most, least, greatest, -⟩ := canonical
  obtain ⟨low, high⟩ := leadingExponent_bounds given positive
  rw [value] at low high
  have power : (0 : ℚ) < 2 ^ q := by positivity
  constructor
  · have some : (1 : ℚ) ≤ m := by exact_mod_cast some
    have : (10 : ℚ) ^ (-358 : ℤ) < 10 ^ (leadingExponent num den + 1) := by
      calc (10 : ℚ) ^ (-358 : ℤ) ≤ 2 ^ (-(3 * 358) : ℤ) := ten_zpow_neg_le_two_zpow 358
        _ ≤ 2 ^ q := zpow_le_zpow_right₀ one_le_two least
        _ ≤ m * 2 ^ q := by nlinarith
        _ < 10 ^ (leadingExponent num den + 1) := high
    rw [zpow_lt_zpow_iff_right₀ (by norm_num)] at this
    omega
  · have most : (m : ℚ) < 2 ^ 53 := by exact_mod_cast most
    have : (10 : ℚ) ^ leadingExponent num den < 10 ^ (342 : ℤ) := by
      calc (10 : ℚ) ^ leadingExponent num den ≤ m * 2 ^ q := low
        _ < 2 ^ 53 * 2 ^ q := by gcongr
        _ ≤ 2 ^ 53 * 2 ^ (971 : ℤ) := by
          gcongr
          · exact one_le_two
          · exact greatest
        _ = 2 ^ (1024 : ℤ) := (two_zpow_add 53 971).symm
        _ ≤ 2 ^ (3 * 342 : ℤ) := zpow_le_zpow_right₀ one_le_two (by norm_num)
        _ ≤ 10 ^ (342 : ℤ) := two_zpow_le_ten_zpow 342
    rwa [zpow_lt_zpow_iff_right₀ (by norm_num)] at this

/-- The nearest decimal of 17 digits is read back. -/
lemma ofDecimal_of_nearest (some : 0 < m) (canonical : (finite false m q).Canonical) {num den : ℕ}
    (given : 0 < num) (positive : 0 < den) (value : (num : ℚ) / den = m * 2 ^ q) {k : ℕ}
    (nearest : divideToEven (decimalScaled num den (leadingExponent num den - 16)).1
      (decimalScaled num den (leadingExponent num den - 16)).2 = k) :
    0 < k ∧ ofDecimal false k (leadingExponent num den - 16) = .finite false m q := by
  obtain ⟨low, high⟩ := leadingExponent_range some canonical given positive value
  obtain ⟨first, -⟩ := leadingExponent_bounds given positive
  set lead := leadingExponent num den
  obtain ⟨positive', is⟩ := decimalScaled_eq num positive (lead - 16)
  have near := divideToEven_near (decimalScaled num den (lead - 16)).1 positive'
  rw [nearest, is, value] at near
  rw [value] at first
  have power : (0 : ℚ) < 10 ^ (lead - 16) := by positivity
  have wide : (10 : ℚ) ^ 16 * 10 ^ (lead - 16) ≤ m * 2 ^ q := by
    refine le_of_eq_of_le ?_ first
    rw [← zpow_natCast, ← zpow_add₀ (by norm_num)]
    congr 1
    push_cast
    ring
  have near : |(m : ℚ) * 2 ^ q - k * 10 ^ (lead - 16)| ≤ 10 ^ (lead - 16) / 2 := by
    have split : (m : ℚ) * 2 ^ q - k * 10 ^ (lead - 16) = (m * 2 ^ q / 10 ^ (lead - 16) - k) * 10 ^ (lead - 16) := by
      rw [sub_mul, div_mul_cancel₀ _ power.ne']
    rw [split, abs_mul, abs_of_pos power]
    linarith [mul_le_mul_of_nonneg_right near power.le]
  have some' : 0 < k := by
    obtain ⟨-, below⟩ := abs_le.mp near
    have : (0 : ℚ) < k * 10 ^ (lead - 16) := by linarith
    exact_mod_cast pos_of_mul_pos_left this power.le
  have low : -400 ≤ lead - 16 := by omega
  have high : lead - 16 ≤ 400 := by omega
  obtain ⟨num', den', given', positive'', value', rounds⟩ := ofDecimal_eq some' low high
  refine ⟨some', ?_⟩
  rw [rounds]
  apply ofRatio_of_near given' positive'' some canonical
  rw [value', abs_sub_comm]
  refine near.trans_lt ?_
  linarith

/-- Digits that are read back as a positive double, with an exponent that is neither too great nor too small. -/
structure Decimal.Reads (d : Decimal) (m : ℕ) (q : ℤ) : Prop where
  some : 0 < d.digits
  low : -400 ≤ d.exponent
  high : d.exponent ≤ 400
  reads : ∀ negative, ofDecimal negative d.digits d.exponent = .finite negative m q

/-- The shortest digits of a canonical double are read back as it. -/
theorem shortest_reads (some : 0 < m) (canonical : (finite false m q).Canonical) : (shortest m q).Reads m q := by
  obtain ⟨positive, value⟩ := ratioOf_eq m q
  unfold shortest
  dsimp only
  generalize (ratioOf m q).1 = num at *
  generalize (ratioOf m q).2 = den at *
  have given : 0 < num := by
    have quotient : (0 : ℚ) < num * (den : ℚ)⁻¹ := by
      rw [← div_eq_mul_inv, value]
      positivity
    exact_mod_cast pos_of_mul_pos_left quotient (by positivity)
  obtain ⟨low, high⟩ := leadingExponent_range some canonical given positive value
  obtain ⟨some', reads⟩ := ofDecimal_of_nearest some canonical given positive value rfl
  obtain ⟨from17, to1, some', reads⟩ :=
    searchDigits_reads (neighbour?_isSome some' reads rfl) 17 1 (by norm_num) rfl one_pos
  generalize searchDigits (.finite false m q) num den (leadingExponent num den) 17 1 = found at *
  obtain ⟨some'', more, few, same⟩ := dropZeros_eq 20 found some'
  push_cast at few
  refine ⟨some'', by omega, by omega, fun negative => ?_⟩
  rw [ofDecimal_congr some' (by omega) (by omega) (by omega) (by omega) same]
  exact ofDecimal_sign some' (by omega) (by omega) reads negative

end Canonical

end RepoAudit.Double
