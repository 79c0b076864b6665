import RepoAudit.Proofs.Number.Rounding
import RepoAudit.Score

/-!
# Scores and exact scores

The penalties of a category are subtracted one at a time, and every difference is rounded. The remainder stays so
near to the exact one that a score is the exact one, unless the exact remainder is a half: then the rounded one may
be just below it, and the score is one less.
-/

namespace RepoAudit.Scores

/-- What a finding of the severity costs, exactly. -/
def cost (severity : String) : ℚ :=
  match Severity.ofName? severity with
  | some .critical => 3
  | some .high => 2
  | some .medium => 1
  | some .low => 3 / 10
  | none => 1 / 2

/-- True of a finding of the least severity. -/
def isLow (finding : Finding) : Bool := Severity.ofName? finding.severity == some .low

section Category

variable (category : Category) (findings : List Finding)

/-- The findings of a category. -/
def within : List Finding := findings.filter (·.category == category.name)

/-- What is left of the start after the costs of the findings of a category. -/
def left : ℚ := greatest - ((within category findings).map fun finding => cost finding.severity).sum

/-- The score of a category without rounding before the last step. -/
def exactly : Int := clamp ⌊left category findings + 1 / 2⌋

/-- The number of findings of a category that are of the least severity. -/
def lows : Nat := (within category findings).countP isLow

/-- The exact remainder of a category is a half above a whole number, with findings of the least severity, by fives. -/
def AtHalf : Prop :=
  ∃ whole : ℕ, left category findings = whole + 1 / 2 ∧ whole ≤ 8 ∧ 0 < lows category findings ∧
    5 ∣ lows category findings

/-- The exact remainder of a category is a half above a whole number, but with one half more the rounded one does not
come to the next whole number. -/
def FallsShort : Prop :=
  ∃ whole : ℕ, left category findings = whole + 1 / 2 ∧
    ∃ sum, ((remainder category findings).add Double.half).value? = some sum ∧ sum < whole + 1

end Category

/-! ## Penalties -/

lemma cost_bounds (severity : String) : 3 / 10 ≤ cost severity ∧ cost severity ≤ 3 := by
  unfold cost
  split <;> norm_num

lemma value?_penalty (severity : String) :
    ∃ p, (penalty severity).value? = some p ∧ Double.Nearest (cost severity) p := by
  unfold penalty cost
  have rounds (num : ℕ) {den : ℕ} (positive : 0 < den) (small : (num : ℚ) / den ≤ 2 ^ 60) :=
    Double.value?_ofRatio false num positive small
  generalize Severity.ofName? severity = known
  cases known with
  | none => simpa using rounds 1 Nat.two_pos (by norm_num)
  | some known =>
    cases known with
    | critical => simpa using rounds 3 Nat.one_pos (by norm_num)
    | high => simpa using rounds 2 Nat.one_pos (by norm_num)
    | medium => simpa using rounds 1 Nat.one_pos (by norm_num)
    | low => simpa using rounds 3 (by decide : 0 < 10) (by norm_num)

/-- A penalty is the cost, but for what is cut off. -/
lemma penalty_near {severity : String} {p : ℚ} (nearest : Double.Nearest (cost severity) p) :
    |cost severity - p| ≤ 1 / 2 ^ 51 := by
  obtain ⟨least, most⟩ := cost_bounds severity
  refine nearest.near.trans ?_
  rw [abs_of_pos (by linarith)]
  norm_num
  linarith

/-- A double follows what is left: it is near to it as long as the score is not settled, and then it stays below. -/
def Follows (x : Double) (left : ℚ) : Prop :=
  ∃ a, x.value? = some a ∧ |a| ≤ 2 ^ 56 ∧ (-1 ≤ left → |a - left| ≤ (10 - left) / 2 ^ 46) ∧
    (left < -1 → a ≤ -9 / 10)

lemma Follows.sub {x : Double} {left : ℚ} (follows : Follows x left) (started : left ≤ 10) (severity : String) :
    Follows (x.sub (penalty severity)) (left - cost severity) := by
  obtain ⟨a, is, small, near, below⟩ := follows
  obtain ⟨p, is', nearest⟩ := value?_penalty severity
  obtain ⟨least, most⟩ := cost_bounds severity
  obtain ⟨small, small'⟩ := abs_le.mp small
  obtain ⟨cut, cut'⟩ := abs_le.mp (penalty_near nearest)
  have size : |a - p| ≤ 2 ^ 56 + 4 := by
    norm_num at small small' cut cut' ⊢
    rw [abs_le]
    constructor <;> linarith
  obtain ⟨r, subtracts, rounded⟩ := Double.value?_sub is is' (size.trans (by norm_num))
  refine ⟨r, subtracts, rounded.abs_le (size.trans_lt (by norm_num)), fun open' => ?_, fun settled => ?_⟩
  · -- While the score is open, an error is less than the part of the bound that the cost adds.
    obtain ⟨near, near'⟩ := abs_le.mp (near (by linarith))
    norm_num at near near' cut cut'
    have size : |a - p| ≤ 14 := by
      rw [abs_le]
      constructor <;> linarith
    obtain ⟨error, error'⟩ := abs_le.mp (rounded.near_of_le size)
    norm_num at error error' ⊢
    rw [abs_le]
    constructor <;> linarith
  · have low : a - p ≤ -99 / 100 := by
      obtain open' | settled' := le_or_gt (-1) left
      · obtain ⟨near, near'⟩ := abs_le.mp (near open')
        norm_num at near near' cut cut'
        linarith
      · have := below settled'
        norm_num at cut cut'
        linarith
    obtain ⟨error, error'⟩ := abs_le.mp rounded.near
    rw [abs_of_neg (by linarith)] at error error'
    norm_num at error error'
    linarith

lemma Follows.foldl (findings : List Finding) : ∀ {x : Double} {left : ℚ}, Follows x left → left ≤ 10 →
    Follows (findings.foldl (fun total finding => total.sub (penalty finding.severity)) x)
      (left - (findings.map fun finding => cost finding.severity).sum) := by
  induction findings with
  | nil =>
    intro x left follows _
    simpa using follows
  | cons finding findings ih =>
    intro x left follows started
    obtain ⟨least, -⟩ := cost_bounds finding.severity
    have next := ih (follows.sub started finding.severity) (by linarith)
    rwa [sub_sub] at next

lemma value?_start : (Double.ofInt greatest).value? = some 10 := by
  obtain ⟨r, is, nearest⟩ := Double.value?_ofRatio false 10 Nat.one_pos (by norm_num)
  have ten : r = 10 := by
    simpa using nearest.eq_of_half (k := 20) (by norm_num) (by norm_num)
  exact ten ▸ is

lemma follows_remainder (category : Category) (findings : List Finding) :
    Follows (remainder category findings) (left category findings) := by
  have start : Follows (Double.ofInt greatest) 10 := by
    refine ⟨10, value?_start, by norm_num, fun _ => by norm_num, fun below => ?_⟩
    norm_num at below
  have follows := start.foldl (within category findings) le_rfl
  exact_mod_cast follows

/-! ## Costs -/

lemma sum_cost_nonneg (findings : List Finding) : 0 ≤ (findings.map fun finding => cost finding.severity).sum := by
  apply List.sum_nonneg
  intro c member
  obtain ⟨finding, -, rfl⟩ := List.mem_map.mp member
  linarith [(cost_bounds finding.severity).1]

lemma cost_of_isLow {finding : Finding} (low : isLow finding = true) : cost finding.severity = 3 / 10 := by
  have known : Severity.ofName? finding.severity = some .low := eq_of_beq low
  rw [cost, known]

/-- All other findings cost a number of halves. -/
lemma cost_of_not_isLow {finding : Finding} (high : isLow finding = false) :
    ∃ k : ℕ, cost finding.severity = k / 2 := by
  unfold cost
  unfold isLow at high
  generalize Severity.ofName? finding.severity = known at high
  cases known with
  | none => exact ⟨1, by norm_num⟩
  | some known =>
    cases known with
    | critical => exact ⟨6, by norm_num⟩
    | high => exact ⟨4, by norm_num⟩
    | medium => exact ⟨2, by norm_num⟩
    | low => cases high

lemma sum_cost (findings : List Finding) : ∃ k : ℕ,
    (findings.map fun finding => cost finding.severity).sum = 3 * findings.countP isLow / 10 + k / 2 := by
  induction findings with
  | nil => exact ⟨0, by simp⟩
  | cons finding findings ih =>
    obtain ⟨k, is⟩ := ih
    rw [List.map_cons, List.sum_cons, is]
    cases low : isLow finding with
    | true =>
      refine ⟨k, ?_⟩
      rw [cost_of_isLow low, List.countP_cons_of_pos low]
      push_cast
      ring
    | false =>
      obtain ⟨j, costs⟩ := cost_of_not_isLow low
      refine ⟨j + k, ?_⟩
      rw [costs, List.countP_cons_of_neg (by simp [low])]
      push_cast
      ring

lemma left_eq (category : Category) (findings : List Finding) :
    ∃ k : ℕ, left category findings = 10 - 3 * lows category findings / 10 - k / 2 := by
  obtain ⟨k, is⟩ := sum_cost (within category findings)
  refine ⟨k, ?_⟩
  rw [left, is, lows, greatest]
  push_cast
  ring

/-- Without findings of the least severity nothing is rounded while the score is open. -/
lemma value?_foldl_of_not_isLow (findings : List Finding) : ∀ {x : Double} {k : ℤ},
    (∀ finding ∈ findings, isLow finding = false) → x.value? = some (k / 2 : ℚ) → (k / 2 : ℚ) ≤ 10 →
    -1 ≤ (k / 2 : ℚ) - (findings.map fun finding => cost finding.severity).sum →
    (findings.foldl (fun total finding => total.sub (penalty finding.severity)) x).value? =
      some ((k / 2 : ℚ) - (findings.map fun finding => cost finding.severity).sum) := by
  induction findings with
  | nil =>
    intro x k _ is _ _
    simpa using is
  | cons finding findings ih =>
    intro x k high is started open'
    obtain ⟨high, higher⟩ := List.forall_mem_cons.mp high
    obtain ⟨j, costs⟩ := cost_of_not_isLow high
    obtain ⟨least, most⟩ := cost_bounds finding.severity
    have rest := sum_cost_nonneg findings
    rw [List.map_cons, List.sum_cons] at open'
    obtain ⟨p, is', nearest⟩ := value?_penalty finding.severity
    have exact : p = cost finding.severity := by
      refine nearest.eq_of_half (k := j) (by rw [costs, Int.cast_natCast]) ?_
      rw [abs_of_pos (by linarith)]
      linarith
    subst exact
    have small : |(k / 2 : ℚ) - cost finding.severity| ≤ 10 := by
      rw [abs_le]
      constructor <;> linarith
    obtain ⟨r, subtracts, rounded⟩ := Double.value?_sub is is' (small.trans (by norm_num))
    have half : (k / 2 : ℚ) - cost finding.severity = ((k - j : ℤ) : ℚ) / 2 := by
      rw [costs]
      push_cast
      ring
    have exact := rounded.eq_of_half half (small.trans_lt (by norm_num))
    rw [exact, half] at subtracts
    have next := ih higher subtracts (by linarith) (by linarith)
    rw [List.foldl_cons, next, ← half, List.map_cons, List.sum_cons, sub_sub]

/-! ## Rounding at the end -/

/-- A number near to a number of tenths has the same floor, unless the tenths are a whole number and it is below. -/
lemma floor_near {r : ℚ} {k : ℤ} (near : |r - k / 10| ≤ 1 / 2 ^ 40) :
    ⌊r⌋ = ⌊(k / 10 : ℚ)⌋ ∨ ∃ whole : ℤ, (k / 10 : ℚ) = whole ∧ r < whole ∧ ⌊r⌋ = whole - 1 := by
  obtain ⟨below, above⟩ := abs_le.mp near
  norm_num at below above
  obtain ⟨whole, tenths, split, least, most⟩ :
      ∃ whole tenths : ℤ, k = 10 * whole + tenths ∧ 0 ≤ tenths ∧ tenths ≤ 9 :=
    ⟨k / 10, k % 10, by omega, by omega, by omega⟩
  have split : (k / 10 : ℚ) = whole + tenths / 10 := by
    rw [split]
    push_cast
    ring
  have most : (tenths : ℚ) ≤ 9 := by exact_mod_cast most
  rw [split] at below above ⊢
  obtain none | some := least.eq_or_lt
  · rw [← none, Int.cast_zero, zero_div, add_zero] at below above ⊢
    obtain under | reaches := lt_or_ge r whole
    · refine .inr ⟨whole, rfl, under, ?_⟩
      rw [Int.floor_eq_iff]
      push_cast
      constructor <;> linarith
    · left
      rw [Int.floor_intCast, Int.floor_eq_iff]
      constructor <;> linarith
  · have some : (1 : ℚ) ≤ tenths := by exact_mod_cast some
    left
    have floor : ⌊(whole + tenths / 10 : ℚ)⌋ = whole := by
      rw [Int.floor_eq_iff]
      constructor <;> linarith
    rw [floor, Int.floor_eq_iff]
    constructor <;> linarith

lemma Follows.rounds {x : Double} {left : ℚ} (follows : Follows x left) (started : left ≤ 10) :
    ∃ r, (x.add Double.half).value? = some r ∧ x.roundHalfUp = .ok ⌊r⌋ ∧ (left < -1 → r < 0) ∧
      (-1 ≤ left → |r - (left + 1 / 2)| ≤ 1 / 2 ^ 40) := by
  obtain ⟨a, is, small, near, below⟩ := follows
  obtain ⟨r, adds, nearest, rounds⟩ := Double.roundHalfUp_eq is (small.trans (by norm_num))
  refine ⟨r, adds, rounds, fun settled => ?_, fun open' => ?_⟩
  · have low := below settled
    obtain ⟨error, -⟩ := abs_le.mp nearest.near
    rw [abs_of_neg (by linarith)] at error
    norm_num at error
    linarith
  · obtain ⟨near, near'⟩ := abs_le.mp (near open')
    norm_num at near near'
    have size : |a + 1 / 2| ≤ 16 := by
      rw [abs_le]
      constructor <;> linarith
    obtain ⟨error, error'⟩ := abs_le.mp (nearest.near_of_le size)
    norm_num at error error' ⊢
    rw [abs_le]
    constructor <;> linarith

/-! ## Scores -/

lemma clamp_of_neg {n : ℤ} (negative : n < 0) : clamp n = 0 := by
  unfold clamp least greatest
  omega

section Category

variable (category : Category) (findings : List Finding)

lemma left_le : left category findings ≤ 10 := by
  have := sum_cost_nonneg (within category findings)
  unfold left greatest
  push_cast
  linarith

lemma get_ofFindings : (ofFindings findings).get category = ofCategory category findings := by
  cases category <;> rfl

variable {category findings}

/-- Without findings of the least severity the remainder is exact while the score is open. -/
lemma value?_remainder (high : lows category findings = 0) (open' : -1 ≤ left category findings) :
    (remainder category findings).value? = some (left category findings) := by
  have high : ∀ finding ∈ within category findings, isLow finding = false := by
    simpa [lows] using high
  have twenty : ((20 : ℤ) / 2 : ℚ) = 10 := by norm_num
  have start : (Double.ofInt greatest).value? = some ((20 : ℤ) / 2 : ℚ) := by rw [twenty, value?_start]
  have whole : left category findings =
      (20 : ℤ) / 2 - ((within category findings).map fun finding => cost finding.severity).sum := by
    rw [twenty]
    rfl
  rw [whole] at open' ⊢
  exact value?_foldl_of_not_isLow _ high start twenty.le open'

/-- Where the sum with one half falls short, there are findings of the least severity, by fives. -/
lemma FallsShort.atHalf (short : FallsShort category findings) : AtHalf category findings := by
  obtain ⟨whole, half, r, adds, below⟩ := short
  have some : 0 < lows category findings := by
    apply Nat.pos_of_ne_zero
    intro none
    have exact := value?_remainder none (by rw [half]; linarith [(Nat.cast_nonneg whole : (0 : ℚ) ≤ whole)])
    have size : |left category findings| ≤ 10 := by
      rw [half, abs_of_nonneg (by positivity), ← half]
      exact left_le category findings
    obtain ⟨r', adds', nearest, -⟩ := Double.roundHalfUp_eq exact (size.trans (by norm_num))
    obtain rfl := Option.some.inj (adds.symm.trans adds')
    have next : left category findings + 1 / 2 = ((2 * (whole + 1) : ℤ) : ℚ) / 2 := by
      rw [half]
      push_cast
      ring
    have same := nearest.eq_of_half next (by
      refine ((abs_add_le _ _).trans (add_le_add_left size _)).trans_lt ?_
      norm_num)
    rw [same, half] at below
    linarith
  obtain ⟨k, is⟩ := left_eq category findings
  -- In tenths: three for each of these findings, and five for each half.
  have tenths : 3 * lows category findings + 5 * k + 10 * whole = 95 := by
    rw [half] at is
    have : (3 * lows category findings + 5 * k + 10 * whole : ℚ) = 95 := by linarith
    exact_mod_cast this
  exact ⟨whole, half, by omega, some, by omega⟩

lemma not_fallsShort_of_neg (negative : left category findings < 0) : ¬FallsShort category findings := by
  rintro ⟨whole, half, -⟩
  have : (0 : ℚ) ≤ whole := Nat.cast_nonneg whole
  linarith

variable (category findings)

/-- The score of a category is the exact one, or one less where it falls short. -/
lemma ofCategory_eq : (∃ score, (remainder category findings).roundHalfUp = .ok score ∧
      ofCategory category findings = clamp score) ∧
    (FallsShort category findings → ofCategory category findings = exactly category findings - 1) ∧
    (¬FallsShort category findings → ofCategory category findings = exactly category findings) := by
  have started := left_le category findings
  obtain ⟨r, adds, rounds, settled, open'⟩ := (follows_remainder category findings).rounds started
  have score : ofCategory category findings = clamp ⌊r⌋ := by
    rw [ofCategory, nearest, rounds]
    rfl
  refine ⟨⟨_, rounds, score⟩, ?_⟩
  rw [score, exactly]
  obtain below | above := lt_or_ge (left category findings) (-1)
  · have low : ⌊r⌋ < 0 := Int.floor_lt.mpr (by exact_mod_cast settled below)
    have low' : ⌊left category findings + 1 / 2⌋ < 0 := Int.floor_lt.mpr (by push_cast; linarith)
    rw [clamp_of_neg low, clamp_of_neg low']
    exact ⟨fun short => absurd short (not_fallsShort_of_neg (by linarith)), fun _ => rfl⟩
  · obtain ⟨k, is⟩ := left_eq category findings
    have tenths : left category findings + 1 / 2 = ((105 - 3 * lows category findings - 5 * k : ℤ) : ℚ) / 10 := by
      rw [is]
      push_cast
      ring
    have near := open' above
    rw [tenths] at near
    have floors := floor_near near
    rw [← tenths] at floors
    obtain same | ⟨whole, next, under, floor⟩ := floors
    · rw [same]
      refine ⟨fun short => ?_, fun _ => rfl⟩
      -- The floor of the sum would be less than that of the exact one.
      obtain ⟨whole, half, r', adds', under⟩ := short
      obtain rfl := Option.some.inj (adds.symm.trans adds')
      have lower : ⌊r⌋ < whole + 1 := Int.floor_lt.mpr (by exact_mod_cast under)
      have exact : ⌊left category findings + 1 / 2⌋ = whole + 1 := by
        rw [half, Int.floor_eq_iff]
        push_cast
        constructor <;> linarith
      omega
    · have exact : ⌊left category findings + 1 / 2⌋ = whole := by rw [next, Int.floor_intCast]
      have most : whole ≤ 10 := by
        have : (whole : ℚ) < 11 := by linarith
        have : whole < 11 := by exact_mod_cast this
        omega
      rw [floor, exact]
      unfold clamp least greatest
      obtain positive | none := le_or_gt 1 whole
      · refine ⟨fun _ => by omega, fun enough => absurd ?_ enough⟩
        obtain ⟨n, rfl⟩ : ∃ n : ℕ, whole = n + 1 := ⟨(whole - 1).toNat, by omega⟩
        push_cast at next under
        exact ⟨n, by linarith, r, adds, under⟩
      · have : (whole : ℚ) ≤ 0 := by exact_mod_cast Int.lt_add_one_iff.mp none
        exact ⟨fun short => absurd short (not_fallsShort_of_neg (by linarith)), fun _ => by omega⟩

variable {findings}

lemma left_perm {others : List Finding} (perm : findings.Perm others) :
    left category others = left category findings ∧ lows category others = lows category findings := by
  have within : (within category findings).Perm (within category others) := perm.filter _
  constructor
  · rw [left, left, (within.map _).sum_eq]
  · exact (within.countP_eq _).symm

variable (findings)

/-- The scores of the findings are the exact ones, in whatever order they are, except where the exact remainder of a
category is a half and is that of five or more findings of the least severity with others: there the remainder can be
rounded to one that is less, and the score falls short by one. -/
theorem scores_fall_short_at_halves :
    (∃ score, (remainder category findings).roundHalfUp = .ok score ∧
      (ofFindings findings).get category = clamp score) ∧
    (FallsShort category findings →
      (ofFindings findings).get category = exactly category findings - 1 ∧ AtHalf category findings) ∧
    (¬FallsShort category findings → (ofFindings findings).get category = exactly category findings) ∧
    ∀ others, findings.Perm others → exactly category others = exactly category findings ∧
      (¬AtHalf category findings → (ofFindings others).get category = (ofFindings findings).get category) := by
  rw [get_ofFindings]
  obtain ⟨rounds, short, enough⟩ := ofCategory_eq category findings
  refine ⟨rounds, fun falls => ⟨short falls, falls.atHalf⟩, enough, fun others perm => ?_⟩
  obtain ⟨left, lows⟩ := left_perm category perm
  have same : exactly category others = exactly category findings := by rw [exactly, exactly, left]
  refine ⟨same, fun apart => ?_⟩
  obtain ⟨-, -, enough'⟩ := ofCategory_eq category others
  have apart' : ¬AtHalf category others := by
    rw [AtHalf, left, lows]
    exact apart
  rw [get_ofFindings, enough' fun falls => apart' falls.atHalf, enough fun falls => apart falls.atHalf, same]

end Category

section Sample

/-- A finding of a severity. -/
def sampleFinding (severity : Severity) : Finding :=
  { category := "security", severity := severity.name, title := "", description := "", businessImpact := ""
    fixSteps := "" }

/-- Five findings that cost three tenths each leave eight and a half. -/
example : let findings := List.replicate 5 (sampleFinding .low)
    (ofFindings findings).security = 8 ∧ exactly .security findings = 9 := by
  decide +kernel

/-- The order of the findings can tell. -/
example : let low := sampleFinding .low
    let critical := sampleFinding .critical
    (ofFindings [low, low, critical, low, low, low]).security ≠
      (ofFindings [critical, low, low, low, low, low]).security := by
  decide +kernel

end Sample

end RepoAudit.Scores
