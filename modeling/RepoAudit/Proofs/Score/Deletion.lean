import RepoAudit.Finding.Distinct
import RepoAudit.Proofs.Number.Order
import RepoAudit.Proofs.Score

/-!
# Scores after deletions

A penalty lowers the remainder of its category, and the order of two remainders outlives every later penalty, however
the differences are rounded (`Remains.sub`, `Remains.sub_le_sub`). So no score falls when findings are taken out of a
list, wherever they stand in it.
-/

namespace RepoAudit.Scores

/-- A remainder as penalties leave it. -/
structure Remains (x : Double) (a : ℚ) : Prop where
  value : x.value? = some a
  canonical : x.Canonical
  small : |a| ≤ 2 ^ 56

lemma penalty_bounds (severity : String) : ∃ p, (penalty severity).value? = some p ∧ 0 ≤ p ∧ p ≤ 4 := by
  obtain ⟨p, is, nearest⟩ := value?_penalty severity
  obtain ⟨least, most⟩ := cost_bounds severity
  obtain ⟨below, above⟩ := abs_le.mp (penalty_near nearest)
  norm_num at below above
  exact ⟨p, is, by linarith, by linarith⟩

section Remainders

variable {x y : Double} {a b p r : ℚ}

lemma Remains.small_sub (remains : Remains x a) (least : 0 ≤ p) (most : p ≤ 4) : |a - p| ≤ 2 ^ 56 + 4 := by
  obtain ⟨low, high⟩ := abs_le.mp remains.small
  rw [abs_le]
  constructor <;> linarith

lemma Remains.next (remains : Remains x a) {severity : String}
    (subtracts : (x.sub (penalty severity)).value? = some r) :
    Remains (x.sub (penalty severity)) r := by
  obtain ⟨p, is, least, most⟩ := penalty_bounds severity
  have size := remains.small_sub least most
  obtain ⟨r', subtracts', nearest⟩ := Double.value?_sub remains.value is (size.trans (by norm_num))
  obtain rfl := Option.some.inj (subtracts.symm.trans subtracts')
  exact ⟨subtracts, Double.canonical_add _ _, nearest.abs_le (size.trans_lt (by norm_num))⟩

/-- A penalty does not raise a remainder. -/
lemma Remains.sub (remains : Remains x a) (severity : String) :
    ∃ r, Remains (x.sub (penalty severity)) r ∧ r ≤ a := by
  obtain ⟨p, is, least, most⟩ := penalty_bounds severity
  have size := remains.small_sub least most
  obtain ⟨r, subtracts, le⟩ :=
    Double.value?_sub_le remains.canonical remains.value is least (size.trans (by norm_num))
  exact ⟨r, remains.next subtracts, le⟩

/-- One penalty keeps the order of two remainders. -/
lemma Remains.sub_le_sub (remains : Remains x a) (remains' : Remains y b) (le : a ≤ b) (severity : String) :
    ∃ r s, Remains (x.sub (penalty severity)) r ∧ Remains (y.sub (penalty severity)) s ∧ r ≤ s := by
  obtain ⟨p, is, least, most⟩ := penalty_bounds severity
  have size := remains.small_sub least most
  have size' := remains'.small_sub least most
  obtain ⟨r, s, subtracts, subtracts', le⟩ := Double.value?_sub_le_sub remains.value remains'.value is
    (size.trans (by norm_num)) (size'.trans (by norm_num)) le
  exact ⟨r, s, remains.next subtracts, remains'.next subtracts', le⟩

/-- Fewer penalties leave more. -/
lemma Remains.foldl_le {findings kept : List Finding} (deleted : kept.Sublist findings) (remains : Remains x a)
    (remains' : Remains y b) (le : a ≤ b) :
    ∃ r s, Remains (findings.foldl (fun total finding => total.sub (penalty finding.severity)) x) r ∧
      Remains (kept.foldl (fun total finding => total.sub (penalty finding.severity)) y) s ∧ r ≤ s := by
  -- A finding that is taken out lowers one remainder only, and one that stays lowers both in their order.
  induction deleted generalizing x y a b with
  | slnil => exact ⟨a, b, remains, remains', le⟩
  | cons finding _ ih =>
    obtain ⟨r, remains, lower⟩ := remains.sub finding.severity
    exact ih remains remains' (lower.trans le)
  | cons_cons finding _ ih =>
    obtain ⟨r, s, remains, remains', le⟩ := remains.sub_le_sub remains' le finding.severity
    exact ih remains remains' le

lemma Remains.nearest_le (remains : Remains x a) (remains' : Remains y b) (le : a ≤ b) : nearest x ≤ nearest y := by
  have small {c : ℚ} (size : |c| ≤ 2 ^ 56) : |c| ≤ 2 ^ 59 := size.trans (by norm_num)
  have small' {c : ℚ} (size : |c| ≤ 2 ^ 56) : |c + 1 / 2| ≤ 2 ^ 60 := by
    refine (abs_add_le _ _).trans ?_
    norm_num at size ⊢
    linarith
  obtain ⟨r, adds, -, rounds⟩ := Double.roundHalfUp_eq remains.value (small remains.small)
  obtain ⟨s, adds', -, rounds'⟩ := Double.roundHalfUp_eq remains'.value (small remains'.small)
  obtain ⟨r', s', adds₂, adds₂', order⟩ := Double.value?_add_le remains.value Double.value?_half remains'.value
    Double.value?_half (small' remains.small) (small' remains'.small) (by linarith)
  obtain rfl := Option.some.inj (adds.symm.trans adds₂)
  obtain rfl := Option.some.inj (adds'.symm.trans adds₂')
  rw [nearest, nearest, rounds, rounds']
  exact Int.floor_mono order

end Remainders

lemma remains_start : Remains (Double.ofInt greatest) 10 :=
  ⟨value?_start, Double.canonical_ofRatio _ _ _, by norm_num⟩

lemma clamp_mono {m n : ℤ} (le : m ≤ n) : clamp m ≤ clamp n := by
  unfold clamp
  omega

lemma clamp_bounds (n : ℤ) : 0 ≤ clamp n ∧ clamp n ≤ 10 := by
  unfold clamp least greatest
  omega

lemma ofCategory_le {findings kept : List Finding} (deleted : kept.Sublist findings) (category : Category) :
    ofCategory category findings ≤ ofCategory category kept := by
  have within := deleted.filter (·.category == category.name)
  obtain ⟨r, s, remains, remains', le⟩ := remains_start.foldl_le within remains_start le_rfl
  exact clamp_mono (remains.nearest_le remains' le)

/-- The remainder of a category is that of the severities of its findings. -/
lemma remainder_eq (category : Category) (findings : List Finding) : remainder category findings =
    ((within category findings).map (·.severity)).foldl (fun total severity => total.sub (penalty severity))
      (Double.ofInt greatest) := by
  rw [List.foldl_map]
  rfl

/-- No score of a category falls when findings are taken out, so no score of the distinct findings is less than that of
all of them. Every score lies between zero and ten, and the severities of the findings of its category, in their order,
settle it. -/
theorem deletions_lower_no_score {findings kept : List Finding} (deleted : kept.Sublist findings)
    (category : Category) :
    (∃ score, (remainder category findings).roundHalfUp = .ok score ∧
      (ofFindings findings).get category = clamp score) ∧
    (ofFindings findings).get category ≤ (ofFindings kept).get category ∧
    (ofFindings findings).get category ≤ (ofFindings (Finding.distinct findings)).get category ∧
    0 ≤ (ofFindings findings).get category ∧ (ofFindings findings).get category ≤ 10 ∧
    ∀ others, (within category others).map (·.severity) = (within category findings).map (·.severity) →
      (ofFindings others).get category = (ofFindings findings).get category := by
  simp only [get_ofFindings]
  obtain ⟨least, most⟩ := clamp_bounds (nearest (remainder category findings))
  refine ⟨(ofCategory_eq category findings).1, ofCategory_le deleted category, ?_, least, most, ?_⟩
  · exact ofCategory_le (Finding.distinctFrom_sublist [] findings) category
  · intro others same
    rw [ofCategory, ofCategory, remainder_eq, remainder_eq, same]

/-- Findings of one category that cost three tenths each, with one of an unknown severity and one of an unknown category
among them. -/
def sampleMixed : List Finding :=
  [sampleFinding .low, { sampleFinding .low with severity := "odd" }, sampleFinding .low,
    { sampleFinding .critical with category := "odd" }, sampleFinding .low, sampleFinding .low, sampleFinding .low]

theorem deletions_lower_no_score_mixed : (sampleMixed.eraseIdx 1).Sublist sampleMixed ∧
    (ofFindings sampleMixed).get .security ≤ 8 ∧ (ofFindings (sampleMixed.eraseIdx 1)).get .security = 8 := by
  have deleted : (sampleMixed.eraseIdx 1).Sublist sampleMixed := List.eraseIdx_sublist _ _
  have fewer : (ofFindings (sampleMixed.eraseIdx 1)).get .security = 8 := by decide +kernel
  obtain ⟨-, le, -⟩ := deletions_lower_no_score deleted .security
  exact ⟨deleted, le.trans_eq fewer, fewer⟩

end RepoAudit.Scores
