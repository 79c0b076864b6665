import Mathlib.Data.List.FinRange
import RepoAudit.Finding.Distinct

/-!
# The first of each

A finding is kept just when nothing before it has its title and its file, so the distinct findings are those at the
first places (`IsFirst`), in their order. Of what was seen only the members count, and the findings that are kept have
all the signatures that there were: a list may be freed of repetitions before more is added to it.
-/

namespace RepoAudit.Finding

/-- The two are different issues. -/
def Differs (one other : Finding) : Prop := one.signature ≠ other.signature

instance (one other : Finding) : Decidable (one.Differs other) :=
  inferInstanceAs (Decidable (one.signature ≠ other.signature))

lemma differs_of_title {one other : Finding} (different : one.title ≠ other.title) : one.Differs other :=
  fun same => different (congrArg Prod.fst same)

lemma differs_of_filePath {one other : Finding} (different : one.filePath ≠ other.filePath) : one.Differs other :=
  fun same => different (congrArg Prod.snd same)

lemma differs_iff {one other : Finding} :
    one.Differs other ↔ ¬ (one.title = other.title ∧ one.filePath = other.filePath) :=
  not_congr Prod.ext_iff

section

variable {seen : List Signature} {found first rest : List Finding}

/-! ### What is kept -/

lemma distinctFrom_seen {finding : Finding} (known : finding.signature ∈ seen) (rest : List Finding) :
    distinctFrom seen (finding :: rest) = distinctFrom seen rest :=
  if_pos known

lemma distinctFrom_new {finding : Finding} (new : finding.signature ∉ seen) (rest : List Finding) :
    distinctFrom seen (finding :: rest) = finding :: distinctFrom (finding.signature :: seen) rest :=
  if_neg new

/-- What was seen is kept no more, and what is kept differs. -/
lemma pairwise_distinctFrom (seen : List Signature) (found : List Finding) :
    (distinctFrom seen found).Pairwise Differs ∧ ∀ kept ∈ distinctFrom seen found, kept.signature ∉ seen := by
  induction found generalizing seen with
  | nil => exact ⟨.nil, fun _ listed => absurd listed List.not_mem_nil⟩
  | cons finding rest ih =>
    by_cases known : finding.signature ∈ seen
    · rw [distinctFrom_seen known]
      exact ih seen
    · rw [distinctFrom_new known]
      obtain ⟨pairs, unseen⟩ := ih (finding.signature :: seen)
      constructor
      · refine .cons (fun kept listed same => ?_) pairs
        exact unseen kept listed (List.mem_cons.mpr (.inl same.symm))
      · intro kept listed
        rcases List.mem_cons.mp listed with rfl | listed
        · exact known
        · exact fun there => unseen kept listed (.tail _ there)

lemma pairwise_distinct (found : List Finding) : (distinct found).Pairwise Differs :=
  (pairwise_distinctFrom [] found).1

lemma nodup_signatures_distinct (found : List Finding) : ((distinct found).map signature).Nodup :=
  List.pairwise_map.mpr (pairwise_distinct found)

lemma mem_signatures_distinctFrom {s : Signature} :
    s ∈ seen ∨ s ∈ (distinctFrom seen found).map signature ↔ s ∈ seen ∨ s ∈ found.map signature := by
  induction found generalizing seen with
  | nil => rfl
  | cons finding rest ih =>
    by_cases known : finding.signature ∈ seen
    · rw [distinctFrom_seen known, ih, List.map_cons, List.mem_cons]
      constructor
      · exact Or.imp_right .inr
      · rintro (there | rfl | later)
        · exact .inl there
        · exact .inl known
        · exact .inr later
    · rw [distinctFrom_new known]
      have tail := @ih (finding.signature :: seen)
      simp only [List.map_cons, List.mem_cons] at tail ⊢
      rw [← or_assoc, or_comm (a := s ∈ seen), tail, ← or_assoc, or_comm (a := s ∈ seen)]

lemma mem_signatures_distinct {s : Signature} : s ∈ (distinct found).map signature ↔ s ∈ found.map signature := by
  have signatures : s ∈ [] ∨ s ∈ (distinct found).map signature ↔ s ∈ [] ∨ s ∈ found.map signature :=
    mem_signatures_distinctFrom
  rwa [List.mem_nil_iff, false_or, false_or] at signatures

lemma distinctFrom_eq_self (unseen : ∀ f ∈ found, f.signature ∉ seen) (pairs : found.Pairwise Differs) :
    distinctFrom seen found = found := by
  induction found generalizing seen with
  | nil => rfl
  | cons finding rest ih =>
    obtain ⟨first, pairs⟩ := List.pairwise_cons.mp pairs
    rw [distinctFrom_new (unseen finding List.mem_cons_self), ih _ pairs]
    intro other later listed
    rcases List.mem_cons.mp listed with same | listed
    · exact first other later same.symm
    · exact unseen other (.tail _ later) listed

/-! ### Lists in two parts -/

lemma distinctFrom_congr {other : List Signature} (same : ∀ s, s ∈ seen ↔ s ∈ other) (found : List Finding) :
    distinctFrom seen found = distinctFrom other found := by
  induction found generalizing seen other with
  | nil => rfl
  | cons finding rest ih =>
    by_cases known : finding.signature ∈ seen
    · rw [distinctFrom_seen known, distinctFrom_seen ((same _).mp known)]
      exact ih same
    · rw [distinctFrom_new known, distinctFrom_new fun there => known ((same _).mpr there)]
      refine congrArg _ (ih fun s => ?_)
      rw [List.mem_cons, List.mem_cons, same]

/-- The second part of a list is looked at when the first has been seen. -/
lemma distinctFrom_append (seen : List Signature) (first rest : List Finding) :
    distinctFrom seen (first ++ rest) =
      distinctFrom seen first ++ distinctFrom (first.map signature ++ seen) rest := by
  induction first generalizing seen with
  | nil => rfl
  | cons finding first ih =>
    rw [List.cons_append]
    by_cases known : finding.signature ∈ seen
    · rw [distinctFrom_seen known, distinctFrom_seen known, ih]
      refine congrArg _ (distinctFrom_congr (fun s => ?_) rest)
      rw [List.map_cons, List.cons_append, List.mem_cons, iff_or_self]
      rintro rfl
      exact List.mem_append_right _ known
    · rw [distinctFrom_new known, distinctFrom_new known, ih, List.cons_append]
      refine congrArg _ (congrArg _ (distinctFrom_congr (fun s => ?_) rest))
      exact List.perm_middle.mem_iff

/-- What differs from everything before it and among itself is kept. -/
lemma distinct_append (across : ∀ f ∈ first, ∀ g ∈ rest, f.Differs g) (pairs : rest.Pairwise Differs) :
    distinct (first ++ rest) = distinct first ++ rest := by
  rw [distinct, distinctFrom_append, distinctFrom_eq_self _ pairs]
  · rfl
  · intro g later listed
    rw [List.append_nil] at listed
    obtain ⟨f, earlier, same⟩ := List.mem_map.mp listed
    exact across f earlier g later same

lemma distinct_distinct (found : List Finding) : distinct (distinct found) = distinct found :=
  distinctFrom_eq_self (fun _ _ => List.not_mem_nil) (pairwise_distinct found)

lemma distinct_distinct_append (first rest : List Finding) :
    distinct (distinct first ++ rest) = distinct (first ++ rest) := by
  have parts (first : List Finding) :
      distinct (first ++ rest) = distinct first ++ distinctFrom (first.map signature ++ []) rest :=
    distinctFrom_append [] first rest
  rw [parts, parts, distinct_distinct, List.append_nil, List.append_nil]
  exact congrArg _ (distinctFrom_congr (fun s => mem_signatures_distinct) rest)

/-! ### First places -/

/-- Nothing before the place is the same issue as the finding there. -/
def IsFirst (found : List Finding) (place : Fin found.length) : Prop :=
  ∀ earlier < place, (found.get earlier).Differs (found.get place)

instance (found : List Finding) : DecidablePred (IsFirst found) := fun place =>
  inferInstanceAs (Decidable (∀ earlier < place, (found.get earlier).Differs (found.get place)))

lemma isFirst_zero (finding : Finding) (rest : List Finding) : IsFirst (finding :: rest) ⟨0, Nat.succ_pos _⟩ :=
  fun _ before => absurd before (Nat.not_lt_zero _)

lemma isFirst_succ {finding : Finding} {place : Fin rest.length} :
    IsFirst (finding :: rest) place.succ ↔ finding.Differs (rest.get place) ∧ IsFirst rest place := by
  constructor
  · intro isFirst
    exact ⟨isFirst ⟨0, Nat.succ_pos _⟩ (Fin.succ_pos place),
      fun earlier before => isFirst earlier.succ (Fin.succ_lt_succ_iff.mpr before)⟩
  · rintro ⟨differs, isFirst⟩ earlier before
    cases earlier using Fin.cases with
    | zero => exact differs
    | succ earlier => exact isFirst earlier (Fin.succ_lt_succ_iff.mp before)

/-- The findings at first places whose signatures were not seen before. -/
lemma distinctFrom_eq_places (seen : List Signature) (found : List Finding) :
    distinctFrom seen found = ((List.finRange found.length).filter fun place =>
      (found.get place).signature ∉ seen ∧ IsFirst found place).map found.get := by
  induction found generalizing seen with
  | nil => rfl
  | cons finding rest ih =>
    -- A place of the rest comes after the finding, so what stands there has to differ from it as well.
    have later : (((List.finRange rest.length).map Fin.succ).filter fun place =>
          ((finding :: rest).get place).signature ∉ seen ∧ IsFirst (finding :: rest) place).map (finding :: rest).get =
        distinctFrom (finding.signature :: seen) rest := by
      rw [ih, List.filter_map, List.map_map]
      refine congrArg _ (List.filter_congr fun place _ => decide_eq_decide.mpr ?_)
      rw [isFirst_succ, List.mem_cons, not_or, and_left_comm, and_assoc]
      exact and_congr_left fun _ => ne_comm
    have start : List.finRange (finding :: rest).length = 0 :: (List.finRange rest.length).map Fin.succ :=
      List.finRange_succ
    rw [start, List.filter_cons]
    by_cases known : finding.signature ∈ seen
    · rw [distinctFrom_seen known, if_neg (by simp [known]), later]
      refine distinctFrom_congr (fun s => ?_) rest
      rw [List.mem_cons, iff_or_self]
      rintro rfl
      exact known
    · rw [distinctFrom_new known, if_pos (decide_eq_true ⟨known, isFirst_zero finding rest⟩), List.map_cons, later]
      rfl

end

/-- Among findings the first of each title and file is kept, in order: the kept ones stand in the list as they were,
differ in pairs, have every title and file that there was, and come from the first places. So a list without
repetitions stays as it is, and a part of a list may be freed of them before the whole is. -/
theorem distinct_keeps_firsts (found more : List Finding) :
    (distinct found).Sublist found ∧
      (distinct found).Pairwise (fun one other => ¬ (one.title = other.title ∧ one.filePath = other.filePath)) ∧
      (∀ finding ∈ found, ∃ kept ∈ distinct found, kept.title = finding.title ∧ kept.filePath = finding.filePath) ∧
      distinct found = ((List.finRange found.length).filter fun place => IsFirst found place).map found.get ∧
      distinct (distinct found) = distinct found ∧
      distinct (distinct found ++ more) = distinct (found ++ more) := by
  refine ⟨distinctFrom_sublist [] found, ?_, ?_, ?_, distinct_distinct found, distinct_distinct_append found more⟩
  · exact (pairwise_distinct found).imp differs_iff.mp
  · intro finding listed
    obtain ⟨kept, there, same⟩ := List.mem_map.mp (mem_signatures_distinct.mpr (List.mem_map_of_mem listed))
    exact ⟨kept, there, Prod.ext_iff.mp same⟩
  · refine (distinctFrom_eq_places [] found).trans (congrArg _ (List.filter_congr fun place _ => ?_))
    exact decide_eq_decide.mpr (and_iff_right List.not_mem_nil)

/-- An issue of which only the title, the file and the severity are told. -/
def issue (title severity : String) (filePath : Option String) : Finding :=
  { category := "security", severity, title, description := "", businessImpact := "", fixSteps := "", filePath }

/-- Issues of one title in a file, in none, and in one whose path is empty, some of them twice. -/
def issues : List Finding :=
  [issue "A" "high" (some "x"), issue "B" "low" (some "x"), issue "A" "low" (some "x"), issue "A" "low" none,
    issue "A" "low" (some ""), issue "A" "high" none]

theorem distinct_keeps_firsts_pathless : issue "A" "low" (some "x") ∈ issues ∧
    (∃ kept ∈ distinct issues, kept.title = "A" ∧ kept.filePath = some "x") ∧
    distinct issues = [issue "A" "high" (some "x"), issue "B" "low" (some "x"), issue "A" "low" none,
      issue "A" "low" (some "")] := by
  have listed : issue "A" "low" (some "x") ∈ issues := .tail _ (.tail _ (.head _))
  have kept : distinct issues = [issue "A" "high" (some "x"), issue "B" "low" (some "x"), issue "A" "low" none,
      issue "A" "low" (some "")] := by decide +kernel
  obtain ⟨-, -, covers, -⟩ := distinct_keeps_firsts issues []
  exact ⟨listed, covers _ listed, kept⟩

end RepoAudit.Finding
