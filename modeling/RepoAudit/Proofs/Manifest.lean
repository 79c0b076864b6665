import Mathlib.Data.Finset.Card
import RepoAudit.Manifest
import RepoAudit.Proofs.Json.Legible

/-!
# Packages of a manifest

The sections are merged into one object, so a package is counted once, whichever section names it, and it has the
version of the later one (`get?_dependencies`, `length_dependencies`). Whether style and types are checked is asked of
the versions and not of the names: a package whose version is empty counts and is missed all the same
(`Report.Describes`).
-/

namespace RepoAudit

namespace Json

/-! ### Merged objects -/

section Merge

variable {members all : List (String × Json)} {name other : String} {value : Json}

lemma get?_cons (member : String × Json) (members : List (String × Json)) (name : String) :
    Member.get? (member :: members) name = if name = member.1 then some member.2 else Member.get? members name := by
  rw [Member.get?, List.lookup_cons]
  by_cases same : name = member.1
  · rw [if_pos same, beq_iff_eq.mpr same]
  · rw [if_neg same, beq_eq_false_iff_ne.mpr same]
    rfl

lemma isSome_get?_iff : (Member.get? members name).isSome = true ↔ name ∈ members.map (·.1) := by
  rw [Member.get?, List.lookup_isSome_iff, List.mem_map]
  exact exists_congr fun member => and_congr_right fun _ => by rw [beq_iff_eq, eq_comm]

/-- A member that takes a new value. -/
lemma get?_replaced (members : List (String × Json)) (name : String) (value : Json) (other : String) :
    Member.get? (members.map fun member => if member.1 == name then (name, value) else member) other =
      if other = name then (Member.get? members name).map fun _ => value else Member.get? members other := by
  induction members with
  | nil => simp [Member.get?]
  | cons member members ih =>
    rw [List.map_cons, get?_cons, ih, get?_cons, get?_cons]
    by_cases same : member.1 = name
    · by_cases sought : other = name <;> simp [same, sought]
    · by_cases sought : other = name <;> simp [same, sought, Ne.symm same]

lemma get?_put (members : List (String × Json)) (name : String) (value : Json) (other : String) :
    Member.get? (Member.put members name value) other =
      if other = name then some value else Member.get? members other := by
  unfold Member.put
  split
  · next present =>
    have known : (Member.get? members name).isSome = true := by simpa [isSome_get?_iff] using present
    obtain ⟨old, is⟩ := Option.isSome_iff_exists.mp known
    rw [get?_replaced, is]
    rfl
  · next absent =>
    have unknown : Member.get? members name = none := by
      rw [← Option.not_isSome_iff_eq_none, isSome_get?_iff]
      simpa using absent
    have last : Member.get? [(name, value)] other = if other = name then some value else none := get?_cons _ _ _
    have parts : Member.get? (members ++ [(name, value)]) other =
        (Member.get? members other).or (Member.get? [(name, value)] other) := List.lookup_append
    rw [parts, last]
    by_cases sought : other = name
    · rw [sought, unknown, if_pos rfl, Option.none_or]
    · rw [if_neg sought, if_neg sought, Option.or_none]

/-- The members of two objects, those of the second over those of the first. -/
def merged (all members : List (String × Json)) : List (String × Json) :=
  members.foldl (fun all member => Member.put all member.1 member.2) all

lemma nodup_merged (distinct : (all.map (·.1)).Nodup) : ((merged all members).map (·.1)).Nodup := by
  induction members generalizing all with
  | nil => exact distinct
  | cons member members ih => exact ih (nodup_put distinct member.1 member.2)

lemma get?_merged (distinct : (members.map (·.1)).Nodup) (all : List (String × Json)) (name : String) :
    Member.get? (merged all members) name = (Member.get? members name).or (Member.get? all name) := by
  induction members generalizing all with
  | nil => rfl
  | cons member members ih =>
    obtain ⟨front, rest⟩ := List.nodup_cons.mp distinct
    have step : merged all (member :: members) = merged (Member.put all member.1 member.2) members := rfl
    rw [step, ih rest, get?_put, get?_cons]
    by_cases same : name = member.1
    · have later : Member.get? members name = none := by
        rw [← Option.not_isSome_iff_eq_none, isSome_get?_iff, same]
        exact front
      rw [later, if_pos same, if_pos same]
      rfl
    · rw [if_neg same, if_neg same]

end Merge

end Json

namespace Manifest

/-! ### Packages -/

/-- The members of a section; none when it is missing or no object. -/
def membersOf (document : Json) (name : String) : List (String × Json) :=
  match document.getD name with
  | .object members => members
  | _ => []

/-- The packages that the sections name. -/
def packageNames (document : Json) : Finset String :=
  ((membersOf document "dependencies").map (·.1)).toFinset ∪ ((membersOf document "devDependencies").map (·.1)).toFinset

/-- The version of a package: that of the later section when both name it. -/
def version? (document : Json) (package : String) : Option Json :=
  (Json.Member.get? (membersOf document "devDependencies") package).or
    (Json.Member.get? (membersOf document "dependencies") package)

/-- The package is named with a version that is not empty. -/
def IsVersioned (document : Json) (package : String) : Prop :=
  ∃ version, version? document package = some version ∧ version.isTruthy = true

instance (document : Json) (package : String) : Decidable (IsVersioned document package) :=
  decidable_of_iff (((version? document package).any Json.isTruthy) = true) (Option.any_eq_true _ _)

section Packages

variable {document : Json} {text package : String} {members : List (String × Json)}

lemma addSection_eq (all : List (String × Json)) (document : Json) (name : String) :
    addSection all (document.getD name) = Json.merged all (membersOf document name) := by
  unfold addSection membersOf
  split <;> simp_all [Json.merged]

lemma dependencies_eq (document : Json) : dependencies document =
    Json.merged (Json.merged [] (membersOf document "dependencies")) (membersOf document "devDependencies") := by
  rw [← addSection_eq, ← addSection_eq]
  rfl

lemma nodup_dependencies (document : Json) : ((dependencies document).map (·.1)).Nodup := by
  rw [dependencies_eq]
  exact Json.nodup_merged (Json.nodup_merged List.nodup_nil)

/-- The names of a section of a document that was read differ. -/
lemma nodup_membersOf (reads : Json.read text = .ok document) (name : String) :
    ((membersOf document name).map (·.1)).Nodup := by
  have legible : Json.Legible (Json.nestingLimit - 1) (document.getD name) := (Json.legible_read reads).getD name
  unfold membersOf
  split
  · next members is =>
    rw [is] at legible
    exact legible.of_member.1
  · exact List.nodup_nil

lemma get?_dependencies (reads : Json.read text = .ok document) (package : String) :
    Json.Member.get? (dependencies document) package = version? document package := by
  rw [dependencies_eq, Json.get?_merged (nodup_membersOf reads _), Json.get?_merged (nodup_membersOf reads _)]
  exact congrArg _ (Option.or_none)

lemma isSome_version?_iff : (version? document package).isSome = true ↔ package ∈ packageNames document := by
  rw [version?, Option.isSome_or, Bool.or_eq_true, Json.isSome_get?_iff, Json.isSome_get?_iff, packageNames,
    Finset.mem_union, List.mem_toFinset, List.mem_toFinset, or_comm]

lemma length_dependencies (reads : Json.read text = .ok document) :
    (dependencies document).length = (packageNames document).card := by
  have names : packageNames document = ((dependencies document).map (·.1)).toFinset := by
    ext package
    rw [List.mem_toFinset, ← Json.isSome_get?_iff, get?_dependencies reads, isSome_version?_iff]
  rw [names, List.toFinset_card_of_nodup (nodup_dependencies document), List.length_map]

lemma has_dependencies_iff (reads : Json.read text = .ok document) :
    has (dependencies document) package = true ↔ IsVersioned document package := by
  rw [has, get?_dependencies reads, IsVersioned]
  cases version? document package <;> simp

lemma IsVersioned.named (versioned : IsVersioned document package) : package ∈ packageNames document := by
  obtain ⟨version, is, -⟩ := versioned
  rw [← isSome_version?_iff, is]
  rfl

end Packages

/-! ### Reports -/

/-- The report of a document: it counts the packages by their names, and its findings stand in their order, each when
the versions call for it. -/
structure Report.Describes (rules : Ruleset) (tree : List TreeEntry) (document : Json) (report : Report) : Prop where
  count : report.dependencyCount = (packageNames document).card
  findings : report.findings.Sublist [noLinterFinding, noTypecheckFinding rules.typecheckConfig]
  linter : noLinterFinding ∈ report.findings ↔ ∀ package ∈ rules.linterPackages, ¬ IsVersioned document package
  typecheck : noTypecheckFinding rules.typecheckConfig ∈ report.findings ↔
    IsVersioned document rules.typecheckPackage ∧ rules.typecheckConfig ∉ Tree.filePaths tree

/-- The findings are those that the names alone call for. -/
structure Report.GoesByNames (rules : Ruleset) (tree : List TreeEntry) (document : Json) (report : Report) : Prop where
  linter : noLinterFinding ∈ report.findings ↔ ∀ package ∈ rules.linterPackages, package ∉ packageNames document
  typecheck : noTypecheckFinding rules.typecheckConfig ∈ report.findings ↔
    rules.typecheckPackage ∈ packageNames document ∧ rules.typecheckConfig ∉ Tree.filePaths tree

section Reports

variable {rules : Ruleset} {tree : List TreeEntry} {text : String} {document : Json} {report : Report}

lemma mem_findingWhen {condition : Bool} {given finding : Finding} :
    finding ∈ Tree.findingWhen condition given ↔ condition = true ∧ finding = given := by
  unfold Tree.findingWhen
  split <;> simp_all

lemma noLinter_ne_noTypecheck (config : String) : noLinterFinding ≠ noTypecheckFinding config := by
  have apart : Category.maintainability.name ≠ Category.stability.name := by decide
  exact fun same => apart (congrArg Finding.category same)

lemma findingWhen_sublist (condition : Bool) (finding : Finding) :
    (Tree.findingWhen condition finding).Sublist [finding] := by
  cases condition
  · exact List.nil_sublist _
  · exact List.Sublist.refl _

lemma describes_inspect (rules : Ruleset) (tree : List TreeEntry) (reads : Json.read text = .ok document) :
    (inspect rules tree (dependencies document)).Describes rules tree document where
  count := length_dependencies reads
  findings := (findingWhen_sublist _ _).append (findingWhen_sublist _ _)
  linter := by
    simp only [inspect, List.mem_append, mem_findingWhen, noLinter_ne_noTypecheck, and_true, and_false, or_false,
      Bool.not_eq_true', List.any_eq_false, ← has_dependencies_iff reads]
  typecheck := by
    simp only [inspect, List.mem_append, mem_findingWhen, (noLinter_ne_noTypecheck _).symm, and_true, and_false,
      false_or, Bool.and_eq_true, Bool.not_eq_true', List.contains_eq_mem, decide_eq_false_iff_not,
      ← has_dependencies_iff reads]

/-- A checker of style that is named has a version when any has one, and so does the type checker where its
configuration is missing. -/
lemma Report.Describes.goesByNames_iff (describes : report.Describes rules tree document) :
    report.GoesByNames rules tree document ↔
      ((∃ package ∈ rules.linterPackages, package ∈ packageNames document) →
        ∃ package ∈ rules.linterPackages, IsVersioned document package) ∧
      (rules.typecheckPackage ∈ packageNames document → rules.typecheckConfig ∉ Tree.filePaths tree →
        IsVersioned document rules.typecheckPackage) := by
  constructor
  · rintro ⟨linter, typecheck⟩
    refine ⟨fun ⟨package, known, named⟩ => ?_, fun named lacking => ?_⟩
    · by_contra none
      have found := describes.linter.mpr fun other known' versioned => none ⟨other, known', versioned⟩
      exact linter.mp found package known named
    · exact (describes.typecheck.mp (typecheck.mpr ⟨named, lacking⟩)).1
  · rintro ⟨linter, typecheck⟩
    refine ⟨⟨fun found package known named => ?_, fun unnamed => ?_⟩, ⟨fun found => ?_, fun ⟨named, lacking⟩ => ?_⟩⟩
    · obtain ⟨other, known', versioned⟩ := linter ⟨package, known, named⟩
      exact describes.linter.mp found other known' versioned
    · exact describes.linter.mpr fun package known versioned => unnamed package known versioned.named
    · obtain ⟨versioned, lacking⟩ := describes.typecheck.mp found
      exact ⟨versioned.named, lacking⟩
    · exact describes.typecheck.mpr ⟨typecheck named lacking, lacking⟩

/-! ### Failures -/

lemma analyze_object {members : List (String × Json)} (reads : Json.read text = .ok (.object members)) :
    analyze rules tree text = .ok (inspect rules tree (dependencies (.object members))) := by
  rw [analyze, reads]

lemma isExcessive_ofReadError (error : Json.ReadError) :
    (Failure.ofReadError error).isExcessive = error.isExcessive := by
  cases error <;> rfl

/-- Without an object the analysis fails for what reading gave. -/
lemma analyze_other (other : ∀ members, Json.read text ≠ .ok (.object members)) :
    (∃ error, Json.read text = .error error ∧ analyze rules tree text = .error (.ofReadError error)) ∨
      (∃ value, Json.read text = .ok value) ∧ analyze rules tree text = .error .notAnObject := by
  unfold analyze
  cases reads : Json.read text with
  | error error => exact .inl ⟨error, rfl, rfl⟩
  | ok value =>
    cases value with
    | object members => exact absurd reads (other members)
    | _ => exact .inr ⟨⟨_, rfl⟩, rfl⟩

end Reports

/-- A manifest that is read as an object is analysed, and any other fails; it fails as beyond what is read just when
reading it does. The packages are counted by their names, and the findings go by the versions, of which an empty one is
as good as none. So they are those that the names call for just when some checker of style has a version, if any is
named, and the type checker has one, if it is named and its configuration is not in the root. -/
theorem manifests_miss_empty_versions (rules : Ruleset) (tree : List TreeEntry) (text : String) :
    (∀ members, Json.read text = .ok (.object members) → ∃ report, analyze rules tree text = .ok report ∧
      report.Describes rules tree (.object members) ∧
      (report.GoesByNames rules tree (.object members) ↔
        ((∃ package ∈ rules.linterPackages, package ∈ packageNames (.object members)) →
          ∃ package ∈ rules.linterPackages, IsVersioned (.object members) package) ∧
        (rules.typecheckPackage ∈ packageNames (.object members) → rules.typecheckConfig ∉ Tree.filePaths tree →
          IsVersioned (.object members) rules.typecheckPackage))) ∧
    ((∃ failure, analyze rules tree text = .error failure) ↔
      ∀ members, Json.read text ≠ .ok (.object members)) ∧
    ∀ failure, analyze rules tree text = .error failure →
      (failure.isExcessive = true ↔ ∃ error, Json.read text = .error error ∧ error.isExcessive = true) := by
  have fails : (∃ failure, analyze rules tree text = .error failure) ↔
      ∀ members, Json.read text ≠ .ok (.object members) := by
    constructor
    · rintro ⟨failure, fails⟩ members reads
      rw [analyze_object reads] at fails
      cases fails
    · intro other
      rcases analyze_other other with ⟨error, -, fails⟩ | ⟨-, fails⟩ <;> exact ⟨_, fails⟩
  refine ⟨fun members reads => ?_, fails, fun failure failed => ?_⟩
  · have describes := describes_inspect rules tree reads
    exact ⟨_, analyze_object reads, describes, describes.goesByNames_iff⟩
  · rcases analyze_other (fails.mp ⟨failure, failed⟩) with ⟨error, reads, is⟩ | ⟨⟨value, reads⟩, is⟩
    · obtain rfl := Except.error.inj (failed.symm.trans is)
      rw [isExcessive_ofReadError, reads]
      constructor
      · exact fun excessive => ⟨error, rfl, excessive⟩
      · rintro ⟨_, ⟨⟩, excessive⟩
        exact excessive
    · obtain rfl := Except.error.inj (failed.symm.trans is)
      rw [reads]
      constructor
      · exact fun excessive => nomatch excessive
      · rintro ⟨_, ⟨⟩, -⟩

/-- A manifest that names a checker of style in both sections, the second time with an empty version. -/
def sampleMembers : List (String × Json) :=
  [("dependencies", .object [("eslint", .text "9")]), ("devDependencies", .object [("eslint", .text "")])]

theorem manifests_miss_empty_versions_twice :
    Json.read (Json.object sampleMembers).write = .ok (.object sampleMembers) ∧
    packageNames (.object sampleMembers) = {"eslint"} ∧
    ∃ report, analyze {} [] (Json.object sampleMembers).write = .ok report ∧ report.dependencyCount = 1 ∧
      noLinterFinding ∈ report.findings ∧ ¬ report.GoesByNames {} [] (.object sampleMembers) := by
  have reads : Json.read (Json.object sampleMembers).write = .ok (.object sampleMembers) := by
    have ordered : Json.inOrder sampleMembers = sampleMembers :=
      List.mergeSort_of_pairwise (List.pairwise_pair.mpr (by decide))
    have single (member : String × Json) : Json.collected (Json.inOrder [member]) = [member] :=
      congrArg Json.collected (List.mergeSort_singleton member)
    have inner : Json.settled.settledMembers sampleMembers = sampleMembers := by
      simp only [sampleMembers, Json.settled.settledMembers, Json.settled, single]
    rw [Json.read_write (by decide) (by decide), Json.settled, inner, ordered]
    rfl
  have names : packageNames (.object sampleMembers) = {"eslint"} := by decide +kernel
  obtain ⟨report, analyzes, describes, byNames⟩ :=
    (manifests_miss_empty_versions {} [] (Json.object sampleMembers).write).1 _ reads
  refine ⟨reads, names, report, analyzes, ?_, ?_, fun goes => ?_⟩
  · rw [describes.count, names, Finset.card_singleton]
  · exact describes.linter.mpr (by decide +kernel)
  · have none : ¬ ∃ package ∈ Catalog.linterPackages, IsVersioned (.object sampleMembers) package := by decide +kernel
    exact none ((byNames.mp goes).1 ⟨"eslint", .head _, by rw [names]; exact Finset.mem_singleton_self _⟩)

end Manifest

end RepoAudit
