import RepoAudit.Proofs.Partial
import RepoAudit.Proofs.Rule.Evidence
import RepoAudit.Scan.Assembly
import Mathlib.Data.List.Flatten

/-!
# Titles of findings

Every title opens with words of the catalog, and only then may a path or a number follow. No opening is the start of
another one, so whatever the paths are, two findings with one title come of one entry of the catalog. The findings of
a file follow the openings of the families in their order (`scanFile_headed`), and so do those about a tree and its
manifest with their fixed titles.
-/

namespace RepoAudit

/-- Neither word is the start of the other. -/
def Apart (a b : List Char) : Prop := ¬ a <+: b ∧ ¬ b <+: a

instance : DecidableRel Apart := fun _ _ => inferInstanceAs (Decidable (_ ∧ _))

/-- The title of the finding starts with the word. -/
def Finding.OpensWith (finding : Finding) (head : List Char) : Prop := head <+: finding.title.toList

lemma Finding.OpensWith.ne {one other : Finding} {a b : List Char} (opens : one.OpensWith a)
    (opens' : other.OpensWith b) (apart : Apart a b) : one.title ≠ other.title := by
  intro same
  rw [OpensWith, ← same] at opens'
  rcases List.prefix_or_prefix_of_prefix opens opens' with start | start
  · exact apart.1 start
  · exact apart.2 start

/-- The findings open with some of the words, in the order of the words and with each of them at most once. -/
abbrev Headed (found : List Finding) (heads : List (List Char)) : Prop :=
  List.SublistForall₂ Finding.OpensWith found heads

section Sublist

variable {α β : Type} {R : α → β → Prop} {xs : List α} {ys : List β}

lemma sublistForall₂_append {xs' : List α} {ys' : List β} (first : List.SublistForall₂ R xs ys)
    (second : List.SublistForall₂ R xs' ys') : List.SublistForall₂ R (xs ++ xs') (ys ++ ys') := by
  rw [List.sublistForall₂_iff] at first second ⊢
  obtain ⟨zs, all, sub⟩ := first
  obtain ⟨zs', all', sub'⟩ := second
  exact ⟨zs ++ zs', List.rel_append all all', sub.append sub'⟩

lemma sublistForall₂_mono {ys' : List β} (first : List.SublistForall₂ R xs ys) (sub : ys.Sublist ys') :
    List.SublistForall₂ R xs ys' := by
  rw [List.sublistForall₂_iff] at first ⊢
  obtain ⟨zs, all, sub'⟩ := first
  exact ⟨zs, all, sub'.trans sub⟩

/-- What comes of the items of a list, where each result fits what stands for its item. -/
lemma sublistForall₂_filterMap {γ : Type} {f : γ → Option α} {g : γ → β}
    (fits : ∀ item result, f item = some result → R result (g item)) (items : List γ) :
    List.SublistForall₂ R (items.filterMap f) (items.map g) := by
  induction items with
  | nil => exact .nil
  | cons item items ih =>
    cases is : f item with
    | none =>
      rw [List.filterMap_cons_none is]
      exact .cons_right ih
    | some result =>
      rw [List.filterMap_cons_some is]
      exact .cons (fits item result is) ih

lemma exists_of_mem_sublistForall₂ (follows : List.SublistForall₂ R xs ys) :
    ∀ x ∈ xs, ∃ y ∈ ys, R x y := by
  induction follows with
  | nil => exact fun x listed => nomatch listed
  | cons fits _ ih =>
    rintro x (- | ⟨_, listed⟩)
    · exact ⟨_, .head _, fits⟩
    · obtain ⟨y, later, fits⟩ := ih x listed
      exact ⟨y, .tail _ later, fits⟩
  | cons_right _ ih =>
    intro x listed
    obtain ⟨y, later, fits⟩ := ih x listed
    exact ⟨y, .tail _ later, fits⟩

/-- What holds of every two of one list holds of every two of the list that follows it. -/
lemma pairwise_of_sublistForall₂ {S : β → β → Prop} {T : α → α → Prop} (follows : List.SublistForall₂ R xs ys)
    (pairs : ys.Pairwise S) (carries : ∀ {x x' y y'}, R x y → R x' y' → S y y' → T x x') : xs.Pairwise T := by
  induction follows with
  | nil => exact .nil
  | @cons x y xs ys fits follows ih =>
    obtain ⟨first, rest⟩ := List.pairwise_cons.mp pairs
    refine .cons (fun x' listed => ?_) (ih rest)
    obtain ⟨y', later, fits'⟩ := exists_of_mem_sublistForall₂ follows x' listed
    exact carries fits fits' (first y' later)
  | cons_right _ ih => exact ih (List.pairwise_cons.mp pairs).2

end Sublist

/-- A rule set with rules of the catalog, in their order, and with its other tables. -/
structure Ruleset.Trims (rules : Ruleset) : Prop where
  secrets : rules.secrets.Sublist Catalog.secrets
  security : rules.security.Sublist Catalog.security
  stability : rules.stability.Sublist Catalog.stability
  maintainability : rules.maintainability.Sublist Catalog.maintainability
  sensitiveFiles : rules.sensitiveFiles = Catalog.sensitiveFiles
  typecheckConfig : rules.typecheckConfig = Catalog.typecheckConfig

/-- Leaving out rules and allowing values gives such a rule set. -/
lemma Ruleset.trims_build {settings : RuleSettings} {rules : Ruleset} (builds : build settings {} = .ok rules) :
    rules.Trims := by
  unfold build at builds
  dsimp only at builds
  split at builds
  · obtain ⟨allowed, -, rfl⟩ := exists_of_map_ok builds
    exact ⟨List.filter_sublist, List.filter_sublist, List.filter_sublist, List.filter_sublist, rfl, rfl⟩
  · cases builds

namespace BuiltinFamily

/-- What the titles of a family open with, in the order in which it reports. -/
def heads : BuiltinFamily → List (List Char)
  | secrets => Catalog.secrets.map fun rule => rule.name.toList ++ " Found in Source Code".toList
  | security => Catalog.security.map fun rule => rule.name.toList ++ " in ".toList
  | stability => Catalog.stability.map fun rule => rule.name.toList ++ " (".toList
  | maintainability => Catalog.maintainability.map fun rule => rule.name.toList ++ " (".toList
  | largeFile => ["Large File: ".toList]

section Evaluate

variable {rules : Ruleset} {context : Int} {source : Source} {rule : Rule} {finding : Finding}

/-- What stands between the name of a rule and the rest of a title. -/
def afterName : BuiltinFamily → String
  | secrets => " Found in Source Code"
  | security => " in "
  | _ => " ("

lemma opensWith_of_findingFor {family : BuiltinFamily}
    (fires : family.findingFor rules context source rule = some finding) :
    finding.OpensWith (rule.name.toList ++ family.afterName.toList) := by
  obtain ⟨first, rest, -, rfl⟩ := findingFor_inv fires
  cases family with
  | largeFile => cases fires
  | _ =>
    simp only [Finding.OpensWith, report, Cause.title, afterName, String.toList_append, List.append_assoc,
      List.prefix_append_right_inj, List.prefix_append, List.prefix_rfl]

/-- The findings for the rules of a table, of which each title opens with the name of its rule. -/
lemma headed_table (context : Int) (source : Source) (family : BuiltinFamily) {whole : List Rule}
    (sub : (family.table rules).Sublist whole) :
    Headed ((family.table rules).filterMap (family.findingFor rules context source))
      (whole.map fun rule => rule.name.toList ++ family.afterName.toList) :=
  sublistForall₂_mono (sublistForall₂_filterMap (fun _ _ => opensWith_of_findingFor) _) (sub.map _)

lemma opensWith_lengthReport (source : Source) : (lengthReport source).OpensWith "Large File: ".toList := by
  simp only [Finding.OpensWith, lengthReport, Cause.title, String.toList_append, List.append_assoc, List.prefix_append]

lemma evaluate_headed (trims : rules.Trims) (family : BuiltinFamily) :
    Headed (family.evaluate rules context source) family.heads := by
  cases family with
  | secrets => exact headed_table context source secrets trims.secrets
  | security => exact headed_table context source security trims.security
  | stability => exact headed_table context source stability trims.stability
  | maintainability => exact headed_table context source maintainability trims.maintainability
  | largeFile =>
    show Headed (aboutLength source largeFile) _
    rw [aboutLength_eq]
    split
    · exact .cons (opensWith_lengthReport source) .nil
    · exact .nil

lemma filePath_evaluate {family : BuiltinFamily} (found : finding ∈ family.evaluate rules context source) :
    finding.filePath = some source.path := by
  rcases mem_evaluate.mp found with ⟨rule, -, fires⟩ | about
  · obtain ⟨first, rest, -, rfl⟩ := findingFor_inv fires
    rfl
  · rw [eq_lengthReport about]
    rfl

end Evaluate

/-- The findings of some families for a file. -/
lemma headed_flatten {rules : Ruleset} {context : Int} {source : Source} (trims : rules.Trims)
    (chosen : List BuiltinFamily) :
    Headed (chosen.map fun family => family.evaluate rules context source).flatten (chosen.flatMap heads) := by
  induction chosen with
  | nil => exact .nil
  | cons family rest ih => exact sublistForall₂_append (evaluate_headed trims family) ih

lemma filePath_flatten {rules : Ruleset} {context : Int} {source : Source} {chosen : List BuiltinFamily}
    {finding : Finding} (found : finding ∈ (chosen.map fun family => family.evaluate rules context source).flatten) :
    finding.filePath = some source.path := by
  obtain ⟨_, listed, found⟩ := List.mem_flatten.mp found
  obtain ⟨family, -, rfl⟩ := List.mem_map.mp listed
  exact filePath_evaluate found

end BuiltinFamily

/-- What the titles of findings in files open with. -/
def fileHeads : List (List Char) := BuiltinFamily.all.flatMap BuiltinFamily.heads

/-! ### Trees and manifests -/

namespace Tree

/-- The titles of findings for what a tree lacks. -/
def layoutTitles : List (List Char) :=
  [missingIgnoreFinding.title.toList, (missingLockFinding []).title.toList, missingPipelineFinding.title.toList]

lemma headed_findingWhen {finding : Finding} {head : List Char} (condition : Bool) (opens : finding.OpensWith head) :
    Headed (findingWhen condition finding) [head] := by
  unfold findingWhen
  split
  · exact .cons opens .nil
  · exact .nil

lemma headed_layout (rules : Ruleset) (tree : List TreeEntry) : Headed (layout rules tree) layoutTitles :=
  sublistForall₂_append
    (sublistForall₂_append (headed_findingWhen _ List.prefix_rfl) (headed_findingWhen _ List.prefix_rfl))
    (headed_findingWhen _ List.prefix_rfl)

end Tree

namespace Manifest

/-- The titles of findings for what a manifest lacks. -/
def titles : List (List Char) :=
  [noLinterFinding.title.toList, (noTypecheckFinding Catalog.typecheckConfig).title.toList]

lemma headed_inspect {rules : Ruleset} (trims : rules.Trims) (tree : List TreeEntry)
    (packages : List (String × Json)) : Headed (inspect rules tree packages).findings titles := by
  refine sublistForall₂_append (Tree.headed_findingWhen _ List.prefix_rfl) (Tree.headed_findingWhen _ ?_)
  rw [trims.typecheckConfig]
  exact List.prefix_rfl

lemma headed_analyze {rules : Ruleset} (trims : rules.Trims) {tree : List TreeEntry} {text : String} {report : Report}
    (analyzes : analyze rules tree text = .ok report) : Headed report.findings titles := by
  unfold analyze at analyzes
  split at analyzes
  · cases analyzes
  · cases analyzes
    exact headed_inspect trims tree _
  · cases analyzes

end Manifest

/-! ### The catalog -/

/-- No title of the catalog is the start of another one, and sensitive files of one title have the keys of
`"SSH Private Key Committed"`. -/
lemma heads_apart : (Tree.layoutTitles ++ fileHeads ++ Manifest.titles).Pairwise Apart := by
  decide +kernel

lemma sensitive_apart : ∀ file ∈ Catalog.sensitiveFiles,
    ∀ head ∈ Tree.layoutTitles ++ fileHeads ++ Manifest.titles, Apart file.title.toList head := by
  decide +kernel

/-- The title of two kinds of sensitive files. -/
def privateKeyTitle : String := "SSH Private Key Committed"

lemma sensitive_titles : Catalog.sensitiveFiles.Pairwise fun one other =>
    one.title = other.title → one.title = privateKeyTitle := by decide

end RepoAudit
