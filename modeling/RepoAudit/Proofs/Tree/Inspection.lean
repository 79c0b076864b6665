import Mathlib.Data.List.Basic
import RepoAudit.Tree.Inspection

/-!
# Inspection and the order of a tree

Each check asks whether a tree has an entry of some sort, so the order of the entries makes no difference, and further
entries take nothing away that was found. Only the file that a kind of sensitive file is reported for hangs on the
order: it is the first of the kind (`IsFirstOf`).
-/

namespace RepoAudit.Tree

/-- A kind of sensitive file, and the file that is reported for it. -/
structure Sighting where
  kind : SensitiveFile
  path : String
  deriving DecidableEq, Repr

/-- The report. -/
def Sighting.finding (sighting : Sighting) : Finding := sensitiveFinding sighting.kind sighting.path

/-- The first path of a kind. -/
def sight (paths : List String) (kind : SensitiveFile) : Option Sighting :=
  (paths.find? (isSensitive kind.fragment)).map (Sighting.mk kind)

/-- The kinds of sensitive files that a tree has, in the order of the catalog, each with its first file. -/
def sightings (rules : Ruleset) (tree : List TreeEntry) : List Sighting :=
  rules.sensitiveFiles.filterMap (sight (filePaths tree))

/-- The path is that of a file of the kind, and no file before it is of the kind. -/
def IsFirstOf (kind : SensitiveFile) (path : String) (tree : List TreeEntry) : Prop :=
  ∃ before entry after, tree = before ++ entry :: after ∧ entry.isFile ∧ entry.path = path ∧
    isSensitive kind.fragment path ∧ ∀ earlier ∈ before, earlier.isFile → ¬ isSensitive kind.fragment earlier.path

section

variable {rules : Ruleset} {tree other more : List TreeEntry} {kind : SensitiveFile} {path : String}

/-! ### Files of a tree -/

lemma perm_filePaths (perm : tree.Perm other) : (filePaths tree).Perm (filePaths other) :=
  (perm.filter _).map _

lemma filePaths_subset (within : tree ⊆ more) : filePaths tree ⊆ filePaths more :=
  List.map_subset _ (List.filter_subset _ within)

lemma any_of_subset {α : Type} {p : α → Bool} {items others : List α} (within : items ⊆ others)
    (found : items.any p = true) : others.any p = true := by
  obtain ⟨item, listed, fits⟩ := List.any_eq_true.mp found
  exact List.any_eq_true.mpr ⟨item, within listed, fits⟩

lemma find?_filePaths (p : String → Bool) (tree : List TreeEntry) :
    (filePaths tree).find? p = (tree.find? fun entry => entry.isFile && p entry.path).map (·.path) := by
  rw [filePaths, List.find?_map, List.find?_filter]
  simp only [Bool.decide_and, Bool.decide_eq_true, Function.comp_apply]

/-! ### Sensitive files -/

lemma sensitiveFiles_eq (rules : Ruleset) (tree : List TreeEntry) :
    sensitiveFiles rules tree = (sightings rules tree).map Sighting.finding := by
  rw [sightings, List.map_filterMap, sensitiveFiles]
  refine congrArg (List.filterMap · _) (funext fun kind => ?_)
  rw [sight, Option.map_map]
  rfl

lemma sight_eq_some_iff {paths : List String} {sighting : Sighting} :
    sight paths kind = some sighting ↔
      kind = sighting.kind ∧ paths.find? (isSensitive kind.fragment) = some sighting.path := by
  rw [sight, Option.map_eq_some_iff]
  constructor
  · rintro ⟨path, found, rfl⟩
    exact ⟨rfl, found⟩
  · rintro ⟨rfl, found⟩
    exact ⟨_, found, rfl⟩

lemma kind_of_sight {paths : List String} {sighting : Sighting} (seen : sight paths kind = some sighting) :
    sighting.kind = kind :=
  (sight_eq_some_iff.mp seen).1.symm

lemma isFirstOf_iff :
    IsFirstOf kind path tree ↔ (filePaths tree).find? (isSensitive kind.fragment) = some path := by
  simp only [find?_filePaths, Option.map_eq_some_iff, List.find?_eq_some_iff_append, Bool.and_eq_true,
    Bool.not_eq_true', Bool.and_eq_false_imp]
  constructor
  · rintro ⟨before, entry, after, rfl, file, rfl, fits, none⟩
    refine ⟨entry, ⟨⟨file, fits⟩, before, after, rfl, fun earlier listed file => ?_⟩, rfl⟩
    exact Bool.eq_false_iff.mpr (none earlier listed file)
  · rintro ⟨entry, ⟨⟨file, fits⟩, before, after, rfl, none⟩, rfl⟩
    refine ⟨before, entry, after, rfl, file, rfl, fits, fun earlier listed file => ?_⟩
    exact Bool.eq_false_iff.mp (none earlier listed file)

lemma mem_sightings {sighting : Sighting} :
    sighting ∈ sightings rules tree ↔
      sighting.kind ∈ rules.sensitiveFiles ∧ IsFirstOf sighting.kind sighting.path tree := by
  simp only [sightings, List.mem_filterMap, sight_eq_some_iff, isFirstOf_iff]
  constructor
  · rintro ⟨kind, listed, rfl, found⟩
    exact ⟨listed, found⟩
  · rintro ⟨listed, found⟩
    exact ⟨_, listed, rfl, found⟩

/-- Where each kind leads to a report of its own, the kinds that are reported are those that lead to any. -/
lemma kinds_filterMap {pick : SensitiveFile → Option Sighting}
    (own : ∀ kind sighting, pick kind = some sighting → sighting.kind = kind) (kinds : List SensitiveFile) :
    (kinds.filterMap pick).map (·.kind) = kinds.filter fun kind => (pick kind).isSome := by
  rw [List.map_filterMap, ← List.filterMap_eq_filter]
  refine congrArg (List.filterMap · _) (funext fun kind => ?_)
  cases picked : pick kind with
  | none => simp [Option.guard, picked]
  | some sighting => simp [Option.guard, picked, own kind sighting picked]

lemma kinds_sightings (rules : Ruleset) (tree : List TreeEntry) : (sightings rules tree).map (·.kind) =
    rules.sensitiveFiles.filter fun kind => (filePaths tree).any (isSensitive kind.fragment) := by
  rw [sightings, kinds_filterMap fun _ _ => kind_of_sight]
  refine List.filter_congr fun kind _ => ?_
  rw [sight, Option.isSome_map, List.isSome_find?]

lemma titles_sensitiveFiles (rules : Ruleset) (tree : List TreeEntry) :
    (sensitiveFiles rules tree).map (·.title) = ((sightings rules tree).map (·.kind)).map (·.title) := by
  rw [sensitiveFiles_eq, List.map_map, List.map_map]
  rfl

lemma kinds_sublist (within : tree ⊆ more) :
    ((sightings rules tree).map (·.kind)).Sublist ((sightings rules more).map (·.kind)) := by
  rw [kinds_sightings, kinds_sightings]
  exact List.monotone_filter_right _ fun kind => any_of_subset (filePaths_subset within)

/-! ### Other checks -/

lemma layout_perm (perm : tree.Perm other) : layout rules tree = layout rules other := by
  unfold layout hasManifest
  simp only [(perm_filePaths perm).any_eq, perm.any_eq]

lemma importantFiles_perm (perm : tree.Perm other) : importantFiles rules tree = importantFiles rules other :=
  List.filter_congr fun _ _ => perm.any_eq

lemma importantFiles_sublist (within : tree ⊆ more) :
    (importantFiles rules tree).Sublist (importantFiles rules more) :=
  List.monotone_filter_right _ fun _ => any_of_subset within

end

/-- Inspections of two orders of a tree agree. The kinds of sensitive files are reported in the order of the catalog,
each for its first file, and further entries, wherever they stand, take away no title and no file worth noting. -/
theorem inspections_ignore_order {tree other more : List TreeEntry} (rules : Ruleset) (perm : tree.Perm other)
    (within : tree ⊆ more) :
    (layout rules tree = layout rules other ∧ importantFiles rules tree = importantFiles rules other ∧
      hasManifest tree = hasManifest other ∧ hasRootManifest tree = hasRootManifest other ∧
      (sightings rules tree).map (·.kind) = (sightings rules other).map (·.kind)) ∧
    (importantFiles rules tree).Sublist rules.importantFiles ∧
    (sensitiveFiles rules tree = (sightings rules tree).map (·.finding) ∧
      ((sightings rules tree).map (·.kind)).Sublist rules.sensitiveFiles ∧
      ∀ sighting, sighting ∈ sightings rules tree ↔
        sighting.kind ∈ rules.sensitiveFiles ∧ IsFirstOf sighting.kind sighting.path tree) ∧
    ((sensitiveFiles rules tree).map (·.title)).Sublist ((sensitiveFiles rules more).map (·.title)) ∧
    (importantFiles rules tree).Sublist (importantFiles rules more) := by
  have files := perm_filePaths perm
  refine ⟨⟨layout_perm perm, importantFiles_perm perm, files.any_eq, files.contains_eq, ?_⟩, List.filter_sublist,
    ⟨sensitiveFiles_eq rules tree, ?_, fun _ => mem_sightings⟩, ?_, importantFiles_sublist within⟩
  · rw [kinds_sightings, kinds_sightings]
    exact List.filter_congr fun _ _ => files.any_eq
  · rw [kinds_sightings]
    exact List.filter_sublist
  · rw [titles_sensitiveFiles, titles_sensitiveFiles]
    exact (kinds_sublist within).map _

/-- Two files of a kind, a directory that is named as one, and a file in a directory worth noting. -/
def sampleTree : List TreeEntry :=
  [{ path := "old/id_rsa", kind := "dir" }, { path := "deploy/.env" }, { path := "config/.env" },
    { path := ".github/workflows/ci.yml" }, { path := "package.json" }]

theorem inspections_ignore_order_reversed :
    sampleTree.Perm sampleTree.reverse ∧ sampleTree ⊆ { path := "keys/id_rsa" } :: sampleTree ∧
    (sightings {} sampleTree).map (·.path) = ["deploy/.env"] ∧
    (sightings {} sampleTree.reverse).map (·.path) = ["config/.env"] ∧
    (sightings {} sampleTree).map (·.kind) = (sightings {} sampleTree.reverse).map (·.kind) ∧
    (importantFiles {} sampleTree).Sublist (importantFiles {} ({ path := "keys/id_rsa" } :: sampleTree)) := by
  have perm : sampleTree.Perm sampleTree.reverse := (List.reverse_perm _).symm
  have within : sampleTree ⊆ { path := "keys/id_rsa" } :: sampleTree := List.subset_cons_self _ _
  obtain ⟨⟨-, -, -, -, kinds⟩, -, -, -, noted⟩ := inspections_ignore_order {} perm within
  exact ⟨perm, within, by decide +kernel, by decide +kernel, kinds, noted⟩

end RepoAudit.Tree
