import RepoAudit.Proofs.Text.Basic
import RepoAudit.Proofs.Tree.Inspection

/-!
# Sensitive files in directories

A path holds a fragment after a slash only where a directory stands before it. So a file whose name goes on after the
fragment is reported in a directory and missed in the root, and a tree that is moved into a directory may have more to
report (`isSensitive_inFolder`).
-/

namespace RepoAudit

lemma Text.occursIn_iff (needle text : List Char) : occursIn needle text = true ↔ needle <:+: text := by
  induction text with
  | nil => rw [occursIn, List.isEmpty_iff, List.infix_nil]
  | cons c text ih => rw [occursIn, Bool.or_eq_true, List.isPrefixOf_iff_prefix, ih, List.infix_cons_iff]

namespace Tree

/-! ### Paths in a directory -/

/-- The path of a file after its tree was moved into the directory. -/
def inFolder (folder path : String) : String := folder ++ "/" ++ path

/-- The tree in the directory. -/
def moved (folder : String) (tree : List TreeEntry) : List TreeEntry :=
  tree.map fun entry => { entry with path := inFolder folder entry.path }

/-- The report of the file in the directory. -/
def Sighting.inFolder (folder : String) (sighting : Sighting) : Sighting :=
  { sighting with path := Tree.inFolder folder sighting.path }

lemma filePaths_moved (folder : String) (tree : List TreeEntry) :
    filePaths (moved folder tree) = (filePaths tree).map (inFolder folder) := by
  rw [filePaths, filePaths, moved, List.filter_map, List.map_map, List.map_map]
  rfl

section Fragment

variable {fragment folder path : List Char}

/-- The slash before the fragment is one of the path, or the one that the path was put behind. -/
lemma infix_in_folder (single : '/' ∉ fragment) (free : ¬ fragment <:+: folder) :
    '/' :: fragment <:+: folder ++ '/' :: path ↔ fragment <+: path ∨ '/' :: fragment <:+: path := by
  induction folder with
  | nil => rw [List.nil_append, List.infix_cons_iff, List.cons_prefix_cons, and_iff_right rfl]
  | cons c folder ih =>
    have elsewhere : ¬ '/' :: fragment <+: c :: folder ++ '/' :: path := by
      rw [List.cons_append, List.cons_prefix_cons]
      rintro ⟨-, starts⟩
      exact free (((Text.prefix_append_separator_iff single).mp starts).isInfix.trans (List.infix_cons List.infix_rfl))
    rw [← ih fun within => free (List.infix_cons within), List.cons_append, List.infix_cons_iff]
    exact or_iff_right elsewhere

end Fragment

/-- In the directory a file is sensitive as well when its path starts with the fragment. -/
lemma isSensitive_inFolder {fragment folder : String} (single : '/' ∉ fragment.toList)
    (free : ¬ fragment.toList <:+: folder.toList) (path : String) :
    isSensitive fragment (inFolder folder path) = (startsWith path fragment || isSensitive fragment path) := by
  have parts : (inFolder folder path).toList = folder.toList ++ '/' :: path.toList := by simp [inFolder]
  rw [Bool.eq_iff_iff]
  simp only [isSensitive, endsWith, startsWith, Bool.or_eq_true, List.isSuffixOf_iff_suffix,
    List.isPrefixOf_iff_prefix, Text.occursIn_iff, parts, Text.suffix_append_separator_iff single,
    infix_in_folder single free]
  exact or_left_comm

/-! ### First files -/

section First

variable {α β : Type}

/-- Two ways to pick agree on a list just when they agree on its items, if the first picks whenever the second does. -/
lemma filterMap_eq_iff {f g : α → Option β} {items : List α} (more : ∀ item, (g item).isSome → (f item).isSome) :
    items.filterMap f = items.filterMap g ↔ ∀ item ∈ items, f item = g item := by
  refine ⟨fun same => ?_, List.filterMap_congr⟩
  induction items with
  | nil => exact fun _ listed => nomatch listed
  | cons item items ih =>
    have here : f item = g item ∧ items.filterMap f = items.filterMap g := by
      cases picked : f item with
      | none =>
        have none : g item = none := Option.not_isSome_iff_eq_none.mp fun some => by simpa [picked] using more item some
        rw [List.filterMap_cons_none picked, List.filterMap_cons_none none] at same
        exact ⟨none.symm, same⟩
      | some result =>
        cases picked' : g item with
        | some result' =>
          rw [List.filterMap_cons_some picked, List.filterMap_cons_some picked', List.cons.injEq] at same
          exact ⟨congrArg some same.1, same.2⟩
        | none =>
          -- The first way is one ahead, and the second never catches up.
          rw [List.filterMap_cons_some picked, List.filterMap_cons_none picked'] at same
          have ahead := congrArg List.length same
          rw [List.length_cons, List.length_filterMap_eq_countP, List.length_filterMap_eq_countP] at ahead
          have behind := List.countP_mono_left (l := items) fun other _ => more other
          omega
    exact List.forall_mem_cons.mpr ⟨here.1, ih here.2⟩

lemma start_subset (before : List α) (item : α) (after : List α) : before ++ [item] ⊆ before ++ item :: after := by
  rw [List.append_cons before item after]
  exact List.subset_append_left _ _

/-- A wider search ends where the narrower one does just when whatever it finds comes with or after a find of that. -/
lemma find?_or_eq_iff {p q : α → Bool} {items : List α} :
    (items.find? fun item => p item || q item) = items.find? q ↔
      ∀ before item after, items = before ++ item :: after → p item → ∃ earlier ∈ before ++ [item], q earlier := by
  constructor
  · rintro same before item after rfl fits
    obtain ⟨first, found⟩ : ∃ first, ((before ++ [item]).find? fun item => p item || q item) = some first := by
      rw [← Option.isSome_iff_exists, List.find?_isSome]
      exact ⟨item, List.mem_append_right _ List.mem_cons_self, by simp [fits]⟩
    rw [List.append_cons before item after, List.find?_append, found, Option.some_or] at same
    exact ⟨first, List.mem_of_find?_eq_some found, List.find?_some same.symm⟩
  · intro covered
    cases found : items.find? q with
    | none =>
      rw [List.find?_eq_none] at found ⊢
      intro item listed fits
      obtain ⟨before, after, rfl⟩ := List.append_of_mem listed
      rcases Bool.or_eq_true_iff.mp fits with opens | narrow
      · obtain ⟨earlier, there, narrow⟩ := covered before item after rfl opens
        exact found earlier (start_subset before item after there) narrow
      · exact found item listed narrow
    | some first =>
      obtain ⟨narrow, before, after, rfl, none⟩ := List.find?_eq_some_iff_append.mp found
      refine List.find?_eq_some_iff_append.mpr ⟨by simp [narrow], before, after, rfl, fun item listed => ?_⟩
      have other := none item listed
      cases opens : p item with
      | false => simpa [opens] using other
      | true =>
        obtain ⟨start, rest, rfl⟩ := List.append_of_mem listed
        obtain ⟨earlier, there, narrow⟩ := covered start item (rest ++ first :: after) (by simp) opens
        have passed := none earlier (start_subset start item rest there)
        simp [narrow] at passed

end First

/-! ### Moved trees -/

section Moved

variable {rules : Ruleset} {folder : String} {tree : List TreeEntry} {kind : SensitiveFile}

/-- The first path that starts with the fragment or is sensitive. -/
def sightDeep (folder : String) (paths : List String) (kind : SensitiveFile) : Option Sighting :=
  (paths.find? fun path => startsWith path kind.fragment || isSensitive kind.fragment path).map fun path =>
    ⟨kind, inFolder folder path⟩

lemma sight_moved (single : '/' ∉ kind.fragment.toList) (free : ¬ kind.fragment.toList <:+: folder.toList)
    (tree : List TreeEntry) : sight (filePaths (moved folder tree)) kind = sightDeep folder (filePaths tree) kind := by
  have wider : isSensitive kind.fragment ∘ inFolder folder =
      fun path => startsWith path kind.fragment || isSensitive kind.fragment path :=
    funext (isSensitive_inFolder single free)
  rw [sight, sightDeep, filePaths_moved, List.find?_map, Option.map_map, wider]
  rfl

lemma inFolder_injective (folder : String) : Function.Injective (inFolder folder) := by
  intro path other same
  have chars := congrArg String.toList same
  simp only [inFolder, String.toList_append, List.append_assoc, List.append_cancel_left_eq] at chars
  exact String.toList_inj.mp chars

lemma sightDeep_eq_iff {paths : List String} :
    sightDeep folder paths kind = (sight paths kind).map (·.inFolder folder) ↔
      (paths.find? fun path => startsWith path kind.fragment || isSensitive kind.fragment path) =
        paths.find? (isSensitive kind.fragment) := by
  rw [sightDeep, sight, Option.map_map]
  refine Function.Injective.eq_iff (Option.map_injective fun path other same => ?_)
  exact inFolder_injective folder (Sighting.mk.inj same).2

lemma isSome_sightDeep {paths : List String} (seen : (sight paths kind).isSome) :
    (sightDeep folder paths kind).isSome := by
  rw [sight, Option.isSome_map, List.find?_isSome] at seen
  obtain ⟨path, listed, fits⟩ := seen
  rw [sightDeep, Option.isSome_map, List.find?_isSome]
  exact ⟨path, listed, by rw [fits, Bool.or_true]⟩

lemma kind_of_sightDeep {paths : List String} {sighting : Sighting}
    (seen : sightDeep folder paths kind = some sighting) : sighting.kind = kind := by
  obtain ⟨path, -, rfl⟩ := Option.map_eq_some_iff.mp seen
  rfl

end Moved

/-- In a directory that holds no fragment a file is sensitive as it is in the root, and also when its whole path starts
with the fragment. So every kind that is reported of a tree is reported of the tree in the directory, and the reports
are the same, each for the path in the directory, just when each path that starts with a fragment is sensitive for it in
the root, too, or comes after one that is. -/
theorem roots_miss_fragments_at_start (rules : Ruleset) (folder : String) (tree : List TreeEntry)
    (single : ∀ kind ∈ rules.sensitiveFiles, '/' ∉ kind.fragment.toList)
    (free : ∀ kind ∈ rules.sensitiveFiles, ¬ kind.fragment.toList <:+: folder.toList) :
    (∀ kind ∈ rules.sensitiveFiles, ∀ path, isSensitive kind.fragment (inFolder folder path) =
      (startsWith path kind.fragment || isSensitive kind.fragment path)) ∧
    sensitiveFiles rules (moved folder tree) = (sightings rules (moved folder tree)).map (·.finding) ∧
    sightings rules (moved folder tree) = rules.sensitiveFiles.filterMap (sightDeep folder (filePaths tree)) ∧
    ((sightings rules tree).map (·.kind)).Sublist ((sightings rules (moved folder tree)).map (·.kind)) ∧
    (sightings rules (moved folder tree) = (sightings rules tree).map (·.inFolder folder) ↔
      ∀ kind ∈ rules.sensitiveFiles, ∀ before path after, filePaths tree = before ++ path :: after →
        startsWith path kind.fragment → ∃ earlier ∈ before ++ [path], isSensitive kind.fragment earlier) := by
  have deep : sightings rules (moved folder tree) =
      rules.sensitiveFiles.filterMap (sightDeep folder (filePaths tree)) :=
    List.filterMap_congr fun kind listed => sight_moved (single kind listed) (free kind listed) tree
  refine ⟨fun kind listed => isSensitive_inFolder (single kind listed) (free kind listed), sensitiveFiles_eq _ _, deep,
    ?_, ?_⟩
  · rw [deep, kinds_filterMap fun _ _ => kind_of_sightDeep, sightings, kinds_filterMap fun _ _ => kind_of_sight]
    exact List.monotone_filter_right _ fun _ => isSome_sightDeep
  · rw [deep, sightings, List.map_filterMap, filterMap_eq_iff]
    · refine forall₂_congr fun kind listed => ?_
      rw [sightDeep_eq_iff, find?_or_eq_iff]
    · intro kind seen
      rw [Option.isSome_map] at seen
      exact isSome_sightDeep seen

/-- A key whose name goes on after the fragment, and a file whose name is one fragment and starts with another. -/
def sampleRoot : List TreeEntry := [{ path := "service-account.json" }, { path := ".env.local" }]

theorem roots_miss_fragments_at_start_keys :
    (∀ kind ∈ Catalog.sensitiveFiles, '/' ∉ kind.fragment.toList) ∧
    (∀ kind ∈ Catalog.sensitiveFiles, ¬ kind.fragment.toList <:+: "keys".toList) ∧
    (sightings {} sampleRoot).map (·.path) = [".env.local"] ∧
    (sightings {} (moved "keys" sampleRoot)).map (·.path) =
      ["keys/.env.local", "keys/.env.local", "keys/service-account.json"] ∧
    sightings {} (moved "keys" sampleRoot) ≠ (sightings {} sampleRoot).map (·.inFolder "keys") := by
  have single : ∀ kind ∈ Catalog.sensitiveFiles, '/' ∉ kind.fragment.toList := by decide +kernel
  have free : ∀ kind ∈ Catalog.sensitiveFiles, ¬ kind.fragment.toList <:+: "keys".toList := by decide +kernel
  obtain ⟨-, -, deep, -, same⟩ := roots_miss_fragments_at_start {} "keys" sampleRoot single free
  refine ⟨single, free, by decide +kernel, by rw [deep]; decide +kernel, fun agree => ?_⟩
  -- The key starts with its fragment, and nothing before it is sensitive for that.
  obtain ⟨kind, listed, opens, none⟩ : ∃ kind ∈ Catalog.sensitiveFiles,
      startsWith "service-account.json" kind.fragment = true ∧
        isSensitive kind.fragment "service-account.json" = false := by decide +kernel
  obtain ⟨earlier, there, fits⟩ :=
    same.mp agree kind listed [] "service-account.json" [".env.local"] (by decide +kernel) opens
  obtain rfl := List.mem_singleton.mp there
  rw [none] at fits
  cases fits

end Tree

end RepoAudit
