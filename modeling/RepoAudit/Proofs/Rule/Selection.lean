import Mathlib.Data.List.TakeWhile
import RepoAudit.Proofs.Rule.Excerpt
import RepoAudit.Rule.Engine

/-!
# Selected files

The extension of a path is what follows its last point. A path without a point is taken for an extension as a whole, so
a file in the root is selected for a name that is a known extension (`IsMistaken`).
-/

namespace RepoAudit

/-! ### Extensions -/

namespace Tree

variable {path ext : String}

/-- The path ends with a point and the extension, in which no point stands. -/
def HasExtension (path ext : String) : Prop := '.' ∉ ext.toList ∧ ∃ stem, path = stem ++ "." ++ ext

lemma passes_of_pointless {s : List Char} (pointless : '.' ∉ s) : ∀ c ∈ s.reverse, (c != '.') = true := by
  intro c listed
  refine bne_iff_ne.mpr fun point => pointless ?_
  rwa [point, List.mem_reverse] at listed

lemma HasExtension.extension_eq (has : HasExtension path ext) : extension path = "." ++ Text.lower ext := by
  obtain ⟨pointless, stem, rfl⟩ := has
  have turned : (stem ++ "." ++ ext).toList.reverse = ext.toList.reverse ++ '.' :: stem.toList.reverse := by simp
  have stops : ('.' :: stem.toList.reverse).takeWhile (· != '.') = [] := List.takeWhile_cons_of_neg (by decide)
  rw [extension, turned, List.takeWhile_append_of_pos (passes_of_pointless pointless), stops, List.append_nil,
    List.reverse_reverse, String.ofList_toList]

lemma extension_of_pointless (pointless : '.' ∉ path.toList) : extension path = "." ++ Text.lower path := by
  rw [extension, List.takeWhile_eq_self_iff.mpr (passes_of_pointless pointless), List.reverse_reverse,
    String.ofList_toList]

/-- The paths with a point are those with an extension, which is what follows the last one. -/
lemma exists_hasExtension_iff : (∃ ext, HasExtension path ext) ↔ '.' ∈ path.toList := by
  constructor
  · rintro ⟨ext, -, stem, rfl⟩
    simp
  · intro point
    obtain ⟨after, before, turned, pointless⟩ := List.eq_append_cons_of_mem (List.mem_reverse.mpr point)
    refine ⟨String.ofList after.reverse, by simpa using pointless, String.ofList before.reverse, ?_⟩
    refine String.toList_inj.mp ?_
    rw [← List.reverse_reverse path.toList, turned]
    simp

end Tree

namespace Engine

/-! ### Selection -/

/-- A file with an extension that is scanned, and small enough. -/
def IsScannable (rules : Ruleset) (limits : Limits) (entry : TreeEntry) : Prop :=
  entry.isFile = true ∧ (∃ ext, Tree.HasExtension entry.path ext ∧ "." ++ Text.lower ext ∈ rules.scannableExtensions) ∧
    entry.byteCount < limits.maxFileSize

/-- A file without an extension, and small enough, whose path is an extension that is scanned. -/
def IsMistaken (rules : Ruleset) (limits : Limits) (entry : TreeEntry) : Prop :=
  entry.isFile = true ∧ ('.' ∉ entry.path.toList ∧ "." ++ Text.lower entry.path ∈ rules.scannableExtensions) ∧
    entry.byteCount < limits.maxFileSize

section Selection

variable {rules : Ruleset} {limits : Limits} {entry : TreeEntry} {path : String}

lemma hasExtension_iff : (∃ ext, Tree.HasExtension path ext ∧ "." ++ Text.lower ext ∈ rules.scannableExtensions) ↔
    '.' ∈ path.toList ∧ Tree.extension path ∈ rules.scannableExtensions := by
  rw [← Tree.exists_hasExtension_iff]
  constructor
  · rintro ⟨ext, has, known⟩
    exact ⟨⟨ext, has⟩, has.extension_eq ▸ known⟩
  · rintro ⟨⟨ext, has⟩, known⟩
    exact ⟨ext, has, has.extension_eq ▸ known⟩

instance (rules : Ruleset) (limits : Limits) : DecidablePred (IsScannable rules limits) := fun _ =>
  decidable_of_iff (_ ∧ _ ∧ _) (and_congr_right' (and_congr_left' hasExtension_iff.symm))

instance (rules : Ruleset) (limits : Limits) : DecidablePred (IsMistaken rules limits) := fun _ =>
  inferInstanceAs (Decidable (_ ∧ (_ ∧ _) ∧ _))

lemma shouldScan_iff :
    shouldScan rules limits entry = true ↔ IsScannable rules limits entry ∨ IsMistaken rules limits entry := by
  simp only [shouldScan, Bool.and_eq_true, List.contains_iff_mem, decide_eq_true_iff, and_assoc]
  rw [IsScannable, IsMistaken, ← and_or_left, ← or_and_right, hasExtension_iff]
  by_cases point : '.' ∈ entry.path.toList
  · simp [point]
  · simp [point, Tree.extension_of_pointless point]

/-- The first items are the first ones of a sort just when all of them are of the sort. -/
lemma take_eq_take_filter_iff {α : Type} {p : α → Bool} {items : List α} {n : Nat} :
    items.take n = (items.filter p).take n ↔ ∀ item ∈ items.take n, p item := by
  constructor
  · intro same item listed
    rw [same] at listed
    exact (List.mem_filter.mp (List.mem_of_mem_take listed)).2
  · intro fits
    have parts : items.filter p = items.take n ++ (items.drop n).filter p := by
      conv_lhs => rw [← List.take_append_drop n items, List.filter_append, List.filter_eq_self.mpr fits]
    rw [parts]
    rcases Nat.le_total n items.length with many | few
    · have full : n ≤ (items.take n).length := by rw [List.length_take_of_le many]
      rw [List.take_append_of_le_length full, List.take_take, Nat.min_self]
    · rw [List.drop_of_length_le few, List.filter_nil, List.append_nil, List.take_take, Nat.min_self]

lemma selectFiles_eq (rules : Ruleset) (enough : 0 ≤ limits.maxFiles) (tree : List TreeEntry) :
    selectFiles rules limits tree =
      (tree.filter fun entry => IsScannable rules limits entry ∨ IsMistaken rules limits entry).take
        limits.maxFiles.toNat := by
  have bound (length : Nat) : Text.boundIndex length limits.maxFiles = min limits.maxFiles.toNat length := by
    conv_lhs => rw [← Int.toNat_of_nonneg enough, Text.boundIndex_natCast]
  rw [selectFiles, Text.takeTo, bound, ← List.take_eq_take_min]
  refine congrArg _ (List.filter_congr fun entry _ => ?_)
  rw [Bool.eq_iff_iff, shouldScan_iff, decide_eq_true_iff]

end Selection

/-- The files that are selected are the first ones, as many as are wanted, of those that are small enough and either
have an extension that is scanned or have none and a path that is one. So they are the first ones with an extension just
when no path among them is without a point. -/
theorem names_pass_for_extensions (rules : Ruleset) {limits : Limits} (enough : 0 ≤ limits.maxFiles)
    (tree : List TreeEntry) :
    selectFiles rules limits tree =
      (tree.filter fun entry => IsScannable rules limits entry ∨ IsMistaken rules limits entry).take
        limits.maxFiles.toNat ∧
    (selectFiles rules limits tree =
        (tree.filter fun entry => IsScannable rules limits entry).take limits.maxFiles.toNat ↔
      ∀ entry ∈ selectFiles rules limits tree, '.' ∈ entry.path.toList) := by
  have selected := selectFiles_eq rules enough tree
  refine ⟨selected, ?_⟩
  have narrower : (tree.filter fun entry => IsScannable rules limits entry) =
      (tree.filter fun entry => IsScannable rules limits entry ∨ IsMistaken rules limits entry).filter
        fun entry => IsScannable rules limits entry := by
    rw [List.filter_filter]
    refine List.filter_congr fun entry _ => ?_
    rw [Bool.eq_iff_iff, Bool.and_eq_true, decide_eq_true_iff, decide_eq_true_iff]
    exact (and_iff_left_of_imp Or.inl).symm
  rw [selected, narrower, take_eq_take_filter_iff]
  refine forall₂_congr fun entry listed => ?_
  have sort := of_decide_eq_true (List.mem_filter.mp (List.mem_of_mem_take listed)).2
  rw [decide_eq_true_iff]
  constructor
  · rintro ⟨-, ⟨ext, has, -⟩, -⟩
    exact Tree.exists_hasExtension_iff.mp ⟨ext, has⟩
  · intro point
    exact sort.resolve_right fun mistaken => mistaken.2.1.1 point

/-- A program without an extension whose name is one, and a directory and a large file of known extensions. -/
def sampleFiles : List TreeEntry :=
  [{ path := "lib.js", kind := "dir" }, { path := "Go" }, { path := "Makefile" }, { path := "src/go" },
    { path := "big.ts", size := some (.bytes 200000) }, { path := "a.JS" }]

theorem names_pass_for_extensions_go : 0 ≤ Limits.maxFiles {} ∧
    (selectFiles {} {} sampleFiles).map (·.path) = ["Go", "a.JS"] ∧
    selectFiles {} {} sampleFiles ≠ (sampleFiles.filter fun entry => IsScannable {} {} entry).take 80 := by
  have enough : 0 ≤ Limits.maxFiles {} := by decide
  obtain ⟨selected, same⟩ := names_pass_for_extensions {} enough sampleFiles
  refine ⟨enough, by rw [selected]; decide +kernel, fun only => ?_⟩
  have listed : { path := "Go" : TreeEntry } ∈ selectFiles {} {} sampleFiles := by decide +kernel
  have pointless : '.' ∉ "Go".toList := by decide
  exact pointless (same.mp only _ listed)

end Engine

end RepoAudit
