import Mathlib.Data.List.Forall2
import RepoAudit.Proofs.Rule.Evidence

/-!
# What fires

The findings of a file are those of the rules that fire in it, family by family and rule by rule, and the one about its
length. The number of its matches alone tells whether a rule fires (`BuiltinFamily.fires`), and the finding tells that
number (`Finding.Tells`).
-/

namespace RepoAudit

/-- The results of a list come, in order, of the items that give one. -/
lemma forall₂_filterMap {α β γ : Type} {R : β → γ → Prop} {f : α → Option β} {p : α → Bool} {g : α → γ}
    (gives : ∀ item, (f item).isSome = p item) (fits : ∀ item result, f item = some result → R result (g item))
    (items : List α) : List.Forall₂ R (items.filterMap f) ((items.filter p).map g) := by
  induction items with
  | nil => exact .nil
  | cons item items ih =>
    have given := gives item
    cases is : f item with
    | none =>
      rw [is] at given
      rw [List.filterMap_cons_none is, List.filter_cons_of_neg (by simp [← given])]
      exact ih
    | some result =>
      rw [is] at given
      rw [List.filterMap_cons_some is, List.filter_cons_of_pos (by simp [← given]), List.map_cons]
      exact .cons (fits item result is) ih

namespace BuiltinFamily

/-- When a rule fires: a secret at one match that is not allowed, dangerous code at one match, unstable code at three
and unfinished code at four. -/
def fires (rules : Ruleset) (source : Source) (rule : Rule) : BuiltinFamily → Bool
  | secrets => (rule.pattern.occurrences source.text).any fun span => !rules.isAllowed (span.slice source.text)
  | security => 1 ≤ (rule.pattern.occurrences source.text).length
  | stability => 3 ≤ (rule.pattern.occurrences source.text).length
  | maintainability => 4 ≤ (rule.pattern.occurrences source.text).length
  | largeFile => false

lemma isSome_evaluateThreshold (policy : Threshold) (source : Source) (rule : Rule) :
    (evaluateThreshold policy source rule).isSome =
      decide (policy.tolerated < (rule.pattern.occurrences source.text).length) := by
  unfold evaluateThreshold
  dsimp only
  split
  · next few => simpa using few
  · next many => simpa using many

lemma isSome_findingFor (rules : Ruleset) (context : Int) (source : Source) (family : BuiltinFamily) (rule : Rule) :
    (family.findingFor rules context source rule).isSome = family.fires rules source rule := by
  cases family with
  | secrets =>
    simp only [findingFor, fires, evaluateSecret, secretMatches]
    split
    · next none =>
      rw [List.filter_eq_nil_iff] at none
      simpa using none
    · next first rest some =>
      have listed : first ∈ (rule.pattern.occurrences source.text).filter
          fun span => !rules.isAllowed (span.slice source.text) := some ▸ List.mem_cons_self
      rw [List.mem_filter] at listed
      exact (List.any_eq_true.mpr ⟨first, listed⟩).symm
  | security =>
    simp only [findingFor, fires, evaluateSecurity]
    split
    · next none => simp [none]
    · next some => simp [some]
  | stability => exact isSome_evaluateThreshold stabilityPolicy source rule
  | maintainability => exact isSome_evaluateThreshold maintainabilityPolicy source rule
  | largeFile => rfl

end BuiltinFamily

/-- What a finding says of its cause. -/
structure Finding.Tells (source : Source) (finding : Finding) (cause : Cause) : Prop where
  category : finding.category = cause.category.name
  severity : finding.severity = (cause.severity source).name
  filePath : finding.filePath = some source.path
  title : finding.title = cause.title source
  description : finding.description = cause.description source

namespace BuiltinFamily

lemma tells_findingFor {rules : Ruleset} {context : Int} {source : Source} {family : BuiltinFamily} {rule : Rule}
    {finding : Finding} (fires : family.findingFor rules context source rule = some finding) :
    finding.Tells source (.ofRule family rule) := by
  obtain ⟨first, rest, -, rfl⟩ := findingFor_inv fires
  exact ⟨rfl, rfl, rfl, rfl, rfl⟩

/-- The causes of findings in a file, in the order of the table. -/
def causes (rules : Ruleset) (source : Source) (family : BuiltinFamily) : List Cause :=
  ((family.table rules).filter fun rule => family.fires rules source rule).map (.ofRule family) ++
    if family = largeFile ∧ 500 < (Text.lines source.content).length then [.ofLength] else []

lemma tells_aboutLength (source : Source) (family : BuiltinFamily) :
    List.Forall₂ (Finding.Tells source) (family.aboutLength source)
      (if family = largeFile ∧ 500 < (Text.lines source.content).length then [.ofLength] else []) := by
  rw [aboutLength_eq]
  split
  · exact .cons ⟨rfl, rfl, rfl, rfl, rfl⟩ .nil
  · exact .nil

lemma tells_evaluate (rules : Ruleset) (context : Int) (source : Source) (family : BuiltinFamily) :
    List.Forall₂ (Finding.Tells source) (family.evaluate rules context source) (family.causes rules source) := by
  rw [evaluate_eq]
  apply List.rel_append
  · exact forall₂_filterMap (isSome_findingFor rules context source family) (fun _ _ => tells_findingFor) _
  · exact tells_aboutLength source family

lemma tells_flatten (rules : Ruleset) (context : Int) (source : Source) (chosen : List BuiltinFamily) :
    List.Forall₂ (Finding.Tells source) (chosen.map fun family => family.evaluate rules context source).flatten
      (chosen.flatMap fun family => family.causes rules source) := by
  induction chosen with
  | nil => exact .nil
  | cons family rest ih => exact List.rel_append (tells_evaluate rules context source family) ih

end BuiltinFamily

lemma Finding.titles_of_tells {source : Source} {findings : List Finding} {causes : List Cause}
    (told : List.Forall₂ (Finding.Tells source) findings causes) :
    findings.map (·.title) = causes.map (Cause.title source) := by
  induction told with
  | nil => rfl
  | cons tells _ ih => rw [List.map_cons, List.map_cons, tells.title, ih]

namespace Discovery

/-- True of a family that is asked for by its name, in any case; without names all families are. -/
def asks (enabled : Option (List String)) (family : BuiltinFamily) : Bool :=
  match enabled with
  | none => true
  | some names => names.any fun name => Text.lower name == family.name

lemma isEnabled_eq (enabled : Option (List String)) (family : BuiltinFamily) :
    isEnabled (enabled.map fun names => names.map Text.lower) family.name = asks enabled family := by
  cases enabled with
  | none => rfl
  | some names =>
    rw [Bool.eq_iff_iff]
    simp [isEnabled, asks]

/-- Names of built-in families find these families, in their own order. -/
lemma discover_builtins {rules : Ruleset} {context : Int} {enabled : Option (List String)}
    (known : ∀ names, enabled = some names → ∀ name ∈ names, ∃ family : BuiltinFamily, Text.lower name = family.name) :
    discover rules context enabled [] =
      .ok ((BuiltinFamily.all.filter (asks enabled)).map (·.toFamily rules context)) := by
  simp only [discover, List.foldlM_nil, pure, Except.pure, builtins, isEnabled_eq]
  rw [if_pos]
  cases enabled with
  | none => rfl
  | some names =>
    have found : ∀ key ∈ names.map Text.lower,
        key ∈ (BuiltinFamily.all.filter (asks (some names))).map BuiltinFamily.name := by
      intro key member
      obtain ⟨name, listed, rfl⟩ := List.mem_map.mp member
      obtain ⟨family, is⟩ := known names rfl name listed
      refine List.mem_map.mpr ⟨family, List.mem_filter.mpr ⟨?_, ?_⟩, is.symm⟩
      · cases family <;> decide
      · exact List.any_eq_true.mpr ⟨name, listed, beq_iff_eq.mpr is⟩
    have none : (names.map Text.lower).filter
        (fun key => !((BuiltinFamily.all.filter (asks (some names))).map BuiltinFamily.name).contains key) = [] := by
      rw [List.filter_eq_nil_iff]
      intro key member
      rw [List.contains_iff_mem.mpr (found key member)]
      decide
    simp only [Option.map_some, Option.getD_some, none]
    rfl

end Discovery

open BuiltinFamily in
/-- What a scan of a file finds, for every rule set and whichever built-in families are asked for: one finding for each
rule that fires, family by family in the order of their tables, and one for more than five hundred lines. Each finding
has the category and the severity of its rule and tells the number of matches. -/
theorem scans_report_what_fires (rules : Ruleset) (limits : Limits) (context : Int) {enabled : Option (List String)}
    (known : ∀ names, enabled = some names → ∀ name ∈ names, ∃ family : BuiltinFamily, Text.lower name = family.name)
    (path : String) (content : List Char) :
    ∃ families findings, Discovery.discover rules context enabled [] = .ok families ∧
      Engine.scanFile ⟨rules, limits, families⟩ path content = .ok findings ∧
      List.Forall₂ (Finding.Tells (.of path content)) findings
        (([secrets, security, stability, maintainability, largeFile].filter (Discovery.asks enabled)).flatMap
          fun family => family.causes rules (.of path content)) :=
  ⟨_, _, Discovery.discover_builtins known, scanFile_builtin rules limits _ path content,
    tells_flatten rules context (.of path content) _⟩

/-- Dangerous code once, and unstable code three times. -/
def sampleNoisy : List Char := "console.log(1); console.log(eval(2))\nconsole.log(3)".toList

open BuiltinFamily in
theorem scans_report_what_fires_noisy : ∃ families findings,
    Discovery.discover {} 2 (some ["Stability", "security", "large_file"]) [] = .ok families ∧
      Engine.scanFile ⟨{}, {}, families⟩ "a.js" sampleNoisy = .ok findings ∧
      findings.map (·.title) = ["Use of eval() in a.js", "Console.log in Production Code (3 occurrences in a.js)"] := by
  have known : ∀ names, some ["Stability", "security", "large_file"] = some names → ∀ name ∈ names,
      ∃ family : BuiltinFamily, Text.lower name = family.name := by
    rintro names ⟨⟩ name member
    simp only [List.mem_cons, List.not_mem_nil, or_false] at member
    rcases member with rfl | rfl | rfl
    · exact ⟨.stability, by decide +kernel⟩
    · exact ⟨.security, by decide +kernel⟩
    · exact ⟨.largeFile, by decide +kernel⟩
  obtain ⟨families, findings, discovers, scans, told⟩ := scans_report_what_fires {} {} 2 known "a.js" sampleNoisy
  refine ⟨families, findings, discovers, scans, ?_⟩
  rw [Finding.titles_of_tells told]
  decide +kernel

end RepoAudit
