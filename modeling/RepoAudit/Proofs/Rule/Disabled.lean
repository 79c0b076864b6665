import RepoAudit.Proofs.Rule.Title

/-!
# Rules that are left out

The settings name rules to leave out; how the names are written and in which order makes no difference
(`Ruleset.build_ok`). The finding for a rule depends on the file and on the allowed values only, so a scan without some
rules finds what a scan with all of them finds, less the findings of these rules
(`BuiltinFamily.evaluate_leaving`). That a finding is of one rule only follows from its title, which opens with the
name of the rule.
-/

namespace RepoAudit

namespace Ruleset

/-- The catalog without the rules of some names, with values that are no secrets. -/
def leaving (names : List String) (allowed : List Pattern) : Ruleset where
  secrets := without names Catalog.secrets
  security := without names Catalog.security
  stability := without names Catalog.stability
  maintainability := without names Catalog.maintainability
  allowlist := allowed

variable {settings : RuleSettings} {allowed : List Pattern} {names : List String}

lemma mem_normalNames {key : String} : key ∈ normalNames names ↔
    ∃ name ∈ names, Text.isBlankText name = false ∧ Text.lower (Text.strip name) = key := by
  simp only [normalNames, List.mem_map, List.mem_filter, Bool.not_eq_true', and_assoc]

lemma exists_readAllowlist {texts : List String} (valid : ∀ text ∈ texts, ∃ pattern, Pattern.read text = .ok pattern) :
    ∃ allowed, readAllowlist texts = .ok allowed := by
  induction texts with
  | nil => exact ⟨[], rfl⟩
  | cons text texts ih =>
    obtain ⟨pattern, first⟩ := valid text List.mem_cons_self
    obtain ⟨rest, others⟩ := ih fun other member => valid other (.tail _ member)
    refine ⟨pattern :: rest, ?_⟩
    rw [readAllowlist, first]
    show Except.map (pattern :: ·) (readAllowlist texts) = _
    rw [others]
    rfl

/-- A rule set is derived when each name is that of a rule. -/
lemma build_ok (allows : readAllowlist settings.allowlist = .ok allowed)
    (known : ∀ name ∈ normalNames settings.disabled, name ∈ ({} : Ruleset).ruleNames.map Text.lower) :
    build settings {} = .ok (leaving (normalNames settings.disabled) allowed) := by
  have none : (normalNames settings.disabled).filter
      (fun name => !(({} : Ruleset).ruleNames.map Text.lower).contains name) = [] := by
    rw [List.filter_eq_nil_iff]
    intro name member
    rw [List.contains_iff_mem.mpr (known name member)]
    decide
  simp only [build, none, allows]
  rfl

lemma build_unknown {name : String} (asked : name ∈ normalNames settings.disabled)
    (unknown : name ∉ ({} : Ruleset).ruleNames.map Text.lower) :
    ∃ names, build settings {} = .error (.unknownRules names) := by
  have found : name ∈ ((normalNames settings.disabled).filter
      fun name => !(({} : Ruleset).ruleNames.map Text.lower).contains name).eraseDups := by
    rw [List.mem_eraseDups, List.mem_filter]
    refine ⟨asked, ?_⟩
    rw [Bool.not_eq_true', ← Bool.not_eq_true, List.contains_iff_mem]
    exact unknown
  refine ⟨_, if_neg ?_⟩
  rw [List.isEmpty_iff]
  exact List.ne_nil_of_mem found

/-- True of a name to leave out that no rule has. -/
def IsUnknown (name : String) : Prop :=
  Text.isBlankText name = false ∧ Text.lower (Text.strip name) ∉ ({} : Ruleset).ruleNames.map Text.lower

/-- Deriving a rule set fails at an unknown name, and with readable patterns it fails at nothing else. -/
lemma build_cases (allows : readAllowlist settings.allowlist = .ok allowed) :
    (¬ ∃ name ∈ settings.disabled, IsUnknown name) ∧
        build settings {} = .ok (leaving (normalNames settings.disabled) allowed) ∨
      (∃ name ∈ settings.disabled, IsUnknown name) ∧ ∃ names, build settings {} = .error (.unknownRules names) := by
  by_cases unknown : ∃ name ∈ settings.disabled, IsUnknown name
  · refine .inr ⟨unknown, ?_⟩
    obtain ⟨name, listed, filled, strange⟩ := unknown
    exact build_unknown (mem_normalNames.mpr ⟨name, listed, filled, rfl⟩) strange
  · refine .inl ⟨unknown, build_ok allows fun key asked => ?_⟩
    obtain ⟨name, listed, filled, rfl⟩ := mem_normalNames.mp asked
    by_contra strange
    exact unknown ⟨name, listed, filled, strange⟩

/-- Names stand for the same rules in every order and as often as they are given. -/
lemma leaving_congr {names' : List String} (same : ∀ name, name ∈ names' ↔ name ∈ names) :
    leaving names' allowed = leaving names allowed := by
  have contains (name : String) : names'.contains name = names.contains name := by
    rw [Bool.eq_iff_iff, List.contains_iff_mem, List.contains_iff_mem, same]
  simp only [leaving, without, contains]

end Ruleset

/-- The names of the catalog are not the starts of one another, nor of the title that long files have. -/
lemma Catalog.names_apart : ∀ rule ∈ ({} : Ruleset).allRules, Apart rule.name.toList "Large File: ".toList ∧
    ∀ other ∈ ({} : Ruleset).allRules, rule.name = other.name ∨ Apart rule.name.toList other.name.toList := by
  decide +kernel

/-- The finding is the one for a rule of which the name is among the given ones, in lower case. -/
def Finding.IsOf (names : List String) (rules : Ruleset) (context : Int) (source : Source)
    (chosen : List BuiltinFamily) (finding : Finding) : Prop :=
  ∃ family ∈ chosen, ∃ rule ∈ family.table rules,
    Text.lower rule.name ∈ names ∧ family.findingFor rules context source rule = some finding

instance (names : List String) (rules : Ruleset) (context : Int) (source : Source) (chosen : List BuiltinFamily) :
    DecidablePred (Finding.IsOf names rules context source chosen) := fun finding =>
  inferInstanceAs (Decidable (∃ family ∈ chosen, ∃ rule ∈ family.table rules,
    Text.lower rule.name ∈ names ∧ family.findingFor rules context source rule = some finding))

namespace BuiltinFamily

open Ruleset (leaving without)

variable {names : List String} {allowed : List Pattern} {context : Int} {source : Source}
  {chosen : List BuiltinFamily} {family : BuiltinFamily} {rule : Rule} {finding : Finding}

lemma table_leaving (names : List String) (allowed : List Pattern) (family : BuiltinFamily) :
    family.table (leaving names allowed) = without names (family.table {}) := by
  cases family with
  | _ => rfl

lemma table_leaving_nil (allowed : List Pattern) (family : BuiltinFamily) :
    family.table (leaving [] allowed) = family.table {} := by
  rw [table_leaving]
  exact List.filter_eq_self.mpr fun _ _ => rfl

/-- The finding for a rule does not depend on which other rules there are. -/
lemma findingFor_leaving (names : List String) (allowed : List Pattern) (context : Int) (source : Source)
    (family : BuiltinFamily) : family.findingFor (leaving names allowed) context source =
      family.findingFor (leaving [] allowed) context source := by
  cases family with
  | _ => rfl

lemma opensWith_name {rules : Ruleset} (fires : family.findingFor rules context source rule = some finding) :
    finding.OpensWith rule.name.toList :=
  (List.prefix_append _ _).trans (opensWith_of_findingFor fires)

/-- A finding is of a rule that is left out just when its own rule is. -/
lemma isOf_iff (isChosen : family ∈ chosen) (listed : rule ∈ family.table {})
    (fires : family.findingFor (leaving [] allowed) context source rule = some finding) :
    finding.IsOf names (leaving [] allowed) context source chosen ↔ Text.lower rule.name ∈ names := by
  constructor
  · -- The finding may be that of another rule as well, but then its title opens with both names.
    rintro ⟨family', -, rule', listed', asked, fires'⟩
    rw [table_leaving_nil] at listed'
    rcases (Catalog.names_apart rule (mem_allRules listed)).2 rule' (mem_allRules listed') with same | apart
    · exact same ▸ asked
    · exact absurd rfl ((opensWith_name fires).ne (opensWith_name fires') apart)
  · intro asked
    rw [← table_leaving_nil allowed] at listed
    exact ⟨family, isChosen, rule, listed, asked, fires⟩

lemma not_isOf_aboutLength (about : finding ∈ family.aboutLength source) :
    ¬ finding.IsOf names (leaving [] allowed) context source chosen := by
  rintro ⟨family', -, rule, listed, -, fires⟩
  rw [table_leaving_nil] at listed
  obtain rfl := eq_lengthReport about
  have apart := (Catalog.names_apart rule (mem_allRules listed)).1
  exact (opensWith_name fires).ne (opensWith_lengthReport source) apart rfl

/-- A family without some rules finds what it finds with them, less their findings. -/
lemma evaluate_leaving (names : List String) (allowed : List Pattern) (context : Int) (source : Source)
    (isChosen : family ∈ chosen) : family.evaluate (leaving names allowed) context source =
      (family.evaluate (leaving [] allowed) context source).filter fun finding =>
        ¬ finding.IsOf names (leaving [] allowed) context source chosen := by
  rw [evaluate_eq, evaluate_eq, List.filter_append, table_leaving, table_leaving_nil, findingFor_leaving]
  congr 1
  · rw [without, List.filterMap_filter, List.filter_filterMap]
    apply List.filterMap_congr
    intro rule listed
    cases fires : family.findingFor (leaving [] allowed) context source rule with
    | none => simp
    | some finding => simp [Option.filter, isOf_iff isChosen listed fires]
  · refine (List.filter_eq_self.mpr fun finding about => ?_).symm
    exact decide_eq_true (not_isOf_aboutLength about)

end BuiltinFamily

open Ruleset in
/-- Leaving out rules removes just their findings. For all names and readable patterns, deriving the rule set fails when
one of the names is unknown, and otherwise a scan of any file finds what it finds without names, less the findings of
the rules that are left out. How the names are written, their order and their repetitions make no difference. -/
theorem disabled_rules_lose_their_findings (settings : RuleSettings)
    (valid : ∀ text ∈ settings.allowlist, ∃ pattern, Pattern.read text = .ok pattern) :
    ((∃ error, build settings {} = .error error) ↔ ∃ name ∈ settings.disabled, IsUnknown name) ∧
      (∀ error, build settings {} = .error error → ∃ names, error = .unknownRules names) ∧
      ∀ rules, build settings {} = .ok rules →
        (∀ disabled, (∀ name, name ∈ normalNames disabled ↔ name ∈ normalNames settings.disabled) →
          build { settings with disabled := disabled } {} = .ok rules) ∧
        ∃ full, build { settings with disabled := [] } {} = .ok full ∧
          ∀ (limits : Limits) (context : Int) (chosen : List BuiltinFamily) (path : String) (content : List Char),
            ∃ findings,
              Engine.scanFile ⟨full, limits, chosen.map (·.toFamily full context)⟩ path content = .ok findings ∧
              Engine.scanFile ⟨rules, limits, chosen.map (·.toFamily rules context)⟩ path content =
                .ok (findings.filter fun finding =>
                  ¬ finding.IsOf (normalNames settings.disabled) full context (.of path content) chosen) := by
  obtain ⟨allowed, allows⟩ := exists_readAllowlist valid
  rcases build_cases allows with ⟨known, builds⟩ | ⟨unknown, names, fails⟩
  · rw [builds]
    refine ⟨⟨nofun, fun unknown => absurd unknown known⟩, nofun, ?_⟩
    rintro rules ⟨⟩
    refine ⟨fun disabled same => ?_, leaving [] allowed, build_ok allows nofun, ?_⟩
    · rw [← leaving_congr same]
      refine build_ok allows fun key asked => ?_
      obtain ⟨name, listed, filled, rfl⟩ := mem_normalNames.mp ((same key).mp asked)
      by_contra strange
      exact known ⟨name, listed, filled, strange⟩
    · intro limits context chosen path content
      refine ⟨_, BuiltinFamily.scanFile_builtin _ limits chosen path content, ?_⟩
      rw [BuiltinFamily.scanFile_builtin, List.filter_flatten, List.map_map]
      congr 2
      exact List.map_congr_left fun family isChosen => BuiltinFamily.evaluate_leaving _ allowed context _ isChosen
  · rw [fails]
    refine ⟨⟨fun _ => unknown, fun _ => ⟨_, rfl⟩⟩, ?_, nofun⟩
    rintro error ⟨⟩
    exact ⟨names, rfl⟩

def sampleUnsafe : List Char := "eval(dangerouslySetInnerHTML)".toList

/-- A rule that is left out twice, in other letters and between blanks. -/
def sampleChoice : RuleSettings := { disabled := ["  USE of Eval() ", " ", "use of eval()"], allowlist := ["EXAMPLE"] }

open BuiltinFamily in
theorem disabled_rules_lose_their_findings_eval : ∃ rules full findings kept,
    Ruleset.build sampleChoice {} = .ok rules ∧ Ruleset.build { sampleChoice with disabled := [] } {} = .ok full ∧
      Engine.scanFile ⟨full, {}, [security].map (·.toFamily full 2)⟩ "a.js" sampleUnsafe = .ok findings ∧
      findings.map (·.title) = ["Use of eval() in a.js", "dangerouslySetInnerHTML Usage in a.js"] ∧
      Engine.scanFile ⟨rules, {}, [security].map (·.toFamily rules 2)⟩ "a.js" sampleUnsafe = .ok kept ∧
      kept.map (·.title) = ["dangerouslySetInnerHTML Usage in a.js"] ∧
      kept = findings.filter fun finding => ¬ finding.IsOf (Ruleset.normalNames sampleChoice.disabled) full 2
        (.of "a.js" sampleUnsafe) [security] := by
  have valid : ∀ text ∈ sampleChoice.allowlist, ∃ pattern, Pattern.read text = .ok pattern := by
    intro text listed
    obtain rfl := List.mem_singleton.mp listed
    have readable : (Pattern.read "EXAMPLE").isOk = true := by decide +kernel
    cases reads : Pattern.read "EXAMPLE" with
    | ok pattern => exact ⟨pattern, rfl⟩
    | error error =>
      rw [reads] at readable
      cases readable
  let titles (rules : Ruleset) : List String :=
    ([security].map fun family => family.evaluate rules 2 (.of "a.js" sampleUnsafe)).flatten.map (·.title)
  have all : (Ruleset.build { sampleChoice with disabled := [] } {}).toOption.map titles =
      some ["Use of eval() in a.js", "dangerouslySetInnerHTML Usage in a.js"] := by decide +kernel
  have few : (Ruleset.build sampleChoice {}).toOption.map titles =
      some ["dangerouslySetInnerHTML Usage in a.js"] := by decide +kernel
  obtain ⟨-, -, derives⟩ := disabled_rules_lose_their_findings sampleChoice valid
  cases builds : Ruleset.build sampleChoice {} with
  | error error =>
    rw [builds] at few
    cases few
  | ok rules =>
    obtain ⟨-, full, builds', scans⟩ := derives rules builds
    obtain ⟨findings, scans, scans'⟩ := scans {} 2 [security] "a.js" sampleUnsafe
    rw [builds] at few
    rw [builds'] at all
    refine ⟨rules, full, findings, _, rfl, builds', scans, ?_, scans', ?_, rfl⟩
    · rw [scanFile_builtin] at scans
      obtain rfl := Except.ok.inj scans
      exact Option.some.inj all
    · rw [scanFile_builtin] at scans'
      rw [← Except.ok.inj scans']
      exact Option.some.inj few

end RepoAudit
