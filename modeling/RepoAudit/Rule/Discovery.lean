import RepoAudit.Rule.Family

/-!
# Discovery of families

The families of a scan are the built-in ones followed by those that plugins provide. A list of names
may narrow them; every name on it has to be provided by somebody. A plugin never replaces a family that
is there already.
-/

namespace RepoAudit.Discovery

/-- What a plugin turns out to be. -/
inductive Provided where
  /-- A maker of a family for a rule set and a number of lines of context. -/
  | factory (make : Ruleset → Int → Family)
  /-- A family. -/
  | family (ready : Family)
  /-- Nothing that is or makes a family. -/
  | unusable
  /-- Loading it fails. -/
  | broken (reason : String)

/-- A plugin under its registered name. -/
structure Plugin where
  name : String
  provided : Provided

/-- Why the families cannot be discovered. -/
inductive Failure where
  | loadFailed (name reason : String)
  | notAFamily
  | unknownFamilies (names : List String)
  deriving DecidableEq, Repr

/-- The text of a failure. -/
def Failure.message : Failure → String
  | .loadFailed name reason =>
    "Failed to load rule family entry point '" ++ name ++ "': " ++ reason
  | .notAFamily =>
    "Rule family entry point must be a RuleFamily or a factory(ruleset, context_lines)"
  | .unknownFamilies names => "Unknown rule families requested: " ++ Text.joinSorted names

/-- The families found so far, with the names that are taken. -/
structure Found where
  families : List Family
  taken : List String

/-- True when a name is asked for. -/
def isEnabled (enabled : Option (List String)) (key : String) : Bool :=
  match enabled with
  | none => true
  | some names => names.contains key

/-- Adds a family under its key unless it is not asked for or the key is taken. -/
def Found.add (found : Found) (enabled : Option (List String)) (key : String)
    (make : Except Failure Family) : Except Failure Found :=
  if !isEnabled enabled key || found.taken.contains key then .ok found
  else make.map fun family => ⟨found.families ++ [family], key :: found.taken⟩

/-- The built-in families that are asked for. -/
def builtins (rules : Ruleset) (context : Int) (enabled : Option (List String)) : Found :=
  let chosen := BuiltinFamily.all.filter fun family => isEnabled enabled family.name
  ⟨chosen.map (·.toFamily rules context), chosen.map (·.name)⟩

/-- The family that a loaded plugin provides. -/
def Provided.toFamily (rules : Ruleset) (context : Int) : Provided → Except Failure Family
  | .factory make => .ok (make rules context)
  | .family ready => .ok ready
  | .unusable => .error .notAFamily
  | .broken _ => .error .notAFamily

/-- Loads a plugin and adds its family. -/
def Found.addPlugin (rules : Ruleset) (context : Int) (enabled : Option (List String))
    (found : Found) (plugin : Plugin) : Except Failure Found :=
  match plugin.provided with
  | .broken reason => .error (.loadFailed plugin.name reason)
  | provided => found.add enabled (Text.lower plugin.name) (provided.toFamily rules context)

/-- The families of a scan: those of the names that are given, or all. -/
def discover (rules : Ruleset) (context : Int) (enabled : Option (List String))
    (plugins : List Plugin) : Except Failure (List Family) :=
  let enabled := enabled.map fun names => names.map Text.lower
  match plugins.foldlM (Found.addPlugin rules context enabled) (builtins rules context enabled) with
  | .error failure => .error failure
  | .ok found =>
    let missing := ((enabled.getD []).filter fun name => !found.taken.contains name).eraseDups
    if missing.isEmpty then .ok found.families else .error (.unknownFamilies missing)

end RepoAudit.Discovery
