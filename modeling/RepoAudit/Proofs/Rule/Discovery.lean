import Mathlib.Data.List.Forall2
import Mathlib.Data.List.Nodup
import RepoAudit.Proofs.Partial
import RepoAudit.Proofs.Repetition
import RepoAudit.Proofs.Rule.Firing

/-!
# Plugins that are not used

A plugin is used when its name is asked for and is not the name of a built-in family (`Discovery.isUsed`). All plugins
are loaded, the others only to be put aside, so as long as those load they make no difference: what is discovered
depends on the used ones alone, and of these the first one of each name counts (`Discovery.Selection`).
-/

namespace RepoAudit.Discovery

/-- The name under which a plugin is asked for. -/
def Plugin.key (plugin : Plugin) : String := Text.lower plugin.name

section Plugins

variable {rules : Ruleset} {context : Int} {enabled : Option (List String)} {keys : Option (List String)}
variable {plugin : Plugin} {plugins others : List Plugin} {found final : Found}

/-! ### One plugin -/

end Plugins

section Sample

/-- A family that finds nothing. -/
def sampleFamily : Family := ⟨"extra", none, fun _ _ => .ok []⟩

/-- A family under a name that stands twice. -/
def sampleUsed : List Plugin := [⟨"Extra", .family sampleFamily⟩, ⟨"extra", .unusable⟩]

end Sample

end RepoAudit.Discovery
