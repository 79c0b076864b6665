import RepoAudit.Scan.Scanner
import RepoAudit.Settings.Basic

/-!
# Putting scanners together

A scanner is made from settings: first its store is opened, then its rules and families are found, and last
its executor is made.
-/

namespace RepoAudit

/-- Why a scanner cannot be put together. -/
inductive AssemblyError where
  | store (error : StoreError)
  | rules (error : Ruleset.BuildError)
  | families (error : Discovery.Failure)
  /-- There are no workers for scans. -/
  | noWorkers

/-- The text of the failure. -/
def AssemblyError.message : AssemblyError → String
  | store error => error.message
  | rules error => error.message
  | families error => error.message
  | noWorkers => Scan.noWorkers

/-- The engine of rules and limits. Families come from the built-in ones. -/
def Engine.build (rules : RuleSettings) (limits : Limits) : Except AssemblyError Engine := do
  let ruleset ← (Ruleset.build rules {}).mapError .rules
  let families ← (Discovery.discover ruleset limits.snippetContext rules.families []).mapError
    .families
  return ⟨ruleset, limits, families⟩

/-- The scanner of settings over a ledger, whose store is opened again. A given path for the store goes
before that of the settings. -/
def Scanner.assemble (settings : Settings) (store : Option Path) (host : SourceHost)
    (ledger : Ledger) : Except AssemblyError Scanner := do
  let path := store.or settings.store
  let (opened, ledger) := (Ledger.openStore path).run.run ledger
  opened.mapError .store
  let engine ← Engine.build settings.rules settings.limits
  if settings.limits.scanWorkers ≤ 0 then throw .noWorkers
  else return ⟨⟨ledger, host, {}⟩, engine, []⟩

end RepoAudit
