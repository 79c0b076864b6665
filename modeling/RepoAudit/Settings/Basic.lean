import RepoAudit.Disk.Path
import RepoAudit.Number.Shortest
import RepoAudit.Rule.Ruleset

/-!
# Settings

What can be configured: the connection to the host, the limits of a scan, the rules, and where audits
are kept.
-/

namespace RepoAudit

/-- A number of seconds, kept as it was given. -/
inductive Timeout where
  | whole (seconds : Int)
  | decimal (seconds : Double)
  deriving DecidableEq, Repr

/-- The text of a timeout. -/
def Timeout.text : Timeout → String
  | .whole seconds => toString seconds
  | .decimal seconds => seconds.text

/-- The connection to the host. -/
structure HostSettings where
  baseUrl : String := "https://api.github.com"
  token : Option String := none
  timeout : Timeout := .decimal (Double.ofInt 15)
  apiVersion : String := "2022-11-28"
  deriving DecidableEq, Repr

/-- Bounds on the work of one scan. -/
structure Limits where
  maxFiles : Int := 80
  maxFileSize : Int := 200000
  snippetContext : Int := 2
  fetchWorkers : Int := 8
  scanWorkers : Int := 4
  deriving DecidableEq, Repr

/-- Everything that can be configured. -/
structure Settings where
  /-- The directory that paths in the settings start from. -/
  root : Path
  host : HostSettings := {}
  limits : Limits := {}
  rules : RuleSettings := {}
  /-- The file that keeps audits; without one they are kept in memory only. -/
  store : Option Path := none
  deriving DecidableEq, Repr

end RepoAudit
