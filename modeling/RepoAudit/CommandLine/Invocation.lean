import RepoAudit.CommandLine.Usage
import RepoAudit.Disk.Path

/-!
# Invocations

The commands of the program and their arguments: one scans a repository and reports, the other serves
requests.
-/

namespace RepoAudit.CommandLine

/-- A scan of one repository. -/
structure ScanCommand where
  repository : String
  config : Path
  /-- The file that keeps audits. -/
  store : Option Path := none
  /-- The file that the report is written to. -/
  output : Option Path := none
  deriving DecidableEq, Repr

/-- The service. -/
structure ServeCommand where
  host : String
  port : Int
  config : Path
  deriving DecidableEq, Repr

/-- A command. -/
inductive Command where
  | scan (command : ScanCommand)
  | serve (command : ServeCommand)
  deriving DecidableEq, Repr

/-- The settings file of a command, or its directory. -/
def Command.config : Command → Path
  | scan command => command.config
  | serve command => command.config

/-- An invocation of the program. -/
structure Invocation where
  verbose : Bool
  logFile : Option Path
  command : Command
  deriving DecidableEq, Repr

namespace Invocation

/-- The option that asks for help. -/
def help : OptionSpec := ⟨["-h", "--help"], .help⟩

/-- The option that asks for more messages. -/
def verboseOption : OptionSpec := ⟨["-v", "--verbose"], .flag⟩

/-- An option that takes a text. -/
def textOption (name : String) : OptionSpec := ⟨[name], .text⟩

/-- The name of the program. -/
def program : String := "codescope"

/-- What the program takes. -/
def usage : Usage where
  program := program
  options := [help, verboseOption, textOption "--log-file"]
  operand := .command "command" ["scan", "serve"]

/-- What a scan takes. -/
def scanUsage : Usage where
  program := program ++ " scan"
  options := [help, verboseOption, textOption "--config", textOption "--store", textOption "--output"]
  operand := .single "repository"

/-- What the service takes. -/
def serveUsage : Usage where
  program := program ++ " serve"
  options := [help, verboseOption, textOption "--host", ⟨["--port"], .integer⟩, textOption "--config"]

/-- The interface that the service listens at. -/
def defaultHost : String := "127.0.0.1"

/-- The port that the service listens at. -/
def defaultPort : Int := 8000

/-- The path that is given for an option. -/
def path? (taken : Taken) (key : String) : Option Path := (taken.text? key).map Path.read

/-- The settings file that is given, or the current directory. -/
def configOf (taken : Taken) : Path := (path? taken "--config").getD ⟨false, []⟩

/-- The scan of arguments. -/
def scanOf (taken : Taken) : Command :=
  .scan ⟨(taken.operands.getD []).headD "", configOf taken, path? taken "--store",
    path? taken "--output"⟩

/-- The service of arguments. -/
def serveOf (taken : Taken) : Command :=
  .serve ⟨(taken.text? "--host").getD defaultHost, (taken.integer? "--port").getD defaultPort,
    configOf taken⟩

/-- The usage of a command, and how it is made of arguments. -/
def commandOf (name : String) : Usage × (Taken → Command) :=
  if name == "scan" then (scanUsage, scanOf) else (serveUsage, serveOf)

/-- Reads the arguments of the program. What neither the program nor the command takes is refused last. -/
def read (arguments : List String) : Except Stop Invocation := do
  let taken ← usage.take arguments
  let operands := taken.operands.getD []
  let (inner, make) := commandOf (operands.headD "")
  let own ← inner.take operands.tail
  let extras := taken.extras ++ own.extras
  if extras.isEmpty then
    return ⟨taken.has verboseOption.key || own.has verboseOption.key, path? taken "--log-file",
      make own⟩
  else usage.fail (.unrecognized extras)

end Invocation

end RepoAudit.CommandLine
