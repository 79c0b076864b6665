import RepoAudit.Disk.Basic
import RepoAudit.Number.Reading
import RepoAudit.Settings.Basic
import RepoAudit.Yaml.Document

/-!
# Reading settings

Settings are read from a YAML file. What the file does not tell, or tells in a form that does not fit,
keeps its default; limits that are not positive do not fit. A token that the file does not give is taken
from the environment.
-/

namespace RepoAudit.Settings

/-- The name of the file of settings. -/
def fileName : String := ".codescope.yml"

/-- The environment variables that may hold a token, in the order in which they are asked. -/
def tokenVariables : List String := ["CODESCOPE_GITHUB_TOKEN", "GITHUB_TOKEN"]

/-- Environment variables. -/
abbrev Environment := List (String × String)

/-- Why settings cannot be read. -/
inductive Problem where
  /-- The file cannot be read from the disk. -/
  | disk (error : DiskError)
  /-- The file is no text. -/
  | undecodable (error : Utf8.Undecodable)
  /-- The file of the given name is not in order. -/
  | malformed (name : String)
  /-- A scalar has no value under its tag. -/
  | badScalar (fault : Yaml.Fault)
  /-- The document is no mapping. -/
  | notMapping
  /-- An integer is too long to be shown. -/
  | integerTooLong
  /-- An integer exceeds every floating-point number. -/
  | integerTooLarge
  /-- A path has a name that no file can have. -/
  | badName
  deriving DecidableEq, Repr

/-- The text of the failure. -/
def Problem.message : Problem → String
  | .disk error => error.message
  | .undecodable error => error.message
  | .malformed name => "Failed to parse " ++ name
  | .badScalar fault => fault.message
  | .notMapping => fileName ++ " must contain a mapping at the root"
  | .integerTooLong =>
    "Exceeds the limit (4300 digits) for integer string conversion; " ++
      "use sys.set_int_max_str_digits() to increase the limit"
  | .integerTooLarge => "int too large to convert to float"
  | .badName => "embedded null byte"

open Yaml (Value)

-- Powers are the core ones, also where an algebra library brings its own.
attribute [local instance (high)] instPowNat

/-- The text of an integer, which may not have too many digits. -/
def integerText (n : Int) : Except Problem String :=
  if 10 ^ Number.digitLimit ≤ n.natAbs then .error .integerTooLong else .ok (toString n)

/-- A scalar as a text. -/
def textOf : Value → Except Problem (Option String)
  | .text s => .ok (some s)
  | .bool b => .ok (some (if b then "True" else "False"))
  | .integer n => some <$> integerText n
  | .double x => .ok (some x.text)
  | _ => .ok none

/-- A text that is not empty, or else the alternative. -/
def textOr (alternative : String) (value : Value) : Except Problem String := do
  match ← textOf value with
  | some s => .ok (if s.isEmpty then alternative else s)
  | none => .ok alternative

/-- A number of seconds. -/
def secondsOf : Value → Except Problem (Option Double)
  | .integer n =>
    match Double.ofInt n with
    | .infinite _ => .error .integerTooLarge
    | x => .ok (some x)
  | .double x => .ok (some x)
  | .text s => .ok (Number.readDouble? s)
  | _ => .ok none

/-- A timeout, unless it is zero or less. -/
def timeoutOr (alternative : Timeout) (value : Value) : Except Problem Timeout := do
  match ← secondsOf value with
  | some x => .ok (if x.isZero || Double.lt x (Double.zero false) then alternative else .decimal x)
  | none => .ok alternative

/-- An integer. -/
def integerOf : Value → Option Int
  | .integer n => some n
  | .text s =>
    match Number.readInteger s with
    | .ok n => some n
    | .error _ => none
  | _ => none

/-- An integer that is at least `least`, or else the alternative. -/
def atLeast (least alternative : Int) (value : Value) : Int :=
  match integerOf value with
  | some n => if n < least then alternative else n
  | none => alternative

/-- A list of texts: what is no scalar is left out. -/
def textsOf : Value → Except Problem (List String)
  | .text s => .ok [s]
  | .list items => do return (← items.mapM textOf).filterMap id
  | .octets octets => .ok (octets.map fun b => toString b.toNat)
  | _ => .ok []

/-- The connection to the host. -/
def hostOf (fields : List (String × Value)) : Except Problem HostSettings := do
  let standard : HostSettings := {}
  let baseUrl ← textOr standard.baseUrl (Value.field fields "base_url")
  let token ← textOf (Value.field fields "token")
  let timeout ← timeoutOr standard.timeout (Value.field fields "request_timeout")
  let apiVersion ← textOr standard.apiVersion (Value.field fields "api_version")
  return { baseUrl := Text.dropEndChar '/' baseUrl, token, timeout, apiVersion }

/-- The limits of a scan. -/
def limitsOf (fields : List (String × Value)) : Limits :=
  let standard : Limits := {}
  let positive (name : String) (alternative : Int) := atLeast 1 alternative (Value.field fields name)
  { maxFiles := positive "max_files" standard.maxFiles
    maxFileSize := positive "max_file_size" standard.maxFileSize
    snippetContext := atLeast 0 standard.snippetContext (Value.field fields "snippet_context")
    fetchWorkers := positive "fetch_workers" standard.fetchWorkers
    scanWorkers := positive "scan_workers" standard.scanWorkers }

/-- What is asked of the rules. -/
def rulesOf (fields : List (String × Value)) : Except Problem RuleSettings := do
  let disabled ← textsOf (Value.field fields "disabled")
  let allowlist ← textsOf (Value.field fields "secret_allowlist")
  let families ← textsOf (Value.field fields "families")
  return { disabled, allowlist, families := if families.isEmpty then none else some families }

/-- The path from the root. No name may hold the character of code zero. -/
def settled (current path : Path) : Except Problem Path :=
  if path.parts.any (·.contains (Char.ofNat 0)) then .error .badName
  else .ok (Path.resolve current path)

/-- The path of the file that keeps audits. -/
def storeOf (root : Path) (fields : List (String × Value)) : Except Problem (Option Path) := do
  match ← textOf (Value.field fields "path") with
  | some s => if s.isEmpty then return none else some <$> settled root (Path.read s)
  | none => return none

/-- The entries of a section; a section that is no mapping has none. -/
def sectionOf (fields : List (String × Value)) (name : String) : List (String × Value) :=
  (Value.field fields name).entries?.getD []

/-- The settings of a document; `root` is the directory of its file. -/
def ofValue (root : Path) (value : Value) : Except Problem Settings := do
  match value.entries? with
  | none => if value.isVoid then .ok { root } else .error .notMapping
  | some fields =>
    let host ← hostOf (sectionOf fields "github")
    let limits := limitsOf (sectionOf fields "limits")
    let rules ← rulesOf (sectionOf fields "rules")
    let store ← storeOf root (sectionOf fields "storage")
    return { root, host, limits, rules, store }

/-- The settings with a token from the environment when they have none. -/
def withToken (environment : Environment) (settings : Settings) : Settings :=
  if settings.host.token.any (!·.isEmpty) then settings
  else
    let values := tokenVariables.filterMap (environment.lookup ·)
    match (values.map Text.strip).find? (!·.isEmpty) with
    | some token => { settings with host := { settings.host with token := some token } }
    | none => settings

/-- Text whose lines end with a newline, or with a return with or without one. -/
def unifyLines : List Char → List Char
  | '\r' :: '\n' :: rest => '\n' :: unifyLines rest
  | '\r' :: rest => '\n' :: unifyLines rest
  | c :: rest => c :: unifyLines rest
  | [] => []

/-- The number of levels at which settings lie: the sections, their entries, and the items of lists. -/
def levels : Nat := 4

/-- The value of a file's text. A blank file has none. -/
def parse (name : String) (text : List Char) : Except Problem Value :=
  if text.all Text.isBlank then .ok .null
  else
    match Yaml.Document.ofText text with
    | .ok document => .ok (document.value levels)
    | .error .malformed => .error (.malformed name)
    | .error fault => .error (.badScalar fault)

/-- The value of a file. -/
def readFile (disk : Disk) (file : Path) : Except Problem Value := do
  let octets ← (disk.read file).mapError .disk
  let text ← (Utf8.decode octets).mapError .undecodable
  parse file.name (unifyLines text)

/-- The file of settings that a path stands for: the path itself when it ends like a YAML file, and
otherwise the standard file in or beside it. -/
def fileOf (disk : Disk) (path : Path) : Except Problem Path := do
  let file :=
    if ← (disk.isDirectory path).mapError .disk then path.child fileName
    else if path.ending == ".yml" || path.ending == ".yaml" then path
    else path.parent.child fileName
  settled disk.currentPath file

/-- Loads the settings that a path stands for; without a file there are the defaults. -/
def load (disk : Disk) (environment : Environment) (path : Path) : Except Problem Settings := do
  let file ← fileOf disk path
  let root := file.parent
  if ← (disk.exists? file).mapError .disk then
    return withToken environment (← ofValue root (← readFile disk file))
  else return withToken environment { root }

end RepoAudit.Settings
