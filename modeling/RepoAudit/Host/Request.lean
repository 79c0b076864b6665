import RepoAudit.Bytes.Percent
import RepoAudit.Settings.Basic

/-!
# Requests

Each question to the host is one request for an address: the base address, the fixed names of the
question, and one percent-encoded segment for each argument. The path of a file keeps its slashes.
-/

namespace RepoAudit.Host

/-- A question to the host. -/
inductive Question where
  | repository (owner name : String)
  | languages (owner name : String)
  | tree (owner name ref : String)
  | file (owner name path : String)
  deriving DecidableEq, Repr

/-- The part of an address that names a repository. -/
def repositoryPath (owner name : String) : String :=
  "/repos/" ++ Percent.segment owner ++ "/" ++ Percent.segment name

/-- The part of an address after the base. -/
def Question.path : Question → String
  | .repository owner name => repositoryPath owner name
  | .languages owner name => repositoryPath owner name ++ "/languages"
  | .tree owner name ref =>
    repositoryPath owner name ++ "/git/trees/" ++ Percent.segment ref ++ "?recursive=1"
  | .file owner name path =>
    repositoryPath owner name ++ "/contents/" ++ Percent.path (path.toList.dropWhile (· == '/'))

/-- The base address without slashes at its end. -/
def baseAddress (settings : HostSettings) : String := Text.dropEndChar '/' settings.baseUrl

/-- The address of a question. -/
def addressOf (settings : HostSettings) (question : Question) : String :=
  baseAddress settings ++ question.path

/-- A request: its address and its headers, whose names are in lower case. -/
structure Request where
  address : String
  headers : List (String × String)
  timeout : Timeout
  deriving DecidableEq, Repr

/-- The headers of every request. -/
def headersOf (settings : HostSettings) : List (String × String) :=
  let standard := [("accept", "application/vnd.github+json"), ("user-agent", "codescope-scanner"),
    ("x-github-api-version", settings.apiVersion)]
  match settings.token with
  | some token => if token.isEmpty then standard else standard ++ [("authorization", "Bearer " ++ token)]
  | none => standard

/-- The address without blanks before it and without a mark that says that it is one. -/
def unmark (address : String) : String :=
  let chars := Text.stripChars address.toList
  let mark := "URL:".toList
  String.ofList (if mark.isPrefixOf chars then Text.stripChars (chars.drop mark.length) else chars)

/-- True when a name and a colon stand before every slash of an address. -/
def hasScheme (address : String) : Bool :=
  let chars := address.toList
  let name := chars.takeWhile fun c => c != '/' && c != ':'
  !name.isEmpty && chars[name.length]? == some ':'

/-- An address that no request can be made to. -/
structure BadAddress where
  address : String
  deriving DecidableEq, Repr

/-- The text of the failure. -/
def BadAddress.message (e : BadAddress) : String := "unknown url type: " ++ Text.quoted e.address

/-- The request that asks a question. -/
def Request.of (settings : HostSettings) (question : Question) : Except BadAddress Request :=
  let address := unmark (addressOf settings question)
  if hasScheme address then .ok ⟨address, headersOf settings, settings.timeout⟩
  else .error ⟨address⟩

end RepoAudit.Host
