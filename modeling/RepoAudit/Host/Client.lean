import RepoAudit.Bytes.Base64
import RepoAudit.Host.Basic
import RepoAudit.Host.Request
import RepoAudit.Json.Reader

/-!
# Asking the host

The answers of the host as values: an answer is JSON, and what it says is taken where it has the right
form. Every way in which a question fails is a case of `Failure`.
-/

namespace RepoAudit.Host

/-- How a request went. -/
inductive Outcome where
  /-- The request succeeded. -/
  | answer (body : List UInt8)
  /-- The host refused the request; the body may be out of reach. -/
  | refusal (code : Int) (body : Option (List UInt8)) (reason : String)
  /-- The host was not reached. -/
  | unreachable (reason : String)
  | timedOut
  deriving Repr

/-- The kinds of answers whose form can be wrong. -/
inductive AnswerKind where
  | repository
  | languages
  | tree
  deriving DecidableEq, Repr

/-- The name of a kind. -/
def AnswerKind.name : AnswerKind → String
  | repository => "repository"
  | languages => "languages"
  | tree => "tree"

/-- Why a value is no count. -/
inductive CountError where
  | notNumber (kind : String)
  | badText (error : Number.IntegerError)
  | notFinite (error : Double.NotFinite)
  deriving DecidableEq, Repr

/-- The text of the failure. -/
def CountError.message : CountError → String
  | .notNumber kind =>
    "int() argument must be a string, a bytes-like object or a real number, not '" ++ kind ++ "'"
  | .badText error => error.message
  | .notFinite error => error.message

/-- Why a question has no answer. -/
inductive Failure where
  /-- There is nothing at the address. -/
  | notFound (address : String)
  | noRepository (owner name : String)
  | badAddress (error : BadAddress)
  | refused (code : Int) (detail : String)
  | unreachable (reason : String)
  | timedOut (timeout : Timeout)
  | notJson
  /-- The answer is JSON, but it is beyond what is read. -/
  | excessive (error : Json.ReadError)
  | unexpected (kind : AnswerKind)
  | badCount (error : CountError)
  /-- The type of an entry is a collection. -/
  | badEntryType (kind : String)
  | notAFile (path : String)
  | unsupportedEncoding (path : String) (encoding : Json)
  | badContent (path : String)
  deriving Repr

/-- The text of the failure. -/
def Failure.message : Failure → String
  | .notFound address => address
  | .noRepository owner name => "Repository " ++ owner ++ "/" ++ name ++ " not found"
  | .badAddress error => error.message
  | .refused code detail =>
    "GitHub request failed with status " ++ toString code ++ ": " ++ detail
  | .unreachable reason => "GitHub request failed: " ++ reason
  | .timedOut timeout => "GitHub request timed out after " ++ timeout.text ++ "s"
  | .notJson => "GitHub returned invalid JSON"
  | .excessive error => error.message
  | .unexpected kind => "GitHub returned an unexpected " ++ kind.name ++ " payload"
  | .badCount error => error.message
  | .badEntryType kind => "unhashable type: '" ++ kind ++ "'"
  | .notAFile path => path ++ " is not a file"
  | .unsupportedEncoding path encoding => path ++ " uses unsupported encoding " ++ encoding.literal
  | .badContent path => path ++ " has invalid base64 content"

/-- JSON, or that it is none. -/
def readJson (text : List Char) : Except Failure (Option Json) :=
  match Json.read (String.ofList text) with
  | .ok value => .ok (some value)
  | .error (.malformed _ _) => .ok none
  | .error error => .error (.excessive error)

/-- What a refusal says: the message in its body, or else the body, or else the reason. -/
def detailOf (body : Option (List UInt8)) (reason : String) : Except Failure String := do
  let text := Utf8.decodeSkipping (body.getD [])
  let message ←
    if text.isEmpty then .ok "" else do
      let payload ← readJson text
      .ok (((payload.getD .null).getD "message").text?.getD "")
  let stripped := String.ofList (Text.stripChars text)
  return if !message.isEmpty then message else if !stripped.isEmpty then stripped else reason

/-- The JSON of an outcome; `address` is what was asked for, within `timeout`. -/
def Outcome.json (address : String) (timeout : Timeout) : Outcome → Except Failure Json
  | .answer body =>
    match Utf8.decode body with
    | .error _ => .error .notJson
    | .ok text => do
      match ← readJson text with
      | some value => .ok value
      | none => .error .notJson
  | .refusal code body reason =>
    if code = 404 then .error (.notFound address)
    else do .error (.refused code (← detailOf body reason))
  | .unreachable reason => .error (.unreachable reason)
  | .timedOut => .error (.timedOut timeout)

/-- A value as a count: a number without its fraction, or the text of an integer. -/
def countOf : Json → Except CountError Int
  | .integer n => .ok n
  | .bool b => .ok (if b then 1 else 0)
  | .double x => x.truncate.mapError .notFinite
  | .text s => (Number.readInteger s).mapError .badText
  | value => .error (.notNumber value.kindName)

/-- A member as a count; without a value it is zero. -/
def countAt (name : String) (value : Json) : Except Failure Int :=
  (countOf ((value.getD name).orElse (.integer 0))).mapError .badCount

/-- A member as a text; without a value it is the alternative. -/
def textAt (name alternative : String) (value : Json) : String :=
  ((value.getD name).orElse (.text alternative)).display

/-- What an answer tells about a repository. -/
def snapshotOf (value : Json) : Except Failure Snapshot :=
  match value with
  | .object _ => do
    let stars ← countAt "stargazers_count" value
    let forks ← countAt "forks_count" value
    let openIssues ← countAt "open_issues_count" value
    let size ← countAt "size" value
    return {
      stars, forks, openIssues, size
      defaultBranch := textAt "default_branch" "main" value
      lastPush := textAt "pushed_at" "" value
      isPrivate := (value.getD "private").isTruthy
      description := (value.getD "description").text? }
  | _ => .error (.unexpected .repository)

/-- An integer, for which a truth value may stand. -/
def integer? : Json → Option Int
  | .integer n => some n
  | .bool b => some (if b then 1 else 0)
  | _ => none

/-- The bytes in each language; members that are no integers do not count. -/
def languagesOf : Json → Except Failure (List (String × Int))
  | .object members => .ok (members.filterMap fun (name, value) => (integer? value).map (name, ·))
  | _ => .error (.unexpected .languages)

/-- The size of an entry. -/
def sizeOf : Json → Option FileSize
  | .integer n => some (.bytes n)
  | .bool b => some (.flag b)
  | _ => none

/-- An entry of a tree; what is neither a file nor a directory is left out. -/
def entryOf (item : Json) : Except Failure (Option TreeEntry) :=
  match item with
  | .object _ =>
    let entry (kind : String) : TreeEntry :=
      ⟨textAt "path" "" item, kind, sizeOf (item.getD "size")⟩
    match item.getD "type" with
    | .text "blob" => .ok (some (entry "file"))
    | .text "tree" => .ok (some (entry "dir"))
    | .array items => .error (.badEntryType (Json.array items).kindName)
    | .object members => .error (.badEntryType (Json.object members).kindName)
    | _ => .ok none
  | _ => .ok none

/-- The entries of a tree. -/
def treeOf (value : Json) : Except Failure (List TreeEntry) :=
  match value.getD "tree" with
  | .array items => do return (← items.mapM entryOf).filterMap id
  | _ => .error (.unexpected .tree)

/-- The text of a file, which is sent in base 64. -/
def contentOf (path : String) (value : Json) : Except Failure String :=
  match value.get? "content" with
  | none => .error (.notAFile path)
  | some content =>
    let encoding := value.getD "encoding"
    if !encoding.isText "base64" then .error (.unsupportedEncoding path encoding)
    else
      match Base64.decode content.display.toList with
      | .error _ => .error (.badContent path)
      | .ok octets => .ok (String.ofList (Utf8.decodeReplacing octets))

/-- A client of the host: its settings, and what comes of a request. -/
structure Client where
  settings : HostSettings
  send : Request → Outcome

namespace Client

/-- The JSON that answers a question. -/
def ask (client : Client) (question : Question) : Except Failure Json := do
  let request ← (Request.of client.settings question).mapError .badAddress
  (client.send request).json (addressOf client.settings question) client.settings.timeout

/-- What is known about a repository. -/
def repository (client : Client) (owner name : String) : Except Failure Snapshot :=
  match client.ask (.repository owner name) with
  | .error (.notFound _) => .error (.noRepository owner name)
  | .error failure => .error failure
  | .ok value => snapshotOf value

/-- The bytes in each language. -/
def languages (client : Client) (owner name : String) : Except Failure (List (String × Int)) := do
  languagesOf (← client.ask (.languages owner name))

/-- The tree at a reference. -/
def tree (client : Client) (owner name ref : String) : Except Failure (List TreeEntry) := do
  treeOf (← client.ask (.tree owner name ref))

/-- The text of a file. -/
def file (client : Client) (owner name path : String) : Except Failure String := do
  contentOf path (← client.ask (.file owner name path))

/-- The client as a host. -/
def host (client : Client) : SourceHost where
  name := "GitHub API"
  repository owner name := (client.repository owner name).mapError Failure.message
  languages owner name := (client.languages owner name).mapError Failure.message
  tree owner name ref := (client.tree owner name ref).mapError Failure.message
  file owner name path := (client.file owner name path).mapError Failure.message

end Client

end RepoAudit.Host
