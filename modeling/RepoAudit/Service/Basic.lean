import RepoAudit.Host.Reference
import RepoAudit.Scan.Assembly
import RepoAudit.Service.Resource
import RepoAudit.Service.View

/-!
# The service

The service answers requests about audits and findings. It puts its scanner together when a request first
needs it, and keeps it; a request that the scanner was not ready for is answered with the reason, and the
next one tries again.
-/

namespace RepoAudit

/-- A request: its path is decoded, and a body that is missing is empty. -/
structure Request where
  method : String
  path : String
  body : String := ""
  deriving DecidableEq, Repr

/-- The answer to a request. -/
structure Response where
  status : Nat
  body : Json := .null
  /-- Where to ask again. -/
  location : Option String := none
  deriving Repr

/-- A service: its scanner, or the ledger that the scanner will be put together over. -/
inductive Service where
  | running (scanner : Scanner)
  | waiting (ledger : Ledger) (assemble : Ledger → Except AssemblyError Scanner)

/-- The title of the service. -/
def Service.title : String := "CodeScope Service"

/-- The version of the service. -/
def Service.version : String := "0.1.0"

namespace Response

/-- An answer that says why there is nothing better. -/
def detail (status : Nat) (text : String) : Response := ⟨status, .object [("detail", .text text)], none⟩

/-- There is nothing at the path. -/
def notFound : Response := detail 404 "Not Found"

/-- The resource does not have the method. -/
def methodNotAllowed : Response := detail 405 "Method Not Allowed"

/-- The service failed. -/
def internal : Response := ⟨500, .text "Internal Server Error", none⟩

/-- There is no such audit. -/
def noAudit (id : String) : Response := detail 404 ("Audit " ++ id ++ " not found")

/-- There is no such finding. -/
def noFinding (id : String) : Response := detail 404 ("Finding " ++ id ++ " not found")

/-- A step to a part of a body. -/
def stepJson : PlaceStep → Json
  | .name name => .text name
  | .index index => .integer index

/-- An issue with a body: what is wrong, and where. -/
def issueJson (issue : Issue) : Json :=
  .array [.text issue.kind.name, .array (.text "body" :: issue.place.map stepJson)]

/-- A body that is not taken. -/
def issues (issues : List Issue) : Response := ⟨422, .array (issues.map issueJson), none⟩

end Response

/-- True of the failures that lie in what was asked for, or in what was kept. -/
def StoreError.isFault : StoreError → Bool
  | .noAudit _ => false
  | .noOrder _ => false
  | .nameInUse _ _ => false
  | .disk _ => false
  | .excessive (.tooDeep _) => false
  | _ => true

/-- True of the failures that lie in the settings, or in what was kept. -/
def AssemblyError.isFault : AssemblyError → Bool
  | .store error => error.isFault
  | .rules (.badPattern _ .tooManyRounds) => false
  | .rules _ => true
  | .families (.unknownFamilies _) => true
  | .families _ => false
  | .noWorkers => true

namespace Service

/-- A part of the answer to a request: it may end the answer early. -/
abbrev Handler := ExceptT Response (StateM Scanner)

/-- The failure of an operation on the store. -/
def storeFailure (error : StoreError) : Response :=
  if error.isFault then Response.detail 400 error.message else Response.internal

/-- An operation on the store; `failure` tells of its failure. -/
def onStoreOr {α : Type} (failure : StoreError → Response) (action : Ledger.Action α) :
    Handler α := do
  let (result, scanner) := (← get).onStore action
  set scanner
  match result with
  | .ok a => return a
  | .error error => throw (failure error)

/-- An operation on the store. -/
def onStore {α : Type} (action : Ledger.Action α) : Handler α := onStoreOr storeFailure action

/-- What is said of a record that does not fit its form. -/
def misfit (issues : List Issue) : Response :=
  Response.detail 400 (toString issues.length ++ " values do not fit")

/-- The view of a record. -/
def view (form : Form) (record : Json) : Handler Json :=
  match form.check record with
  | .ok shown => return shown
  | .error issues => throw (misfit issues)

/-- An answer with a record. -/
def shown (status : Nat) (form : Form) (record : Json) : Handler Response := do
  return ⟨status, ← view form record, none⟩

/-- An answer with records. -/
def shownAll (form : Form) (records : List Json) : Handler Response := do
  return ⟨200, .array (← records.mapM (view form)), none⟩

/-- An answer without a body. -/
def done : Response := ⟨204, .null, none⟩

/-- The audit of an id, which has to be there. -/
def requireAudit (id : String) : Handler AuditRecord := do
  match ← onStore (Ledger.getAudit id) with
  | some audit => return audit
  | none => throw (Response.noAudit id)

/-- The text of a field that a form has checked. -/
def textOf (value : Json) (name : String) : String := ((value.getD name).text?).getD ""

/-- Makes an audit. -/
def createAudit (body : Json) : Handler Response := do
  let address := textOf body "repo_url"
  match Reference.read address with
  | .error failure => throw (Response.detail 400 failure.message)
  | .ok reference =>
    let audit ← onStore (Ledger.createAudit reference.owner reference.name (Text.strip address))
    shown 201 .audit audit.toJson

/-- Drops an audit. -/
def deleteAudit (id : String) : Handler Response := do
  let conflict (error : StoreError) : Response :=
    if error.isFault then Response.detail 409 error.message else Response.internal
  if ← onStoreOr conflict (Ledger.deleteAudit id) then return done
  else throw (Response.noAudit id)

/-- The fields of a finding that an object gives. -/
def findingFields : Json → List (FindingField × Json)
  | .object members =>
    members.filterMap fun (name, value) => (FindingField.ofName? name).map (·, value)
  | _ => []

/-- A finding that a person enters. -/
def enteredFinding (body : Json) : FindingRecord :=
  let blank : FindingRecord := ⟨"", .null, .null, .null, .null, .null, .null, .null, .null, .null,
    .null, .null, .null, .text Handling.open.name, .bool false⟩
  blank.change (findingFields body)

/-- Makes a finding of an audit. -/
def createFinding (auditId : String) (body : Json) : Handler Response := do
  let _ ← requireAudit auditId
  let finding ← onStore (Ledger.createFinding auditId (enteredFinding body))
  shown 201 .finding finding.toJson

/-- Changes a finding. -/
def updateFinding (id : String) (body : Json) : Handler Response := do
  let changes := (findingFields body).filter fun change => !change.2.isNull
  match ← onStore (Ledger.updateFinding id changes) with
  | some finding => shown 200 .finding finding.toJson
  | none => throw (Response.noFinding id)

/-- Drops a finding. -/
def deleteFinding (id : String) : Handler Response := do
  if ← onStore (Ledger.deleteFinding id) then return done else throw (Response.noFinding id)

/-- Starts a scan. -/
def startScan (auditId : String) : Handler Response := do
  let _ ← requireAudit auditId
  let (result, scanner) := (← get).start auditId
  set scanner
  match result with
  | .error error => throw (storeFailure error)
  | .ok answer =>
    if answer.accepted then
      return ⟨202, .object [("accepted", .bool true), ("reason", .text answer.reason)], none⟩
    else throw (Response.detail 409 answer.reason)

/-- A body that has been read and not been checked; `none` when there is none. -/
abbrev RawBody := Option Json

/-- A body in a form. -/
def take (form : Form) : RawBody → Handler Json
  | none => throw (Response.issues [⟨.missing, []⟩])
  | some body =>
    match form.check body with
    | .ok body => return body
    | .error issues => throw (Response.issues issues)

/-- The form of the body that a method of a resource takes, if it takes one. -/
def bodyForm? : Resource → String → Option Form
  | .audits, "POST" => some .newAudit
  | .findings _, "POST" => some .newFinding
  | .finding _, "PATCH" => some .findingChanges
  | _, _ => none

/-- The answer of a resource to a method that it has. -/
def respond (resource : Resource) (method : String) (body : Json) : Handler Response := do
  match resource, method with
  | .audits, "POST" => createAudit body
  | .audits, _ => shownAll .audit ((← onStore Ledger.listAudits).map AuditRecord.toJson)
  | .audit id, "DELETE" => deleteAudit id
  | .audit id, _ => shown 200 .audit (← requireAudit id).toJson
  | .findings id, "POST" => createFinding id body
  | .findings id, _ =>
    let _ ← requireAudit id
    shownAll .finding ((← onStore (Ledger.listFindings id)).map FindingRecord.toJson)
  | .finding id, "DELETE" => deleteFinding id
  | .finding id, _ => updateFinding id body
  | .scan id, _ => startScan id
  | .scanStatus id, _ => shown 200 .scanStatus (← requireAudit id).toJson
  | .health, _ => return ⟨200, .object [("status", .text "ok")], none⟩

/-- Checks the body of a request and answers it. -/
def answer (resource : Resource) (method : String) (body : RawBody) : Handler Response := do
  match bodyForm? resource method with
  | some form => respond resource method (← take form body)
  | none => respond resource method .null

/-- A text without a byte order mark at its head. -/
def dropMark (text : String) : String :=
  match text.toList with
  | c :: rest => if c.toNat = 0xFEFF then String.ofList rest else text
  | [] => text

/-- Reads the body of a request; a body that is `null` is none. -/
def readBody (body : String) : Except Response RawBody :=
  if body.isEmpty then .ok none
  else
    match Json.read (dropMark body) with
    | .ok .null => .ok none
    | .ok value => .ok (some value)
    | .error (.malformed _ position) =>
      .error (Response.issues [⟨.malformed, [.index position]⟩])
    | .error _ => .error (Response.detail 400 "There was an error parsing the body")

/-- The scanner of a service, put together if it is not there yet. -/
def scanner (service : Service) : Except Response Scanner :=
  match service with
  | running scanner => .ok scanner
  | waiting ledger assemble =>
    (assemble ledger).mapError fun error =>
      if error.isFault then Response.detail 400 error.message else Response.internal

/-- Answers a request for a method that its resource has. -/
def serve (service : Service) (resource : Resource) (request : Request) : Response × Service :=
  let body :=
    if (bodyForm? resource request.method).isSome then readBody request.body else .ok none
  match resource, body with
  | .health, _ => (⟨200, .object [("status", .text "ok")], none⟩, service)
  | _, .error response => (response, service)
  | _, .ok body =>
    match service.scanner with
    | .error response => (response, service)
    | .ok scanner =>
      let (result, scanner) := (answer resource request.method body).run.run scanner
      match result with
      | .ok response => (response, .running scanner)
      | .error response => (response, .running scanner)

/-- Answers a request. -/
def handle (service : Service) (request : Request) : Response × Service :=
  match Resource.ofPath? request.path with
  | some resource =>
    if resource.methods.contains request.method then service.serve resource request
    else (Response.methodNotAllowed, service)
  | none =>
    match Resource.redirect? request.path with
    | some target => (⟨307, .null, some target⟩, service)
    | none => (Response.notFound, service)

end Service

end RepoAudit
