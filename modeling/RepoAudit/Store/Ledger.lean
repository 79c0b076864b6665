import RepoAudit.Clock
import RepoAudit.Disk.Basic
import RepoAudit.Json.Reader
import RepoAudit.Json.Writer
import RepoAudit.Store.Basic
import RepoAudit.Store.Order
import RepoAudit.Summary

/-!
# Operations on a store

Every change is made in memory and then written to the store's file: beside it first, and then in its
place in one step. A write that fails is reported, and the change in memory stands. Ids are drawn from a
source, one for each record that is made or asked to be made.
-/

namespace RepoAudit

/-- A store with what its operations need: the disk, the time, and the source of ids. -/
structure Ledger where
  store : Store := {}
  disk : Disk := {}
  now : Instant
  ids : Nat → String
  /-- The number of ids drawn. -/
  drawn : Nat := 0

/-- Why an operation on a store fails. -/
inductive StoreError where
  | unknownAuditFields (names : List String)
  | unknownFindingFields (names : List String)
  | unknownHandling (status : Json)
  /-- A change has a name that the operation has in use for what it is given itself. -/
  | nameInUse (operation name : String)
  | scanInProgress (auditId : String)
  | noAudit (auditId : String)
  | noOrder (error : Incomparable)
  | disk (error : DiskError)
  /-- The path of the store's file has no name. -/
  | noName (path : Path)
  /-- An integer of a record has more digits than are written. -/
  | unwritable
  | undecodable (error : Utf8.Undecodable)
  /-- The store's file is JSON, but it is beyond what is read. -/
  | excessive (error : Json.ReadError)
  deriving Repr

namespace StoreError

/-- The text of the failure. -/
def message : StoreError → String
  | .unknownAuditFields names => "Cannot update audit fields: " ++ Text.joinSorted names
  | .unknownFindingFields names => "Cannot update finding fields: " ++ Text.joinSorted names
  | .unknownHandling status => "Unknown finding status: " ++ status.display
  | .nameInUse operation name =>
    "AuditStore." ++ operation ++ "() got multiple values for argument " ++ Text.quoted name
  | .scanInProgress auditId => "Audit " ++ auditId ++ " has a scan in progress"
  | .noAudit auditId => "Audit " ++ auditId ++ " not found"
  | .noOrder error => error.message
  | .disk error => error.message
  | .noName path => "PosixPath(" ++ Text.quoted path.text ++ ") has an empty name"
  | .unwritable => "Exceeds the limit (4300 digits) for integer string conversion; use " ++
    "sys.set_int_max_str_digits() to increase the limit"
  | .undecodable error => error.message
  | .excessive error => error.message

/-- The text of the failure inside another message: that of a missing audit is quoted. -/
def shown : StoreError → String
  | .noAudit auditId => Text.quoted (message (.noAudit auditId))
  | error => error.message

end StoreError

namespace Ledger

/-- An operation: it may fail, and what it changed before it failed stays. -/
abbrev Action := ExceptT StoreError (StateM Ledger)

/-- Takes the state of the disk that an operation on it leaves. -/
def setDisk (disk : Disk) : Action Unit := modify fun ledger => { ledger with disk }

/-- Takes another store. -/
def setStore (store : Store) : Action Unit := modify fun ledger => { ledger with store }

/-- An operation on the disk. -/
def onDisk (operation : Disk → Except DiskError Disk) : Action Unit := do
  match operation (← get).disk with
  | .ok disk => setDisk disk
  | .error error => throw (.disk error)

/-- The path that a file is written to before it takes its place. -/
def besidePath (path : Path) : Path := path.withName (path.name ++ ".tmp")

/-- The octets of the store's file. -/
def octetsOf (store : Store) : List UInt8 := Utf8.encodeText store.document.write

/-- Makes the directories above a path. -/
def makeParents (path : Path) : Action Unit := do
  let (disk, failure) := (← get).disk.makeDirectories path.parent
  setDisk disk
  match failure with
  | some error => throw (.disk error)
  | none => return ()

/-- Writes the store's file, if it has one. -/
def save : Action Unit := do
  let store := (← get).store
  match store.path with
  | none => return ()
  | some path =>
    makeParents path
    if path.name.isEmpty then throw (.noName path)
    if !store.document.isWritable then throw .unwritable
    onDisk (·.write (besidePath path) (octetsOf store))
    onDisk (·.replace (besidePath path) path)

/-- Changes the store and writes its file. -/
def commit (store : Store) : Action Unit := do
  setStore store
  save

/-- Draws an id. -/
def drawId : Action String := do
  let ledger ← get
  set { ledger with drawn := ledger.drawn + 1 }
  return ledger.ids (ledger.drawn + 1)

/-- The address of a repository. -/
def addressOf (owner name : String) : String := "https://github.com/" ++ owner ++ "/" ++ name

/-- The record of a new audit. Without an address it gets that of its repository. -/
def newAudit (id owner name address : String) (now : Instant) : AuditRecord :=
  { id, ownerName := .text owner, repoName := .text name
    repoUrl := .text (if address.isEmpty then addressOf owner name else address)
    createdAt := .text now.text }

/-- Makes an audit. -/
def createAudit (owner name address : String) : Action AuditRecord := do
  let id ← drawId
  let ledger ← get
  let audit := newAudit id owner name address ledger.now
  commit (ledger.store.putAudit audit)
  return audit

/-- The audit of an id. -/
def getAudit (id : String) : Action (Option AuditRecord) := do return (← get).store.audit? id

/-- The audits in the order of their creation. -/
def listAudits : Action (List AuditRecord) := do
  match orderAudits (← get).store.audits with
  | .ok audits => return audits
  | .error error => throw (.noOrder error)

/-- Changes fields of an audit, if it is there. -/
def updateAudit (id : String) (changes : List (AuditField × Json)) : Action (Option AuditRecord) := do
  let store := (← get).store
  match store.audit? id with
  | none => return none
  | some audit =>
    let changed := audit.change changes
    commit (store.putAudit changed)
    return some changed

/-- The first name of changes that an operation has in use. -/
def nameInUse? (inUse : List String) (changes : List (String × Json)) : Option String :=
  (changes.map (·.1)).find? inUse.contains

/-- The names that the operation on an audit has in use. -/
def auditNamesInUse : List String := ["self", "audit_id"]

/-- Changes fields of an audit that are given by name. -/
def updateAuditByName (id : String) (changes : List (String × Json)) :
    Action (Option AuditRecord) := do
  match nameInUse? auditNamesInUse changes with
  | some name => throw (.nameInUse "update_audit" name)
  | none =>
    let unknown := (changes.map (·.1)).filter fun name => (AuditField.ofName? name).isNone
    if !unknown.isEmpty then throw (.unknownAuditFields unknown.eraseDups)
    else
      updateAudit id
        (changes.filterMap fun (name, value) => (AuditField.ofName? name).map (·, value))

/-- Drops an audit with its findings, unless its scan is running: true when it was there. -/
def deleteAudit (id : String) : Action Bool := do
  let store := (← get).store
  match store.audit? id with
  | none => return false
  | some audit =>
    if audit.isRunning then throw (.scanInProgress id)
    else
      commit (store.dropAudit id)
      return true

/-- The findings of an audit, in the order in which they came. -/
def listFindings (auditId : String) : Action (List FindingRecord) := do
  return (← get).store.findingsOf auditId

/-- The finding of an id. -/
def getFinding (id : String) : Action (Option FindingRecord) := do return (← get).store.finding? id

/-- A finding under an id, of an audit. -/
def filed (draft : FindingRecord) (id auditId : String) : FindingRecord :=
  { draft with id, auditId := .text auditId }

/-- Keeps a finding of an audit under a new id. -/
def createFinding (auditId : String) (draft : FindingRecord) : Action FindingRecord := do
  let id ← drawId
  let store := (← get).store
  if (store.audit? auditId).isNone then throw (.noAudit auditId)
  else
    let finding := filed draft id auditId
    commit (store.putFinding finding)
    return finding

/-- True of a state that the handling of a finding can be in, and of `null`. -/
def isHandling (status : Json) : Bool :=
  status.isNull || Handling.all.any fun handling => status.isText handling.name

/-- Changes fields of a finding, if it is there. -/
def updateFinding (id : String) (changes : List (FindingField × Json)) :
    Action (Option FindingRecord) := do
  let store := (← get).store
  match store.finding? id with
  | none => return none
  | some finding =>
    let changed := finding.change changes
    commit (store.putFinding changed)
    return some changed

/-- The names that the operation on a finding has in use. -/
def findingNamesInUse : List String := ["self", "finding_id"]

/-- Changes fields of a finding that are given by name. -/
def updateFindingByName (id : String) (changes : List (String × Json)) :
    Action (Option FindingRecord) := do
  match nameInUse? findingNamesInUse changes with
  | some name => throw (.nameInUse "update_finding" name)
  | none =>
    let unknown := (changes.map (·.1)).filter fun name => (FindingField.ofName? name).isNone
    if !unknown.isEmpty then throw (.unknownFindingFields unknown.eraseDups)
    else
      match (changes.lookup FindingField.status.name).filter (!isHandling ·) with
      | some status => throw (.unknownHandling status)
      | none =>
        updateFinding id
          (changes.filterMap fun (name, value) => (FindingField.ofName? name).map (·, value))

/-- Drops a finding: true when it was there. -/
def deleteFinding (id : String) : Action Bool := do
  let store := (← get).store
  if (store.finding? id).isNone then return false
  else
    commit (store.dropFinding id)
    return true

/-! ## Opening a store -/

/-- The store that a file holds. A file that cannot be read, or that holds no document, gives an empty
store. -/
def readStore (disk : Disk) (path : Path) : Except StoreError Store :=
  match disk.read path with
  | .error _ => .ok { path := some path }
  | .ok octets =>
    match Utf8.decode octets with
    | .error error => .error (.undecodable error)
    | .ok text =>
      match Json.read (String.ofList text) with
      | .ok document => .ok (Store.ofDocument (some path) document)
      | .error (.malformed _ _) => .ok { path := some path }
      | .error error => .error (.excessive error)

/-- Why a scan that was running when its program ended is over. -/
def interruptedReason : String := "scan interrupted"

/-- The changes that end an interrupted scan. -/
def closingChanges (now : Instant) : List (AuditField × Json) := [
  (.status, .text Store.complete), (.scannedAt, .text now.text),
  (.executiveSummary, .text (Summary.interrupted (some interruptedReason)))]

/-- The store with every running scan ended. -/
def closeRunning (now : Instant) (store : Store) : Store :=
  { store with
    audits := store.audits.map fun audit =>
      if audit.isRunning then audit.change (closingChanges now) else audit }

/-- Opens the store of a file, or an empty one in memory. Scans that were running are ended. -/
def openStore (path : Option Path) : Action Unit := do
  match path with
  | none => setStore {}
  | some path =>
    let ledger ← get
    match readStore ledger.disk path with
    | .error error => throw error
    | .ok store =>
      if store.audits.any (·.isRunning) then commit (closeRunning ledger.now store)
      else setStore store

end Ledger

end RepoAudit
