import RepoAudit.Disk.Path
import RepoAudit.Store.Shape

/-!
# Stores

A store keeps audits and findings in the order in which they came. Each record stands under its own id. The
document of a store is what its file holds; reading a document back leaves out what is no record.
-/

namespace RepoAudit

/-- Audits and findings, with the path of the file that keeps them, if there is one. -/
structure Store where
  path : Option Path := none
  audits : List AuditRecord := []
  findings : List FindingRecord := []
  deriving Repr

namespace Store

/-- The audit of an id. -/
def audit? (store : Store) (id : String) : Option AuditRecord := store.audits.find? (·.id == id)

/-- The finding of an id. -/
def finding? (store : Store) (id : String) : Option FindingRecord := store.findings.find? (·.id == id)

/-- The findings of an audit. -/
def findingsOf (store : Store) (auditId : String) : List FindingRecord :=
  store.findings.filter (·.isOf auditId)

/-- Keeps an audit, in the place of the one with its id, or else as the last. -/
def putAudit (store : Store) (audit : AuditRecord) : Store :=
  if (store.audit? audit.id).isSome then
    { store with audits := store.audits.map fun old => if old.id == audit.id then audit else old }
  else { store with audits := store.audits ++ [audit] }

/-- Keeps a finding, in the place of the one with its id, or else as the last. -/
def putFinding (store : Store) (finding : FindingRecord) : Store :=
  if (store.finding? finding.id).isSome then
    { store with
      findings := store.findings.map fun old => if old.id == finding.id then finding else old }
  else { store with findings := store.findings ++ [finding] }

/-- Drops an audit and its findings. -/
def dropAudit (store : Store) (id : String) : Store :=
  { store with
    audits := store.audits.filter (·.id != id)
    findings := store.findings.filter (!·.isOf id) }

/-- Drops a finding. -/
def dropFinding (store : Store) (id : String) : Store :=
  { store with findings := store.findings.filter (·.id != id) }

/-- The version of the documents that are written and read. -/
def version : Int := 1

/-- The document of a store. -/
def document (store : Store) : Json := .object [
  ("version", .integer version),
  ("audits", .object (store.audits.map fun audit => (audit.id, audit.toJson))),
  ("findings", .object (store.findings.map fun finding => (finding.id, finding.toJson)))]

/-- The records of an object whose members are records under their ids; members that are none are left
out. -/
def recordsOf {α : Type} (record? : String → Json → Option α) : Json → List α
  | .object members => members.filterMap fun (id, value) => record? id value
  | _ => []

/-- The store of a document; a document of another version has no records. -/
def ofDocument (path : Option Path) (document : Json) : Store :=
  if (document.getD "version").equalsInteger version then
    { path
      audits := recordsOf AuditRecord.ofJson? (document.getD "audits")
      findings := recordsOf FindingRecord.ofJson? (document.getD "findings") }
  else { path }

/-- The state of an audit whose scan is running. -/
def inProgress : String := "in_progress"

/-- The state of an audit whose scan has ended. -/
def complete : String := "complete"

end Store

/-- True of an audit whose scan is running. -/
def AuditRecord.isRunning (audit : AuditRecord) : Bool := audit.status.isText Store.inProgress

end RepoAudit
