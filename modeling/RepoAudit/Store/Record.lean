import RepoAudit.Json.Basic

/-!
# Records

What is kept about an audit and about a finding. A record has fixed fields, but a field may hold any
value, because records are also read from files and changed by others. `get` and `set` reach each field
through its name's constructor, so a law about fields is one law.
-/

namespace RepoAudit

/-- The fields of an audit that may change. -/
inductive AuditField where
  | ownerName
  | repoName
  | repoUrl
  | status
  | scores
  | executiveSummary
  | remediationPlan
  | repoMeta
  | fileTree
  | scanLog
  | scannedAt
  | createdAt
  deriving DecidableEq, Repr

namespace AuditField

/-- The name of a field. -/
def name : AuditField → String
  | ownerName => "owner_name"
  | repoName => "repo_name"
  | repoUrl => "repo_url"
  | status => "status"
  | scores => "scores"
  | executiveSummary => "executive_summary"
  | remediationPlan => "remediation_plan"
  | repoMeta => "repo_meta"
  | fileTree => "file_tree"
  | scanLog => "scan_log"
  | scannedAt => "scanned_at"
  | createdAt => "created_at"

/-- All fields. -/
def all : List AuditField := [
  ownerName, repoName, repoUrl, status, scores, executiveSummary, remediationPlan, repoMeta,
  fileTree, scanLog, scannedAt, createdAt]

/-- The field of a name. -/
def ofName? (name : String) : Option AuditField := all.find? (·.name == name)

end AuditField

/-- An audit, as it is kept. -/
structure AuditRecord where
  id : String
  ownerName : Json
  repoName : Json
  repoUrl : Json := .text ""
  status : Json := .text "pending"
  scores : Json := .null
  executiveSummary : Json := .null
  remediationPlan : Json := .null
  repoMeta : Json := .null
  fileTree : Json := .array []
  scanLog : Json := .array []
  scannedAt : Json := .null
  createdAt : Json := .text ""
  deriving Repr

namespace AuditRecord

/-- The value of a field. -/
def get (record : AuditRecord) : AuditField → Json
  | .ownerName => record.ownerName
  | .repoName => record.repoName
  | .repoUrl => record.repoUrl
  | .status => record.status
  | .scores => record.scores
  | .executiveSummary => record.executiveSummary
  | .remediationPlan => record.remediationPlan
  | .repoMeta => record.repoMeta
  | .fileTree => record.fileTree
  | .scanLog => record.scanLog
  | .scannedAt => record.scannedAt
  | .createdAt => record.createdAt

/-- The record with another value of a field. -/
def set (record : AuditRecord) (field : AuditField) (value : Json) : AuditRecord :=
  match field with
  | .ownerName => { record with ownerName := value }
  | .repoName => { record with repoName := value }
  | .repoUrl => { record with repoUrl := value }
  | .status => { record with status := value }
  | .scores => { record with scores := value }
  | .executiveSummary => { record with executiveSummary := value }
  | .remediationPlan => { record with remediationPlan := value }
  | .repoMeta => { record with repoMeta := value }
  | .fileTree => { record with fileTree := value }
  | .scanLog => { record with scanLog := value }
  | .scannedAt => { record with scannedAt := value }
  | .createdAt => { record with createdAt := value }

/-- The record with other values of some fields. -/
def change (record : AuditRecord) (changes : List (AuditField × Json)) : AuditRecord :=
  changes.foldl (fun record (field, value) => record.set field value) record

/-- All fields with their names. -/
def members (record : AuditRecord) : List (String × Json) :=
  ("id", .text record.id) :: AuditField.all.map fun field => (field.name, record.get field)

/-- The record as an object. -/
def toJson (record : AuditRecord) : Json := .object record.members

/-- The owner and the name of the repository. -/
def fullName (record : AuditRecord) : String :=
  record.ownerName.display ++ "/" ++ record.repoName.display

end AuditRecord

/-- The fields of a finding that may change. -/
inductive FindingField where
  | category
  | severity
  | title
  | description
  | businessImpact
  | fixSteps
  | effort
  | filePath
  | lineStart
  | lineEnd
  | snippet
  | status
  | autoDetected
  deriving DecidableEq, Repr

namespace FindingField

/-- The name of a field. -/
def name : FindingField → String
  | category => "category"
  | severity => "severity"
  | title => "title"
  | description => "description"
  | businessImpact => "business_impact"
  | fixSteps => "fix_steps"
  | effort => "effort"
  | filePath => "file_path"
  | lineStart => "line_start"
  | lineEnd => "line_end"
  | snippet => "code_snippet"
  | status => "status"
  | autoDetected => "auto_detected"

/-- All fields. -/
def all : List FindingField := [
  category, severity, title, description, businessImpact, fixSteps, effort, filePath, lineStart,
  lineEnd, snippet, status, autoDetected]

/-- The field of a name. -/
def ofName? (name : String) : Option FindingField := all.find? (·.name == name)

end FindingField

/-- A finding, as it is kept. -/
structure FindingRecord where
  id : String
  auditId : Json := .null
  category : Json
  severity : Json
  title : Json
  description : Json
  businessImpact : Json
  fixSteps : Json
  effort : Json := .text "S"
  filePath : Json := .null
  lineStart : Json := .null
  lineEnd : Json := .null
  snippet : Json := .null
  status : Json := .text "open"
  autoDetected : Json := .bool true
  deriving Repr

namespace FindingRecord

/-- The value of a field. -/
def get (record : FindingRecord) : FindingField → Json
  | .category => record.category
  | .severity => record.severity
  | .title => record.title
  | .description => record.description
  | .businessImpact => record.businessImpact
  | .fixSteps => record.fixSteps
  | .effort => record.effort
  | .filePath => record.filePath
  | .lineStart => record.lineStart
  | .lineEnd => record.lineEnd
  | .snippet => record.snippet
  | .status => record.status
  | .autoDetected => record.autoDetected

/-- The record with another value of a field. -/
def set (record : FindingRecord) (field : FindingField) (value : Json) : FindingRecord :=
  match field with
  | .category => { record with category := value }
  | .severity => { record with severity := value }
  | .title => { record with title := value }
  | .description => { record with description := value }
  | .businessImpact => { record with businessImpact := value }
  | .fixSteps => { record with fixSteps := value }
  | .effort => { record with effort := value }
  | .filePath => { record with filePath := value }
  | .lineStart => { record with lineStart := value }
  | .lineEnd => { record with lineEnd := value }
  | .snippet => { record with snippet := value }
  | .status => { record with status := value }
  | .autoDetected => { record with autoDetected := value }

/-- The record with other values of some fields. -/
def change (record : FindingRecord) (changes : List (FindingField × Json)) : FindingRecord :=
  changes.foldl (fun record (field, value) => record.set field value) record

/-- All fields with their names. -/
def members (record : FindingRecord) : List (String × Json) :=
  ("id", .text record.id) :: ("audit_id", record.auditId) ::
    FindingField.all.map fun field => (field.name, record.get field)

/-- The record as an object. -/
def toJson (record : FindingRecord) : Json := .object record.members

/-- True of a finding of the audit. -/
def isOf (auditId : String) (record : FindingRecord) : Bool := record.auditId.isText auditId

end FindingRecord

end RepoAudit
