import RepoAudit.Finding.Basic
import RepoAudit.Service.Form
import RepoAudit.Store.Record

/-!
# What the service takes and shows

The forms of the bodies that the service takes, and of the records that it shows. A record whose values do
not fit its form is not shown.
-/

namespace RepoAudit

namespace Form

/-- The form of the names of categories. -/
def category : Form := .oneOf (Category.all.map Category.name)

/-- The form of the names of severities. -/
def severity : Form := .oneOf (Severity.all.map Severity.name)

/-- The form of the names of efforts. -/
def effort : Form := .oneOf (Effort.all.map Effort.name)

/-- The form of the names of the states of handling. -/
def handling : Form := .oneOf (Handling.all.map Handling.name)

/-- An object with the given fields. -/
def fields (fields : List (String × Form × Option Json)) : Form := .object (FormFields.ofList fields)

/-! ## Bodies -/

/-- What makes a new audit. -/
def newAudit : Form := fields [("repo_url", .text, none)]

/-- What makes a new finding. -/
def newFinding : Form := fields [
  ("category", category, none), ("severity", severity, none), ("title", .text, none),
  ("description", .text, some (.text "")), ("business_impact", .text, some (.text "")),
  ("fix_steps", .text, some (.text "")), ("effort", effort, some (.text Effort.small.name)),
  ("file_path", .optional .text, some .null), ("line_start", .optional .integer, some .null),
  ("line_end", .optional .integer, some .null), ("code_snippet", .optional .text, some .null)]

/-- What changes a finding. A field without a value does not change. -/
def findingChanges : Form := fields [
  ("status", .optional handling, some .null), ("category", .optional category, some .null),
  ("severity", .optional severity, some .null), ("effort", .optional effort, some .null),
  ("title", .optional .text, some .null), ("description", .optional .text, some .null),
  ("business_impact", .optional .text, some .null), ("fix_steps", .optional .text, some .null)]

/-! ## Records -/

/-- A step of a scan. -/
def logEntry : Form := fields [
  ("step", .text, none), ("status", .text, none), ("message", .text, none),
  ("timestamp", .text, none)]

/-- A phase of a plan. -/
def phase : Form := fields [
  ("phase", .text, none), ("days", .text, none), ("tasks", .list .text, none)]

/-- An entry of a tree. -/
def treeEntry : Form := fields [
  ("path", .text, none), ("type", .text, none), ("size", .optional .integer, some .null)]

/-- An audit. -/
def audit : Form := fields [
  ("id", .text, none), ("owner_name", .text, none), ("repo_name", .text, none),
  ("repo_url", .text, none), ("status", .text, none),
  ("scores", .optional (.dictionary .integer), some .null),
  ("executive_summary", .optional .text, some .null),
  ("remediation_plan", .optional (.list phase), some .null),
  ("repo_meta", .optional (.dictionary .any), some .null),
  ("file_tree", .list treeEntry, some (.array [])),
  ("scan_log", .list logEntry, some (.array [])),
  ("scanned_at", .optional .text, some .null), ("created_at", .text, none)]

/-- A finding. -/
def finding : Form := fields [
  ("id", .text, none), ("audit_id", .text, none), ("category", .text, none),
  ("severity", .text, none), ("title", .text, none), ("description", .text, none),
  ("business_impact", .text, none), ("fix_steps", .text, none), ("effort", .text, none),
  ("file_path", .optional .text, some .null), ("line_start", .optional .integer, some .null),
  ("line_end", .optional .integer, some .null), ("code_snippet", .optional .text, some .null),
  ("status", .text, none), ("auto_detected", .flag, none)]

/-- The state of a scan. -/
def scanStatus : Form := fields [
  ("status", .text, none), ("scan_log", .list logEntry, none),
  ("scanned_at", .optional .text, some .null)]

end Form

end RepoAudit
