import RepoAudit.Host.Basic
import RepoAudit.Plan
import RepoAudit.ScanLog
import RepoAudit.Score
import RepoAudit.Store.Record

/-!
# Shapes of kept values

Scores, snapshots, phases, entries of trees and steps of scans are kept as objects with fixed members. A
shape names the members, each with its default if it may be missing; an object that has other members, or
lacks one without a default, does not fit.
-/

namespace RepoAudit

/-- The members of an object, each with its default if it may be missing. -/
abbrev Shape := List (String × Option Json)

namespace Shape

/-- The values of a shape's members, in its order. -/
def values (members : List (String × Json)) : Shape → Option (List (String × Json))
  | [] => some []
  | (name, standard) :: rest => do
    let value ← (Json.Member.get? members name).or standard
    let others ← values members rest
    some ((name, value) :: others)

/-- True when a shape has the member. -/
def has (shape : Shape) (name : String) : Bool := shape.any (·.1 == name)

/-- An object with every member of the shape; `none` when a value does not fit. -/
def fill (shape : Shape) : Json → Option Json
  | .object members =>
    if members.all fun member => shape.has member.1 then .object <$> shape.values members else none
  | _ => none

/-- The shape of scores. -/
def scores : Shape := Category.all.map fun category => (category.name, some (.integer Scores.greatest))

/-- The shape of snapshots. -/
def snapshot : Shape := [
  ("stars", some (.integer 0)), ("forks", some (.integer 0)), ("open_issues", some (.integer 0)),
  ("default_branch", some (.text "main")), ("last_push", some (.text "")),
  ("is_private", some (.bool false)), ("description", some .null), ("size", some (.integer 0)),
  ("languages", some (.object []))]

/-- The shape of phases of a plan. -/
def phase : Shape := [("phase", none), ("days", none), ("tasks", some (.array []))]

/-- The shape of entries of a tree. -/
def treeEntry : Shape := [("path", none), ("type", some (.text "file")), ("size", some .null)]

/-- The shape of steps of a scan. -/
def logEntry : Shape := [("step", none), ("status", none), ("message", none), ("timestamp", none)]

end Shape

/-- Scores as they are kept. -/
def Scores.toJson (scores : Scores) : Json :=
  .object (Category.all.map fun category => (category.name, .integer (scores.get category)))

/-- A snapshot as it is kept. -/
def Snapshot.toJson (snapshot : Snapshot) : Json := .object [
  ("stars", .integer snapshot.stars), ("forks", .integer snapshot.forks),
  ("open_issues", .integer snapshot.openIssues), ("default_branch", .text snapshot.defaultBranch),
  ("last_push", .text snapshot.lastPush), ("is_private", .bool snapshot.isPrivate),
  ("description", Json.ofText? snapshot.description), ("size", .integer snapshot.size),
  ("languages", .object (snapshot.languages.map fun (name, size) => (name, .integer size)))]

/-- The snapshot of a kept one; what does not fit has its default. -/
def Snapshot.ofJson (value : Json) : Snapshot where
  stars := (value.getD "stars").integer?.getD 0
  forks := (value.getD "forks").integer?.getD 0
  openIssues := (value.getD "open_issues").integer?.getD 0
  defaultBranch := (value.getD "default_branch").text?.getD "main"
  lastPush := (value.getD "last_push").text?.getD ""
  isPrivate := (value.getD "is_private").isTruthy
  description := (value.getD "description").text?
  size := (value.getD "size").integer?.getD 0
  languages :=
    match value.getD "languages" with
    | .object members => members.map fun (name, size) => (name, size.integer?.getD 0)
    | _ => []

/-- A phase as it is kept. -/
def Phase.toJson (phase : Phase) : Json := .object [
  ("phase", .text phase.name), ("days", .text phase.days), ("tasks", .array (phase.tasks.map .text))]

/-- A size as it is kept. -/
def FileSize.toJson : FileSize → Json
  | .bytes count => .integer count
  | .flag value => .bool value

/-- An entry of a tree as it is kept. -/
def TreeEntry.toJson (entry : TreeEntry) : Json := .object [
  ("path", .text entry.path), ("type", .text entry.kind),
  ("size", (entry.size.map FileSize.toJson).getD .null)]

/-- A step of a scan as it is kept. -/
def LogEntry.toJson (entry : LogEntry) : Json := .object [
  ("step", .text entry.step), ("status", .text entry.status), ("message", .text entry.message),
  ("timestamp", .text entry.timestamp)]

/-- A list as it is kept. -/
def Json.ofList {α : Type} (write : α → Json) (items : List α) : Json := .array (items.map write)

namespace FindingRecord

/-- The record of a finding that is not kept yet. -/
def ofFinding (finding : Finding) : FindingRecord where
  id := finding.id.getD ""
  auditId := Json.ofText? finding.auditId
  category := .text finding.category
  severity := .text finding.severity
  title := .text finding.title
  description := .text finding.description
  businessImpact := .text finding.businessImpact
  fixSteps := .text finding.fixSteps
  effort := .text finding.effort
  filePath := Json.ofText? finding.filePath
  lineStart := Json.ofInt? finding.lineStart
  lineEnd := Json.ofInt? finding.lineEnd
  snippet := Json.ofText? finding.snippet
  status := .text finding.status
  autoDetected := .bool finding.autoDetected

/-- The finding of a record; a value that does not fit counts as missing, and a missing text is empty. -/
def toFinding (record : FindingRecord) : Finding where
  category := record.category.text?.getD ""
  severity := record.severity.text?.getD ""
  title := record.title.text?.getD ""
  description := record.description.text?.getD ""
  businessImpact := record.businessImpact.text?.getD ""
  fixSteps := record.fixSteps.text?.getD ""
  effort := record.effort.text?.getD ""
  filePath := record.filePath.text?
  lineStart := record.lineStart.integer?
  lineEnd := record.lineEnd.integer?
  snippet := record.snippet.text?
  status := record.status.text?.getD ""
  autoDetected := record.autoDetected.isTruthy
  id := some record.id
  auditId := record.auditId.text?

/-- The fields without a default. -/
def requiredFields : List FindingField :=
  [.category, .severity, .title, .description, .businessImpact, .fixSteps]

/-- The record that is kept as a value under an id; `none` when the value is no such record. -/
def ofJson? (id : String) : Json → Option FindingRecord
  | .object members =>
    let value? (field : FindingField) := Json.Member.get? members field.name
    if requiredFields.all fun field => (value? field).isSome then
      if ((Json.Member.get? members "id").getD .null).isText id then
        let blank : FindingRecord := ⟨id, (Json.Member.get? members "audit_id").getD .null,
          .null, .null, .null, .null, .null, .null, .text "S", .null, .null, .null, .null,
          .text "open", .bool true⟩
        some (blank.change (FindingField.all.filterMap fun field => (value? field).map (field, ·)))
      else none
    else none
  | _ => none

end FindingRecord

namespace AuditRecord

/-- The items of a list that may be missing, each of a shape. -/
def listOf? (shape : Shape) (value : Json) : Option Json :=
  if !value.isTruthy then some (.array [])
  else
    match value with
    | .array items => .array <$> items.mapM shape.fill
    | _ => none

/-- The value of a field as it is kept; `none` when it does not fit. -/
def fieldOf? (field : AuditField) (value : Json) : Option Json :=
  match field, value with
  | .scores, .object members => Shape.scores.fill (.object members)
  | .repoMeta, .object members => Shape.snapshot.fill (.object members)
  | .remediationPlan, .array items => .array <$> items.mapM Shape.phase.fill
  | .fileTree, value => listOf? Shape.treeEntry value
  | .scanLog, value => listOf? Shape.logEntry value
  | _, value => some value

/-- The record that is kept as a value under an id; `none` when the value is no such record. -/
def ofJson? (id : String) : Json → Option AuditRecord
  | .object members => do
    let value? (name : String) := Json.Member.get? members name
    let isText (name : String) := ((value? name).bind Json.text?).isSome
    if ((value? "id").getD .null).isText id && isText "owner_name" && isText "repo_name" then
      let given := AuditField.all.filterMap fun field => (value? field.name).map (field, ·)
      let changes ← given.mapM fun (field, value) => (fieldOf? field value).map (field, ·)
      let blank : AuditRecord := { id, ownerName := .null, repoName := .null }
      some (blank.change changes)
    else none
  | _ => none

end AuditRecord

end RepoAudit
