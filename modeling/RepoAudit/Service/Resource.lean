import RepoAudit.Text.Basic

/-!
# Resources

The resources of the service and the methods that each of them has. A resource is named by the path of a
request.
-/

namespace RepoAudit

/-- A resource. -/
inductive Resource where
  | health
  | audits
  | audit (id : String)
  | findings (auditId : String)
  | scan (auditId : String)
  | scanStatus (auditId : String)
  | finding (id : String)
  deriving DecidableEq, Repr

namespace Resource

/-- The resource of the segments of a path. -/
def ofSegments : List String → Option Resource
  | ["", "health"] => some .health
  | ["", "audits"] => some .audits
  | ["", "audits", id] => if id.isEmpty then none else some (.audit id)
  | ["", "findings", id] => if id.isEmpty then none else some (.finding id)
  | ["", "audits", id, "findings"] => if id.isEmpty then none else some (.findings id)
  | ["", "audits", id, "scan"] => if id.isEmpty then none else some (.scan id)
  | ["", "audits", id, "scan-status"] => if id.isEmpty then none else some (.scanStatus id)
  | _ => none

/-- The segments of a path. -/
def segments (path : List Char) : List String := (Text.splitOn '/' path).map String.ofList

/-- The path without a line break at its end. -/
def dropBreak (path : List Char) : List Char :=
  if path.getLast? == some '\n' then path.dropLast else path

/-- The resource of a path. A line break after a fixed segment does not count. -/
def ofPath? (path : String) : Option Resource :=
  (ofSegments (segments path.toList)).or (ofSegments (segments (dropBreak path.toList)))

/-- The methods of a resource. -/
def methods : Resource → List String
  | health => ["GET"]
  | audits => ["POST", "GET"]
  | audit _ => ["GET", "DELETE"]
  | findings _ => ["GET", "POST"]
  | scan _ => ["POST"]
  | scanStatus _ => ["GET"]
  | finding _ => ["PATCH", "DELETE"]

/-- The path without slashes at its end, when it has some and leads to a resource without them. -/
def redirect? (path : String) : Option String :=
  let target := Text.dropEndChar '/' path
  if path.endsWith "/" && (ofPath? target).isSome then some target else none

end Resource

end RepoAudit
