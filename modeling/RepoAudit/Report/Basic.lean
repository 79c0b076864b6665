import RepoAudit.Report.Group

/-!
# Reports

A report tells what is known of an audit and its findings. It is made from kept records, whose fields may
hold any value; a value that a report cannot tell of is a problem, and the first one is reported.
-/

namespace RepoAudit

/-- A phase as a report tells it. -/
structure Report.Phase where
  name : String
  days : String
  tasks : List String
  deriving DecidableEq, Repr

/-- What a report tells. -/
structure Report where
  audit : AuditRecord
  /-- The languages with the most code and their shares in percent. -/
  languages : List (String × Double)
  /-- The scores, and their mean. -/
  scores : Option (List (String × Json) × Int)
  groups : List Report.Group
  plan : List Report.Phase
  /-- The number of findings. -/
  total : Nat
  deriving Repr

namespace Report

/-- Why there is no report of a record. -/
inductive Problem where
  | noMember (value : Json) (name : String)
  | notSeverity (value : Json)
  | notList (value : Json)
  | amount (problem : Amount.Problem)
  | notFinite (problem : Double.NotFinite)
  deriving Repr

/-- The text of the problem. -/
def Problem.message : Problem → String
  | noMember value name =>
    Text.quoted value.kindName ++ " object has no attribute " ++ Text.quoted name
  | notSeverity value => "unhashable type: " ++ Text.quoted value.kindName
  | notList value => Text.quoted value.kindName ++ " object is not iterable"
  | amount problem => problem.message
  | notFinite problem => problem.message

/-! ## Scores -/

/-- The heading of a category. -/
def label : Category → String
  | .security => "Security"
  | .stability => "Stability"
  | .maintainability => "Maintainability"
  | .scalability => "Scalability"
  | .cicd => "CI/CD"

/-- The scores of a record under their headings. -/
def scoresOf (audit : AuditRecord) : Except Problem (Option (List (String × Json))) :=
  match audit.scores with
  | .null => .ok none
  | .object members =>
    .ok (some (Category.all.map fun category =>
      (label category, (Json.Member.get? members category.name).getD .null)))
  | value => .error (.noMember value "as_dict")

/-- The mean of scores, a half going up. -/
def overall (scores : List (String × Json)) : Except Problem Int := do
  let total ← (Amount.sum (scores.map (·.2))).mapError .amount
  let mean ← (total.mean scores.length).mapError .amount
  mean.roundHalfUp.mapError .notFinite

/-! ## Languages -/

/-- The number of languages that are told. -/
def languageLimit : Nat := 5

/-- The number of decimals of a share. -/
def sharePlaces : Nat := 1

/-- The share of a size in a total, in percent. -/
def share (size total : Amount) : Except Amount.Problem Double := do
  let hundredfold := (Double.ofInt 100).mul (← size.toDouble)
  let whole ← total.toDouble
  return ((hundredfold.div? whole).getD .nan).roundTo sharePlaces

/-- The languages with the most code, the largest first and equal ones in their order. -/
def largest (sizes : List (String × Amount)) : List (String × Amount) :=
  (sizes.mergeSort fun a b => !a.2.lt b.2).take languageLimit

/-- The shares of the languages with the most code; none of an empty total. -/
def shares (sizes : List (String × Json)) : Except Problem (List (String × Double)) := do
  let total ← (Amount.sum (sizes.map (·.2))).mapError .amount
  if total.isAtMostZero then return []
  else
    let amounts := sizes.filterMap fun (name, size) => (Amount.ofJson? size).map (name, ·)
    (largest amounts).mapM fun (name, size) => do
      return (name, ← (share size total).mapError .amount)

/-- The shares of the languages of a record. -/
def languagesOf (audit : AuditRecord) : Except Problem (List (String × Double)) :=
  match audit.repoMeta with
  | .object members =>
    match (Json.Member.get? members "languages").getD .null with
    | .object sizes => shares sizes
    | value => .error (.noMember value "values")
  | value => if value.isTruthy then .error (.noMember value "languages") else .ok []

/-! ## The plan -/

/-- The items of a value: those of a list, the characters of a text, the names of an object. -/
def itemsOf : Json → Except Problem (List Json)
  | .array items => .ok items
  | .text s => .ok (s.toList.map fun c => .text c.toString)
  | .object members => .ok (members.map fun member => .text member.1)
  | value => .error (.notList value)

/-- A phase of a plan. A value without members is an empty phase. -/
def phaseOf (value : Json) : Except Problem Phase :=
  match value with
  | .object members => do
    let member (name : String) := (Json.Member.get? members name).getD .null
    let tasks ← itemsOf (member "tasks")
    return ⟨(member "phase").display, (member "days").display, tasks.map Json.display⟩
  | _ => .ok ⟨"", "", []⟩

/-- The phases of the plan of a record. -/
def planOf (audit : AuditRecord) : Except Problem (List Phase) :=
  if audit.remediationPlan.isTruthy then do (← itemsOf audit.remediationPlan).mapM phaseOf
  else .ok []

/-! ## The report -/

/-- The groups of findings, unless a finding has a severity that cannot name a group. -/
def groupsOf (findings : List FindingRecord) : Except Problem (List Group) :=
  match findings.find? (!Group.canName ·.severity) with
  | some finding => .error (.notSeverity finding.severity)
  | none => .ok (Group.ofFindings findings)

/-- The report of an audit and its findings. -/
def ofRecords (audit : AuditRecord) (findings : List FindingRecord) : Except Problem Report := do
  let scores ← scoresOf audit
  let languages ← languagesOf audit
  let scores ← scores.mapM fun scores => do return (scores, ← overall scores)
  let groups ← groupsOf findings
  let plan ← planOf audit
  return ⟨audit, languages, scores, groups, plan, findings.length⟩

end Report

end RepoAudit
