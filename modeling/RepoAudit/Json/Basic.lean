import RepoAudit.Number.Shortest
import RepoAudit.Text.Quoted

/-!
# JSON values

Integers are exact and of any size; other numbers are doubles. The members of an object keep the order
in which they were put, and a name stands at most once in an object built by `Json.Member.put`.
-/

namespace RepoAudit

/-- A JSON value. -/
inductive Json where
  | null
  | bool (value : Bool)
  | integer (value : Int)
  | double (value : Double)
  | text (value : String)
  | array (items : List Json)
  | object (members : List (String × Json))
  deriving Repr, Inhabited

namespace Json

/-- The value of a member. -/
def Member.get? (members : List (String × Json)) (name : String) : Option Json :=
  members.lookup name

/-- Sets a member: a name that is present keeps its place and takes the new value, a new name comes
last. -/
def Member.put (members : List (String × Json)) (name : String) (value : Json) :
    List (String × Json) :=
  if members.any (·.1 == name) then
    members.map fun member => if member.1 == name then (name, value) else member
  else members ++ [(name, value)]

/-- A member of an object; `none` when it is missing or the value is no object. -/
def get? (name : String) : Json → Option Json
  | .object members => Member.get? members name
  | _ => none

/-- A member of an object, `null` when it is missing. -/
def getD (name : String) (value : Json) : Json := (value.get? name).getD .null

/-- The text of a text value. -/
def text? : Json → Option String
  | .text s => some s
  | _ => none

/-- The integer of an integer value. -/
def integer? : Json → Option Int
  | .integer n => some n
  | _ => none

/-- True of the value that is the given text. -/
def isText (s : String) : Json → Bool
  | .text t => t == s
  | _ => false

def isNull : Json → Bool
  | .null => true
  | _ => false

/-- True of every value but `null`, `false`, zero, and empty texts, arrays and objects. -/
def isTruthy : Json → Bool
  | .null => false
  | .bool b => b
  | .integer n => n != 0
  | .double x => !x.isZero
  | .text s => !s.isEmpty
  | .array items => !items.isEmpty
  | .object members => !members.isEmpty

/-- The value itself when it is truthy, and otherwise the alternative. -/
def orElse (value alternative : Json) : Json := if value.isTruthy then value else alternative

/-- A text, or `null`. -/
def ofText? : Option String → Json
  | some s => .text s
  | none => .null

/-- An integer, or `null`. -/
def ofInt? : Option Int → Json
  | some n => .integer n
  | none => .null

/-- True of a number that equals the integer; truth values count as one and zero. -/
def equalsInteger (n : Int) : Json → Bool
  | .bool b => n == (if b then 1 else 0)
  | .integer m => m == n
  | .double x => Double.same x (Double.ofInt n)
  | _ => false

/-- The name of the kind of value. -/
def kindName : Json → String
  | .null => "NoneType"
  | .bool _ => "bool"
  | .integer _ => "int"
  | .double _ => "float"
  | .text _ => "str"
  | .array _ => "list"
  | .object _ => "dict"

/-- The text in which a truth value is shown. -/
def boolText (b : Bool) : String := if b then "True" else "False"

/-- The value as a literal: texts are quoted. -/
def literal : Json → String
  | .null => "None"
  | .bool b => boolText b
  | .integer n => toString n
  | .double x => x.text
  | .text s => Text.quoted s
  | .array items => "[" ++ items_ items ++ "]"
  | .object members => "\x7b" ++ members_ members ++ "\x7d"
where
  items_ : List Json → String
  | [] => ""
  | [item] => item.literal
  | item :: rest => item.literal ++ ", " ++ items_ rest
  members_ : List (String × Json) → String
  | [] => ""
  | [(name, value)] => Text.quoted name ++ ": " ++ value.literal
  | (name, value) :: rest => Text.quoted name ++ ": " ++ value.literal ++ ", " ++ members_ rest

/-- The value as it is shown: a text as itself, any other value as its literal. -/
def display : Json → String
  | .text s => s
  | value => value.literal

end Json

end RepoAudit
