import RepoAudit.Number.Double

/-!
# YAML values

The values that a document can have. What a moment is does not matter to any reader of values, nor does
what a pair or a set holds.
-/

namespace RepoAudit.Yaml

/-- A value. A mapping lists the entries whose key is a text. -/
inductive Value where
  | null
  | bool (value : Bool)
  | integer (value : Int)
  | double (value : Double)
  | text (value : String)
  | octets (value : List UInt8)
  | moment
  | pair
  | set (size : Nat)
  | list (items : List Value)
  | mapping (size : Nat) (entries : List (String × Value))
  deriving Repr, Inhabited

namespace Value

/-- The entries of a mapping whose keys are texts; `none` for any other value. -/
def entries? : Value → Option (List (String × Value))
  | .mapping _ entries => some entries
  | _ => none

/-- The value of a key, `null` when it is missing. Of equal keys the last counts. -/
def field (entries : List (String × Value)) (name : String) : Value :=
  (entries.reverse.lookup name).getD .null

/-- True of `null`, `false`, zero and of whatever is empty. -/
def isVoid : Value → Bool
  | .null => true
  | .bool b => !b
  | .integer n => n == 0
  | .double x => x.isZero
  | .text s => s.isEmpty
  | .octets bytes => bytes.isEmpty
  | .moment => false
  | .pair => false
  | .set size => size == 0
  | .list items => items.isEmpty
  | .mapping size _ => size == 0

end Value

end RepoAudit.Yaml
