import RepoAudit.Json.Basic

/-!
# Amounts

An amount is an exact integer or a double. Integers are added exactly; as soon as a double takes part, the
sum is rounded. An integer that no finite double is near has no place in such a sum.
-/

namespace RepoAudit

/-- An exact integer or a double. -/
inductive Amount where
  | exact (value : Int)
  | decimal (value : Double)
  deriving Repr

namespace Amount

/-- Why there is no sum or no quotient. -/
inductive Problem where
  /-- A value that is no number is added to an amount. -/
  | notNumber (total : Amount) (value : Json)
  /-- An integer is beyond the finite doubles. -/
  | tooLarge
  /-- The quotient of two integers is beyond the finite doubles. -/
  | quotientTooLarge
  deriving Repr

/-- The value of an amount as JSON. -/
def toJson : Amount → Json
  | exact n => .integer n
  | decimal x => .double x

/-- The text of the problem. -/
def Problem.message : Problem → String
  | notNumber total value =>
    "unsupported operand type(s) for +: " ++ Text.quoted total.toJson.kindName ++ " and " ++
      Text.quoted value.kindName
  | tooLarge => "int too large to convert to float"
  | quotientTooLarge => "integer division result too large for a float"

/-- The amount that a value is; truth values count as one and zero. -/
def ofJson? : Json → Option Amount
  | .bool b => some (exact (if b then 1 else 0))
  | .integer n => some (exact n)
  | .double x => some (decimal x)
  | _ => none

/-- The double of a ratio, unless it is beyond the finite ones. -/
def ratio (numerator : Int) (denominator : Nat) (problem : Problem) : Except Problem Double :=
  match Double.ofRatio (numerator < 0) numerator.natAbs denominator with
  | .infinite _ => .error problem
  | x => .ok x

/-- The nearest double. -/
def toDouble : Amount → Except Problem Double
  | exact n => ratio n 1 .tooLarge
  | decimal x => .ok x

/-- The sum of two amounts. -/
def add : Amount → Amount → Except Problem Amount
  | exact m, exact n => .ok (exact (m + n))
  | x, y => return decimal ((← x.toDouble).add (← y.toDouble))

/-- The sum of values, in their order. -/
def sum (values : List Json) : Except Problem Amount :=
  values.foldlM (fun total value =>
    match ofJson? value with
    | some amount => total.add amount
    | none => .error (.notNumber total value)) (exact 0)

/-- A double of the same value, which need not be one of those that are stored. -/
def wide : Amount → Double
  | exact n => .finite (n < 0) n.natAbs 0
  | decimal x => x

/-- Numeric order. -/
def lt (x y : Amount) : Bool := x.wide.lt y.wide

/-- True of amounts of one value. What is not a number is the same as itself. -/
def same (x y : Amount) : Bool :=
  match x, y with
  | decimal .nan, decimal .nan => true
  | x, y => x.wide.same y.wide

/-- True of zero and of every amount below it. -/
def isAtMostZero (x : Amount) : Bool := x.lt (exact 0) || x.wide.isZero

/-- The mean of `count` amounts with the given sum. -/
def mean (count : Nat) : Amount → Except Problem Double
  | exact n => ratio n count .quotientTooLarge
  | decimal x => .ok ((x.div? (Double.ofInt count)).getD .nan)

end Amount

end RepoAudit
