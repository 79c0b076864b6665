import RepoAudit.Number.Double

/-!
# The text of a double

`Double.shortest` finds the fewest significant decimal digits that read back as the same double, and
of those the nearest to it. `Double.text` lays them out: positional notation for decimal exponents
from -4 to 15, scientific notation with a signed exponent of at least two digits elsewhere, and always
a point or an exponent, so that the text never looks like an integer.
-/

namespace RepoAudit.Double

-- Powers are the core ones, also where an algebra library brings its own.
attribute [local instance (high)] instPowNat

/-- Decimal digits and the power of ten of the last one: the value `digits · 10^exponent`. -/
structure Decimal where
  digits : Nat
  exponent : Int
  deriving DecidableEq, Repr

/-- The number of decimal digits of a natural number, and `1` for zero. -/
def digitCount (n : Nat) : Nat := (Nat.toDigits 10 n).length

/-- The value `m · 2^q` as a quotient of natural numbers. -/
def ratioOf (m : Nat) (q : Int) : Nat × Nat :=
  if 0 ≤ q then (m * 2 ^ q.toNat, 1) else (m, 2 ^ (-q).toNat)

/-- The quotient `num / (den · 10^e)` as a pair of natural numbers. -/
def decimalScaled (num den : Nat) (e : Int) : Nat × Nat :=
  if 0 ≤ e then (num, den * 10 ^ e.toNat) else (num * 10 ^ (-e).toNat, den)

/-- The decimal exponent of the leading digit of `num / den`: the greatest `e` with `10^e` not above
the quotient. -/
def leadingExponent (num den : Nat) : Int :=
  let guess : Int := (digitCount num : Int) - (digitCount den : Int)
  let (n, d) := decimalScaled num den guess
  if n < d then guess - 1 else guess

/-- The neighbour on the grid of multiples of `10^e` that reads back as `x`, the nearer of two. -/
def neighbour? (x : Double) (num den : Nat) (e : Int) : Option Decimal :=
  let (n, d) := decimalScaled num den e
  let below := n / d
  let remainder := n % d
  let reads (k : Nat) : Bool := k != 0 && ofDecimal false k e == x
  let nearest := if d < 2 * remainder ∨ (d = 2 * remainder ∧ below % 2 = 1) then below + 1 else below
  let other := if nearest = below then below + 1 else below
  if reads nearest then some ⟨nearest, e⟩
  else if reads other then some ⟨other, e⟩
  else none

/-- Tries one digit, two digits, and so on, with `steps` tries left. -/
def searchDigits (x : Double) (num den : Nat) (lead : Int) : Nat → Nat → Decimal
  | 0, _ => ⟨num / den, 0⟩
  | steps + 1, count =>
    match neighbour? x num den (lead - count + 1) with
    | some found => found
    | none => searchDigits x num den lead steps (count + 1)

/-- Removes the zeros at the end of the digits, with at most `steps` removals. -/
def dropZeros : Nat → Decimal → Decimal
  | 0, d => d
  | steps + 1, d =>
    if d.digits ≠ 0 ∧ d.digits % 10 = 0 then dropZeros steps ⟨d.digits / 10, d.exponent + 1⟩ else d

/-- The shortest decimal that reads back as the positive value `m · 2^q`. -/
def shortest (m : Nat) (q : Int) : Decimal :=
  let (num, den) := ratioOf m q
  dropZeros 20 (searchDigits (.finite false m q) num den (leadingExponent num den) 17 1)

/-- How decimal digits are laid out. -/
structure Layout where
  /-- The least exponent of the leading digit that is written positionally. -/
  leastPositional : Int
  /-- The greatest exponent of the leading digit that is written positionally. -/
  greatestPositional : Int
  /-- Whether an integer in positional notation is followed by `.0`. -/
  pointZero : Bool

/-- The layout of a value that is shown as it is. -/
def Layout.plain : Layout := ⟨-4, 15, true⟩

/-- The exponent part: a sign and at least two digits. -/
def exponentText (e : Int) : String :=
  let digits := toString e.natAbs
  "e" ++ (if e < 0 then "-" else "+") ++ (if digits.length < 2 then "0" ++ digits else digits)

/-- The digits of a decimal laid out. -/
def Layout.write (layout : Layout) (d : Decimal) : String :=
  let digits := (toString d.digits).toList
  let lead : Int := d.exponent + digits.length - 1
  if layout.leastPositional ≤ lead ∧ lead ≤ layout.greatestPositional then
    if 0 ≤ d.exponent then
      String.ofList (digits ++ List.replicate d.exponent.toNat '0') ++
        (if layout.pointZero then ".0" else "")
    else if 0 ≤ lead then
      let whole := lead.toNat + 1
      String.ofList (digits.take whole ++ '.' :: digits.drop whole)
    else
      String.ofList ('0' :: '.' :: List.replicate ((-lead).toNat - 1) '0' ++ digits)
  else
    let body := match digits with
      | [] => []
      | [c] => [c]
      | c :: rest => c :: '.' :: rest
    String.ofList body ++ exponentText lead

/-- The text of a double: the shortest digits that read back. -/
def text : Double → String
  | .nan => "nan"
  | .infinite negative => if negative then "-inf" else "inf"
  | .finite negative m q =>
    (if negative then "-" else "") ++
      (if m = 0 then "0.0" else Layout.plain.write (shortest m q))

/-- The double nearest to `x` among the multiples of `10^(-places)`: the exact value is rounded on
that decimal grid, a tie to the even digit, and the result is read back as a double. -/
def roundTo (places : Nat) : Double → Double
  | .finite negative m q =>
    let (num, den) := ratioOf m q
    ofDecimal negative (divideToEven (num * 10 ^ places) den) (-(places : Int))
  | x => x

end RepoAudit.Double
