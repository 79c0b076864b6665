/-!
# Binary floating-point numbers

A double is zero, an infinity, not-a-number, or `± m · 2^q` with `m` below `2^53`. Every arithmetic
operation is the exact operation on the rational values, followed by one rounding to the nearest
double, ties to the even significand (`Double.ofRatio`). Nothing here depends on the machine's own
floating-point unit, so every result can be computed inside the logic.
-/

namespace RepoAudit

/-- A double-precision number. In `finite negative m q` the value is `± m · 2^q`; the values built by
`Double.ofRatio` are canonical: `m < 2^53`, and `2^52 ≤ m` unless `q` is the least exponent. -/
inductive Double where
  | nan
  | infinite (negative : Bool)
  | finite (negative : Bool) (significand : Nat) (exponent : Int)
  deriving DecidableEq, Repr, Inhabited

namespace Double

-- Powers are the core ones, also where an algebra library brings its own.
attribute [local instance (high)] instPowNat

/-- The least exponent: the spacing of the subnormal numbers is `2^leastExponent`. -/
def leastExponent : Int := -1074

/-- The greatest exponent of a finite number. -/
def greatestExponent : Int := 971

/-- The number of bits of a significand. -/
def precision : Nat := 53

/-- Zero, of either sign. -/
def zero (negative : Bool) : Double := .finite negative 0 leastExponent

/-- The quotient `num / den` rounded to the nearest natural number, a tie to the even one. -/
def divideToEven (num den : Nat) : Nat :=
  let quotient := num / den
  let remainder := num % den
  if den < 2 * remainder then quotient + 1
  else if den = 2 * remainder then quotient + quotient % 2
  else quotient

/-- `num / (den · 2^q)` as a pair of natural numbers. -/
def scaled (num den : Nat) (q : Int) : Nat × Nat :=
  if 0 ≤ q then (num, den * 2 ^ q.toNat) else (num * 2 ^ (-q).toNat, den)

/-- The exponent at which the quotient `num / den` has a significand of exactly `precision` bits, or
the least exponent where that is larger. -/
def exponentOf (num den : Nat) : Int :=
  let guess : Int := (num.log2 : Int) - (den.log2 : Int) - 52
  let (n, d) := scaled num den guess
  let exact := if n / d < 2 ^ (52 : Nat) then guess - 1 else guess
  max exact leastExponent

/-- The double nearest to `± num / den`, a tie to the even significand; infinite when the rounded
value exceeds the largest finite double. -/
def ofRatio (negative : Bool) (num den : Nat) : Double :=
  if num = 0 ∨ den = 0 then zero negative
  else
    let q := exponentOf num den
    let (n, d) := scaled num den q
    let m := divideToEven n d
    let (m, q) := if m = 2 ^ precision then (2 ^ (52 : Nat), q + 1) else (m, q)
    if greatestExponent < q then .infinite negative else .finite negative m q

/-- The double nearest to `z · 2^q`; an exact zero takes the given sign. -/
def ofScaled (z : Int) (q : Int) (zeroNegative : Bool) : Double :=
  if z = 0 then zero zeroNegative
  else if 0 ≤ q then ofRatio (z < 0) (z.natAbs * 2 ^ q.toNat) 1
  else ofRatio (z < 0) z.natAbs (2 ^ (-q).toNat)

/-- The double nearest to an integer. -/
def ofInt (z : Int) : Double := ofRatio (z < 0) z.natAbs 1

/-- The double nearest to `± digits · 10^exponent`. Exponents far outside the range of finite doubles
are settled without computing the power. -/
def ofDecimal (negative : Bool) (digits : Nat) (exponent : Int) : Double :=
  if digits = 0 then zero negative
  else if 400 < exponent then .infinite negative
  else if exponent + ((digits.log2 / 3 + 1 : Nat) : Int) < -400 then zero negative
  else if 0 ≤ exponent then ofRatio negative (digits * 10 ^ exponent.toNat) 1
  else ofRatio negative digits (10 ^ (-exponent).toNat)

def isNegative : Double → Bool
  | .nan => false
  | .infinite negative => negative
  | .finite negative _ _ => negative

/-- True of `0.0` and `-0.0`. -/
def isZero : Double → Bool
  | .finite _ m _ => m == 0
  | _ => false

def negate : Double → Double
  | .nan => .nan
  | .infinite negative => .infinite (!negative)
  | .finite negative m q => .finite (!negative) m q

/-- The signed significand. -/
def signed (negative : Bool) (m : Nat) : Int := if negative then -(m : Int) else m

/-- The exact sum `x · 2^p + y · 2^q`, as a multiple of the smaller power of two. -/
def alignedSum (x : Int) (p : Int) (y : Int) (q : Int) : Int × Int :=
  if p ≤ q then (x + y * 2 ^ (q - p).toNat, p) else (x * 2 ^ (p - q).toNat + y, q)

/-- The sum, rounded once. Opposite infinities have no sum; an exact zero is positive unless both
operands are negative. -/
def add : Double → Double → Double
  | .nan, _ => .nan
  | _, .nan => .nan
  | .infinite a, .infinite b => if a = b then .infinite a else .nan
  | .infinite a, _ => .infinite a
  | _, .infinite b => .infinite b
  | .finite a m p, .finite b n q =>
    let (z, r) := alignedSum (signed a m) p (signed b n) q
    ofScaled z r (a && b)

/-- The difference, rounded once. -/
def sub (x y : Double) : Double := add x y.negate

/-- The product, rounded once. -/
def mul : Double → Double → Double
  | .nan, _ => .nan
  | _, .nan => .nan
  | .infinite a, y => if y.isZero then .nan else .infinite (a != y.isNegative)
  | x, .infinite b => if x.isZero then .nan else .infinite (x.isNegative != b)
  | .finite a m p, .finite b n q => ofScaled (signed (a != b) (m * n)) (p + q) (a != b)

/-- The quotient, rounded once; `none` when the divisor is zero. -/
def div? : Double → Double → Option Double
  | _, .finite _ 0 _ => none
  | .nan, _ => some .nan
  | _, .nan => some .nan
  | .infinite a, y => some (match y with
    | .infinite _ => .nan
    | _ => .infinite (a != y.isNegative))
  | x, .infinite b => some (zero (x.isNegative != b))
  | .finite a m p, .finite b n q =>
    let negative := a != b
    some (if 0 ≤ p - q then ofRatio negative (m * 2 ^ (p - q).toNat) n
      else ofRatio negative m (n * 2 ^ (q - p).toNat))

/-- Numeric order; false whenever an operand is not a number. -/
def lt : Double → Double → Bool
  | .nan, _ => false
  | _, .nan => false
  | .infinite a, .infinite b => a && !b
  | .infinite a, _ => a
  | _, .infinite b => !b
  | .finite a m p, .finite b n q => (alignedSum (signed a m) p (-signed b n) q).1 < 0

/-- Numeric equality: the two zeros are equal, and nothing equals not-a-number. -/
def same : Double → Double → Bool
  | .nan, _ => false
  | _, .nan => false
  | .finite a m p, .finite b n q => (alignedSum (signed a m) p (-signed b n) q).1 == 0
  | x, y => x == y

/-- Why a double has no integer part. -/
inductive NotFinite where
  | notANumber
  | infinite
  deriving DecidableEq, Repr

/-- The text of the failure. -/
def NotFinite.message : NotFinite → String
  | .notANumber => "cannot convert float NaN to integer"
  | .infinite => "cannot convert float infinity to integer"

/-- The greatest integer not above the value. -/
def floor : Double → Except NotFinite Int
  | .nan => .error .notANumber
  | .infinite _ => .error .infinite
  | .finite a m q =>
    .ok (if 0 ≤ q then signed a m * 2 ^ q.toNat else (signed a m).fdiv (2 ^ (-q).toNat))

/-- The integer part: the value cut toward zero. -/
def truncate : Double → Except NotFinite Int
  | .nan => .error .notANumber
  | .infinite _ => .error .infinite
  | .finite a m q =>
    .ok (if 0 ≤ q then signed a m * 2 ^ q.toNat else (signed a m).tdiv (2 ^ (-q).toNat))

/-- One half. -/
def half : Double := ofRatio false 1 2

/-- The nearest integer, a half going up: the floor of the value plus one half, where the sum is
itself a double. -/
def roundHalfUp (x : Double) : Except NotFinite Int := floor (add x half)

end Double

end RepoAudit
