/-!
# Tables of character properties

A property of characters is a list of ranges of scalar values, first and last included, in increasing
order. A case mapping is a list of runs: every `step`-th character of a range is moved by the same
distance.
-/

namespace RepoAudit.Text

/-- True when the scalar value lies in one of the ranges. -/
def inRanges (ranges : List (Nat × Nat)) (c : Char) : Bool :=
  ranges.any fun (first, last) => first ≤ c.toNat && c.toNat ≤ last

/-- A run of a case mapping: `first`, `first + step`, up to `last`, each moved by `shift`. -/
structure CaseRun where
  first : Nat
  last : Nat
  step : Nat
  shift : Int
  deriving DecidableEq, Repr

/-- True when the run moves the scalar value. -/
def CaseRun.covers (run : CaseRun) (n : Nat) : Bool :=
  run.first ≤ n && n ≤ run.last && (n - run.first) % run.step == 0

/-- The character that the first run covering `c` moves it to; `c` itself when no run does. -/
def applyRuns (runs : List CaseRun) (c : Char) : Char :=
  match runs.find? (·.covers c.toNat) with
  | some run => Char.ofNat ((c.toNat : Int) + run.shift).toNat
  | none => c

end RepoAudit.Text
