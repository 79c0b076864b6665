import RepoAudit.Store.Record

/-!
# The order of audits

Audits are listed in the order of their creation, those of one moment in the order in which they are
kept. A moment is a text; records from elsewhere may hold other values, which are ordered as far as
values of their kinds can be.
-/

namespace RepoAudit

/-- Two kinds of values that have no order. -/
structure Incomparable where
  left : String
  right : String
  deriving DecidableEq, Repr

/-- The text of the failure. -/
def Incomparable.message (e : Incomparable) : String :=
  "'<' not supported between instances of '" ++ e.left ++ "' and '" ++ e.right ++ "'"

namespace Json

/-- A number: an integer, for which a truth value may stand, or a double. -/
def number? : Json → Option (Int ⊕ Double)
  | .bool b => some (.inl (if b then 1 else 0))
  | .integer n => some (.inl n)
  | .double x => some (.inr x)
  | _ => none

/-- The order of an integer and a double, which is exact: true when the sum of the integer and the
double's negation is below zero. -/
def integerBelow (n : Int) : Double → Bool
  | .nan => false
  | .infinite negative => !negative
  | .finite negative m q => (Double.alignedSum n 0 (-Double.signed negative m) q).1 < 0

/-- The order of a double and an integer. -/
def belowInteger : Double → Int → Bool
  | .nan, _ => false
  | .infinite negative, _ => negative
  | .finite negative m q, n => (Double.alignedSum (Double.signed negative m) q (-n) 0).1 < 0

/-- The order of numbers. -/
def numberBelow : Int ⊕ Double → Int ⊕ Double → Bool
  | .inl a, .inl b => a < b
  | .inl a, .inr y => integerBelow a y
  | .inr x, .inl b => belowInteger x b
  | .inr x, .inr y => Double.lt x y

/-- True when a value comes before another one. -/
def precedes (a b : Json) : Except Incomparable Bool :=
  match a, b with
  | .text s, .text t => .ok (decide (s < t))
  | .array xs, .array ys => arraysPrecede xs ys
  | _, _ =>
    match a.number?, b.number? with
    | some x, some y => .ok (numberBelow x y)
    | _, _ => .error ⟨a.kindName, b.kindName⟩
where
  /-- The first items that differ decide; without any the shorter array comes first. -/
  arraysPrecede : List Json → List Json → Except Incomparable Bool
  | [], ys => .ok !ys.isEmpty
  | _, [] => .ok false
  | x :: xs, y :: ys => if x.literal == y.literal then arraysPrecede xs ys else precedes x y

end Json

/-- The number of further items that continue a run: each comes before the last one, or none does. -/
def runLength {α : Type} (below : α → α → Except Incomparable Bool) (falling : Bool) (last : α) :
    List α → Except Incomparable Nat
  | [] => .ok 0
  | item :: rest => do
    if (← below item last) == falling then
      return (← runLength below falling item rest) + 1
    else return 0

/-- The place of an item among ordered ones, after those that are equal to it, found by halving. -/
def placeOf {α : Type} (below : α → α → Except Incomparable Bool) (ordered : Array α) (item : α) :
    Nat → Nat → Nat → Except Incomparable Nat
  | 0, low, _ => .ok low
  | steps + 1, low, high =>
    if low < high then
      let middle := low + (high - low) / 2
      match ordered[middle]? with
      | none => .ok low
      | some other => do
        if ← below item other then placeOf below ordered item steps low middle
        else placeOf below ordered item steps (middle + 1) high
    else .ok low

/-- Orders items: the run at the head is taken as it is, or turned around when it falls, and every
further item is put in its place. -/
def sortItems {α : Type} (below : α → α → Except Incomparable Bool) :
    List α → Except Incomparable (List α)
  | [] => .ok []
  | [item] => .ok [item]
  | first :: second :: rest => do
    let falling ← below second first
    let more ← runLength below falling second rest
    let run := first :: second :: rest.take more
    let start := (if falling then run.reverse else run).toArray
    let ordered ← (rest.drop more).foldlM (fun ordered item => do
      let place ← placeOf below ordered item (ordered.size + 1) 0 ordered.size
      return (ordered.toList.insertIdx place item).toArray) start
    return ordered.toList

/-- True when the first of two audits was not created after the second. -/
def notAfter (a b : String × AuditRecord) : Bool := decide (a.1 ≤ b.1)

/-- The audits in the order of their creation. -/
def orderAudits (audits : List AuditRecord) : Except Incomparable (List AuditRecord) :=
  match audits.mapM fun audit => audit.createdAt.text?.map (·, audit) with
  | some dated => .ok ((dated.mergeSort notAfter).map (·.2))
  | none => sortItems (fun a b => a.createdAt.precedes b.createdAt) audits

end RepoAudit
