/-!
# Base 64

Three octets are written as four digits of six bits. The reader skips characters that are no digits, so
lines may be broken anywhere, and stops at the padding that completes a group of four.
-/

namespace RepoAudit.Base64

/-- The value of a digit. -/
def value? (c : Char) : Option Nat :=
  let n := c.toNat
  if 'A' ≤ c ∧ c ≤ 'Z' then some (n - 65)
  else if 'a' ≤ c ∧ c ≤ 'z' then some (n - 71)
  else if '0' ≤ c ∧ c ≤ '9' then some (n + 4)
  else if c = '+' then some 62
  else if c = '/' then some 63
  else none

/-- The character of a digit. -/
def digit (n : Nat) : Char :=
  if n < 26 then Char.ofNat (n + 65)
  else if n < 52 then Char.ofNat (n + 71)
  else if n < 62 then Char.ofNat (n - 4)
  else if n = 62 then '+'
  else '/'

/-- Why a text cannot be read. -/
inductive Problem where
  /-- A character is not ASCII. -/
  | notAscii
  /-- The last group is incomplete. -/
  | incomplete
  deriving DecidableEq, Repr

/-- How far a group of four digits is: the digits so far, and the bits that no octet holds yet. -/
inductive Group where
  | empty
  | one (bits : Nat)
  | two (bits : Nat)
  | three (bits : Nat)
  deriving DecidableEq, Repr

/-- Adds a digit to a group: the octet that it completes, if any, and the group after it. -/
def Group.add (d : Nat) : Group → Option UInt8 × Group
  | empty => (none, one d)
  | one bits => (some (UInt8.ofNat (bits * 4 + d / 16)), two (d % 16))
  | two bits => (some (UInt8.ofNat (bits * 16 + d / 4)), three (d % 4))
  | three bits => (some (UInt8.ofNat (bits * 64 + d)), empty)

/-- True when so many paddings in a row complete the group. -/
def Group.isPadded (pads : Nat) : Group → Bool
  | empty => false
  | one _ => false
  | two _ => 2 ≤ pads
  | three _ => 1 ≤ pads

/-- The number of paddings in a row after one more: paddings count only in the second half of a
group. -/
def Group.pad (pads : Nat) : Group → Nat
  | empty => pads
  | one _ => pads
  | two _ => pads + 1
  | three _ => pads + 1

/-- The octets of the rest of a text. -/
def decodeFrom (group : Group) (pads : Nat) : List Char → Option (List UInt8)
  | [] => if group = .empty then some [] else none
  | c :: rest =>
    if c = '=' then
      let pads := group.pad pads
      if group.isPadded pads then some [] else decodeFrom group pads rest
    else
      match value? c with
      | none => decodeFrom group pads rest
      | some d =>
        match group.add d with
        | (none, next) => decodeFrom next 0 rest
        | (some octet, next) => (decodeFrom next 0 rest).map (octet :: ·)

/-- The octets that a text stands for. -/
def decode (text : List Char) : Except Problem (List UInt8) :=
  if text.any (127 < ·.toNat) then .error .notAscii
  else match decodeFrom .empty 0 text with
    | some octets => .ok octets
    | none => .error .incomplete

/-- The digits of octets, with paddings at the end. -/
def encode : List UInt8 → List Char
  | [] => []
  | [a] => [digit (a.toNat / 4), digit (a.toNat % 4 * 16), '=', '=']
  | [a, b] =>
    [digit (a.toNat / 4), digit (a.toNat % 4 * 16 + b.toNat / 16), digit (b.toNat % 16 * 4), '=']
  | a :: b :: c :: rest =>
    digit (a.toNat / 4) :: digit (a.toNat % 4 * 16 + b.toNat / 16) ::
      digit (b.toNat % 16 * 4 + c.toNat / 64) :: digit (c.toNat % 64) :: encode rest

end RepoAudit.Base64
