import Mathlib.Tactic.Common
import RepoAudit.Bytes.Base64

/-!
# Octets that were sent in base 64

Octets are read as they were written, however the digits and the paddings are broken into lines. The cases are the
full group of three octets and the two rests that paddings fill up: the bits that an octet leaves over are the high
bits of the next digit.
-/

namespace RepoAudit.Base64

/-- True of the characters that end lines. -/
def isBreak (c : Char) : Bool := c == '\n' || c == '\r'

/-- The text on one line. -/
def unbroken (text : List Char) : List Char := text.filter fun c => !isBreak c

/-! ### Digits -/

lemma value?_digit {n : Nat} (small : n < 64) : value? (digit n) = some n := by
  have all : ∀ n < 64, value? (digit n) = some n := by decide
  exact all n small

lemma digit_ne_padding {n : Nat} (small : n < 64) : digit n ≠ '=' := by
  intro same
  have value := value?_digit small
  rw [same] at value
  cases value

lemma digit_ascii {n : Nat} (small : n < 64) : (digit n).toNat ≤ 127 := by
  have all : ∀ n < 64, (digit n).toNat ≤ 127 := by decide
  exact all n small

section

variable {pads bits n : Nat} {rest : List Char}

/-- What the next digit of a group does. -/
lemma decodeFrom_digit {group : Group} (small : n < 64) :
    decodeFrom group pads (digit n :: rest) = match group.add n with
      | (none, next) => decodeFrom next 0 rest
      | (some octet, next) => (decodeFrom next 0 rest).map (octet :: ·) := by
  cases adds : group.add n with
  | mk octet next => cases octet <;> simp [decodeFrom, digit_ne_padding small, value?_digit small, adds]

lemma decodeFrom_opening (small : n < 64) :
    decodeFrom .empty pads (digit n :: rest) = decodeFrom (.one n) 0 rest :=
  decodeFrom_digit small

lemma ofNat_eq {a : UInt8} (same : n = a.toNat) : UInt8.ofNat n = a := by
  rw [same, UInt8.ofNat_toNat]

/-- Two digits begin a group: they hold the first octet and the high bits of the second. -/
lemma decodeFrom_first (a : UInt8) (bits : Nat) (small : bits < 16) :
    decodeFrom .empty pads (digit (a.toNat / 4) :: digit (a.toNat % 4 * 16 + bits) :: rest) =
      (decodeFrom (.two bits) 0 rest).map (a :: ·) := by
  have bound := a.toNat_lt
  have octet : UInt8.ofNat (a.toNat / 4 * 4 + (a.toNat % 4 * 16 + bits) / 16) = a := ofNat_eq (by omega)
  have left : (a.toNat % 4 * 16 + bits) % 16 = bits := by omega
  rw [decodeFrom_opening (by omega), decodeFrom_digit (by omega), Group.add, octet, left]

/-- The third digit holds the low bits of the second octet and the high bits of the third. -/
lemma decodeFrom_second (b : UInt8) (bits : Nat) (small : bits < 4) :
    decodeFrom (.two (b.toNat / 16)) pads (digit (b.toNat % 16 * 4 + bits) :: rest) =
      (decodeFrom (.three bits) 0 rest).map (b :: ·) := by
  have bound := b.toNat_lt
  have octet : UInt8.ofNat (b.toNat / 16 * 16 + (b.toNat % 16 * 4 + bits) / 4) = b := ofNat_eq (by omega)
  have left : (b.toNat % 16 * 4 + bits) % 4 = bits := by omega
  rw [decodeFrom_digit (by omega), Group.add, octet, left]

lemma decodeFrom_third (c : UInt8) :
    decodeFrom (.three (c.toNat / 64)) pads (digit (c.toNat % 64) :: rest) =
      (decodeFrom .empty 0 rest).map (c :: ·) := by
  have octet : UInt8.ofNat (c.toNat / 64 * 64 + c.toNat % 64) = c := ofNat_eq (by omega)
  rw [decodeFrom_digit (by omega), Group.add, octet]

end

lemma decodeFrom_encode (pads : Nat) (octets : List UInt8) : decodeFrom .empty pads (encode octets) = some octets := by
  induction octets using encode.induct generalizing pads with
  | case1 => rfl
  | case2 a =>
    -- The missing octets count as zeros in the digit before the paddings.
    exact (decodeFrom_first a 0 (by omega)).trans rfl
  | case3 a b =>
    have bound := b.toNat_lt
    rw [encode, decodeFrom_first a _ (by omega)]
    exact congrArg (Option.map _) ((decodeFrom_second b 0 (by omega)).trans rfl)
  | case4 a b c rest ih =>
    have bound := b.toNat_lt
    have bound' := c.toNat_lt
    rw [encode, decodeFrom_first a _ (by omega), decodeFrom_second b _ (by omega), decodeFrom_third, ih]
    rfl

lemma ascii_of_mem_encode {octets : List UInt8} {c : Char} (member : c ∈ encode octets) : c.toNat ≤ 127 := by
  have padding : '='.toNat ≤ 127 := by decide
  induction octets using encode.induct with
  | case1 => cases member
  | case2 a =>
    have bound := a.toNat_lt
    simp only [encode, List.mem_cons, List.not_mem_nil, or_false] at member
    rcases member with rfl | rfl | rfl | rfl
    · exact digit_ascii (by omega)
    · exact digit_ascii (by omega)
    · exact padding
    · exact padding
  | case3 a b =>
    have bound := a.toNat_lt
    have bound' := b.toNat_lt
    simp only [encode, List.mem_cons, List.not_mem_nil, or_false] at member
    rcases member with rfl | rfl | rfl | rfl
    · exact digit_ascii (by omega)
    · exact digit_ascii (by omega)
    · exact digit_ascii (by omega)
    · exact padding
  | case4 a b c rest ih =>
    have bound := a.toNat_lt
    have bound' := b.toNat_lt
    have bound'' := c.toNat_lt
    simp only [encode, List.mem_cons] at member
    rcases member with rfl | rfl | rfl | rfl | later
    · exact digit_ascii (by omega)
    · exact digit_ascii (by omega)
    · exact digit_ascii (by omega)
    · exact digit_ascii (by omega)
    · exact ih later

/-! ### Lines -/

lemma decodeFrom_break {c : Char} (ends : isBreak c = true) (group : Group) (pads : Nat) (rest : List Char) :
    decodeFrom group pads (c :: rest) = decodeFrom group pads rest := by
  simp only [isBreak, Bool.or_eq_true, beq_iff_eq] at ends
  rcases ends with rfl | rfl
  · rfl
  · rfl

lemma decodeFrom_unbroken (group : Group) (pads : Nat) (text : List Char) :
    decodeFrom group pads (unbroken text) = decodeFrom group pads text := by
  induction text generalizing group pads with
  | nil => rfl
  | cons c text ih =>
    by_cases ends : isBreak c = true
    · have dropped : unbroken (c :: text) = unbroken text := List.filter_cons_of_neg (by simp [ends])
      rw [dropped, decodeFrom_break ends, ih]
    · have kept : unbroken (c :: text) = c :: unbroken text := List.filter_cons_of_pos (by simpa using ends)
      rw [kept]
      simp only [decodeFrom, ih]

/-- Octets are read as they were written, wherever lines end. -/
theorem decode_of_unbroken {text : List Char} {octets : List UInt8} (written : unbroken text = encode octets) :
    decode text = .ok octets := by
  have ascii : text.any (127 < ·.toNat) = false := by
    rw [List.any_eq_false]
    intro c member
    rw [decide_eq_true_eq, Nat.not_lt]
    by_cases ends : isBreak c = true
    · simp only [isBreak, Bool.or_eq_true, beq_iff_eq] at ends
      rcases ends with rfl | rfl <;> decide
    · have kept : c ∈ unbroken text := List.mem_filter.mpr ⟨member, by simpa using ends⟩
      rw [written] at kept
      exact ascii_of_mem_encode kept
  rw [decode, ascii, ← decodeFrom_unbroken, written, decodeFrom_encode]
  rfl

/-- Seven octets, of which the last leaves two paddings. -/
example : encode [102, 111, 111, 98, 97, 114, 33] = "Zm9vYmFyIQ==".toList := by decide

end RepoAudit.Base64
