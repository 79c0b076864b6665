import Mathlib.Tactic.Common
import RepoAudit.Bytes.Utf8

/-!
# Text that was encoded

Every text is decoded as it was encoded. The cases are the four lengths of a character's octets; the first
continuation octet is in the range that its lead allows because no character is a surrogate, none is beyond
the last one, and each has the shortest form.
-/

namespace RepoAudit.Utf8

/-- A lead octet and all the continuation octets that it announces are a character. -/
lemma front_char {b : UInt8} {lead : Lead} {tail rest : List UInt8} (leads : lead? b = some lead)
    (fits : continuations lead.low lead.high lead.count (tail ++ rest) = tail)
    (length : tail.length = lead.count) :
    front b (tail ++ rest) = .char (Char.ofNat (scalarValue lead.bits tail)) := by
  simp [front, leads, fits, length]

lemma toNat_ofNat {n : Nat} (small : n < 256) : (UInt8.ofNat n).toNat = n := by
  simpa using Nat.mod_eq_of_lt small

lemma toNat_char {n : Nat} (valid : n.isValidChar) : (Char.ofNat n).toNat = n := by
  rw [Char.ofNat, dif_pos valid]
  rfl

/-- A continuation octet that fits is taken. -/
lemma continuations_cons {low high : UInt8} {n : Nat} (small : n < 256) (lower : low.toNat ≤ n)
    (upper : n ≤ high.toNat) (count : Nat) (rest : List UInt8) :
    continuations low high (count + 1) (UInt8.ofNat n :: rest) =
      UInt8.ofNat n :: continuations 0x80 0xBF count rest := by
  have within : low ≤ UInt8.ofNat n ∧ UInt8.ofNat n ≤ high := by
    simp only [UInt8.le_iff_toNat_le, toNat_ofNat small]
    exact ⟨lower, upper⟩
  simp [continuations, within]

lemma lead?_two {k : Nat} (least : 2 ≤ k) (small : k < 0x20) :
    lead? (UInt8.ofNat (k + 0xc0)) = some { bits := k, count := 1 } := by
  have bits : k + 0xc0 - 0xC0 = k := Nat.add_sub_cancel k _
  simp only [lead?, toNat_ofNat (show k + 0xc0 < 256 by omega), bits]
  rw [if_neg (by omega), if_neg (by omega), if_pos (by omega)]

lemma lead?_three {k : Nat} (small : k < 0x10) :
    lead? (UInt8.ofNat (k + 0xe0)) = some ⟨k, 2, if k = 0 then 0xA0 else 0x80, if k = 13 then 0x9F else 0xBF⟩ := by
  have bits : k + 0xe0 - 0xE0 = k := Nat.add_sub_cancel k _
  simp only [lead?, toNat_ofNat (show k + 0xe0 < 256 by omega), bits]
  rw [if_neg (by omega), if_neg (by omega), if_neg (by omega)]
  by_cases first : k = 0
  · simp [first]
  by_cases surrogate : k = 13
  · simp [surrogate]
  rw [if_neg (by omega), if_neg (by omega), if_pos (by omega), if_neg first, if_neg surrogate]

lemma lead?_four {k : Nat} (small : k ≤ 4) :
    lead? (UInt8.ofNat (k + 0xf0)) = some ⟨k, 3, if k = 0 then 0x90 else 0x80, if k = 4 then 0x8F else 0xBF⟩ := by
  have bits : k + 0xf0 - 0xF0 = k := Nat.add_sub_cancel k _
  simp only [lead?, toNat_ofNat (show k + 0xf0 < 256 by omega), bits]
  rw [if_neg (by omega), if_neg (by omega), if_neg (by omega), if_neg (by omega), if_neg (by omega),
    if_neg (by omega)]
  by_cases first : k = 0
  · simp [first]
  by_cases last : k = 4
  · simp [last]
  rw [if_neg (by omega), if_pos (by omega), if_neg first, if_neg last]

/-- The octets of the character with a scalar value. -/
def octetsOf (n : Nat) : List UInt8 :=
  if n ≤ 0x7f then [UInt8.ofNat n]
  else if n ≤ 0x7ff then [UInt8.ofNat (n / 64 % 0x20 + 0xc0), UInt8.ofNat (n % 0x40 + 0x80)]
  else if n ≤ 0xffff then
    [UInt8.ofNat (n / 4096 % 0x10 + 0xe0), UInt8.ofNat (n / 64 % 0x40 + 0x80), UInt8.ofNat (n % 0x40 + 0x80)]
  else
    [UInt8.ofNat (n / 262144 % 0x08 + 0xf0), UInt8.ofNat (n / 4096 % 0x40 + 0x80), UInt8.ofNat (n / 64 % 0x40 + 0x80),
      UInt8.ofNat (n % 0x40 + 0x80)]

lemma encodeChar_eq (c : Char) : String.utf8EncodeChar c = octetsOf c.toNat := rfl

/-- The octets of a character are a lead octet and what it announces. -/
lemma front_encodeChar (c : Char) (rest : List UInt8) :
    ∃ b tail, String.utf8EncodeChar c = b :: tail ∧ front b (tail ++ rest) = .char c := by
  have valid : c.toNat < 0xD800 ∨ 0xDFFF < c.toNat ∧ c.toNat < 0x110000 := c.valid
  have is {k : Nat} (same : k = c.toNat) : Char.ofNat k = c := by rw [same, Char.ofNat_toNat]
  rw [encodeChar_eq]
  generalize c.toNat = n at valid is ⊢
  have last (rest : List UInt8) : continuations 0x80 0xBF 1 (UInt8.ofNat (n % 0x40 + 0x80) :: rest) =
      [UInt8.ofNat (n % 0x40 + 0x80)] :=
    continuations_cons (by omega) (by simp) (by simp; omega) 0 rest
  unfold octetsOf
  split_ifs with one two three
  · refine ⟨_, [], rfl, ?_⟩
    have leads : lead? (UInt8.ofNat n) = some { bits := n, count := 0 } := by
      have small : n < 0x80 := by omega
      simp [lead?, toNat_ofNat (show n < 256 by omega), small]
    rw [front_char leads rfl rfl]
    exact congrArg Piece.char (is rfl)
  · refine ⟨_, [_], rfl, ?_⟩
    rw [front_char (lead?_two (by omega) (by omega)) (last rest) rfl]
    refine congrArg Piece.char (is ?_)
    simp only [scalarValue, List.foldl_cons, List.foldl_nil]
    rw [toNat_ofNat (by omega)]
    omega
  · refine ⟨_, [_, _], rfl, ?_⟩
    rw [front_char (lead?_three (by omega)) ?_ rfl]
    · refine congrArg Piece.char (is ?_)
      simp only [scalarValue, List.foldl_cons, List.foldl_nil]
      rw [toNat_ofNat (by omega), toNat_ofNat (by omega)]
      omega
    · refine (continuations_cons (by omega) ?_ ?_ 1 _).trans (congrArg _ (last rest))
      · split_ifs <;> simp <;> omega
      · split_ifs <;> simp <;> omega
  · refine ⟨_, [_, _, _], rfl, ?_⟩
    rw [front_char (lead?_four (by omega)) ?_ rfl]
    · refine congrArg Piece.char (is ?_)
      simp only [scalarValue, List.foldl_cons, List.foldl_nil]
      rw [toNat_ofNat (by omega), toNat_ofNat (by omega), toNat_ofNat (by omega)]
      omega
    · refine (continuations_cons (by omega) ?_ ?_ 2 _).trans (congrArg _ ?_)
      · split_ifs <;> simp <;> omega
      · split_ifs <;> simp <;> omega
      · exact (continuations_cons (by omega) (by simp) (by simp; omega) 1 _).trans
          (congrArg _ (last rest))

/-- The octets after a character are skipped with it. -/
lemma piecesFrom_append (skipped rest : List UInt8) :
    piecesFrom skipped.length (skipped ++ rest) = piecesFrom 0 rest := by
  induction skipped with
  | nil => rfl
  | cons b skipped ih => exact ih

/-- A piece with the octets that it takes up. -/
lemma pieces_cons {b : UInt8} {tail rest : List UInt8} {piece : Piece} (begins : front b (tail ++ rest) = piece)
    (length : piece.length = tail.length + 1) : pieces (b :: (tail ++ rest)) = piece :: pieces rest := by
  have skips : piece.length - 1 = tail.length := by omega
  rw [pieces, piecesFrom, begins]
  show piece :: piecesFrom (piece.length - 1) (tail ++ rest) = _
  rw [skips, piecesFrom_append]
  rfl

lemma pieces_char (c : Char) (rest : List UInt8) :
    pieces (String.utf8EncodeChar c ++ rest) = .char c :: pieces rest := by
  obtain ⟨b, tail, octets, begins⟩ := front_encodeChar c rest
  have length : c.utf8Size = tail.length + 1 := by
    rw [← String.length_utf8EncodeChar, octets]
    rfl
  rw [octets, List.cons_append]
  exact pieces_cons begins length

lemma pieces_encode (text : List Char) : pieces (encode text) = text.map .char := by
  induction text with
  | nil => rfl
  | cons c text ih =>
    rw [encode, List.flatMap_cons, pieces_char]
    exact congrArg _ ih

/-- Nothing is replaced in a text that was encoded. -/
lemma decodeReplacing_encode (text : List Char) : decodeReplacing (encode text) = text := by
  rw [decodeReplacing, decodeWith, pieces_encode, List.flatMap_map]
  exact List.flatMap_singleton' text

/-- A text is decoded as it was encoded. -/
theorem decode_encode (text : List Char) : decode (encode text) = .ok text := by
  have chars (octets : List UInt8) : ∀ (text : List Char) (start : Nat),
      charsOf octets start (text.map .char) = .ok text := by
    intro text
    induction text with
    | nil => exact fun _ => rfl
    | cons c text ih =>
      intro start
      rw [List.map_cons, charsOf, ih]
      rfl
  rw [decode, pieces_encode]
  exact chars _ text 0

end RepoAudit.Utf8
