import RepoAudit.Bytes.Percent
import RepoAudit.Proofs.Bytes.Utf8
import RepoAudit.Proofs.Text.Basic

/-!
# Segments of an address

A text that is written as a segment is read back from it, and no character of the segment separates parts of an
address. A path is written piece by piece: its slashes stay, and each piece between them is a segment.
-/

namespace RepoAudit.Percent

/-- The written form of a text as one segment. -/
def written (text : List Char) : List Char := encodeOctets [] (Utf8.encode text)

lemma toList_segment (text : String) : (segment text).toList = written text.toList := by
  rw [segment, String.toList_ofList, Utf8.encodeText_eq]
  rfl

/-! ### Reading what was written -/

lemma hexValue?_hexDigit {n : Nat} (small : n < 16) : Text.hexValue? (hexDigit n) = some n := by
  have all : ∀ n < 16, Text.hexValue? (hexDigit n) = some n := by decide
  exact all n small

lemma decodeOctets_escape (b : UInt8) (rest : List Char) :
    decodeOctets (escape b ++ rest) = b :: decodeOctets rest := by
  have bound := b.toNat_lt
  have whole : b.toNat / 16 * 16 + b.toNat % 16 = b.toNat := Nat.div_add_mod' _ _
  rw [escape, List.cons_append, List.cons_append, List.cons_append, List.nil_append, decodeOctets,
    hexValue?_hexDigit (by omega), hexValue?_hexDigit (by omega)]
  simp only [whole, UInt8.ofNat_toNat]

lemma toNat_ascii {b : UInt8} (ascii : b.toNat < 128) : (Char.ofNat b.toNat).toNat = b.toNat :=
  Utf8.toNat_char (.inl (by omega))

/-- An ASCII octet stands for itself, except the percent sign. -/
lemma decodeOctets_plain {b : UInt8} (ascii : b.toNat < 128) (other : b ≠ 37) (rest : List Char) :
    decodeOctets (Char.ofNat b.toNat :: rest) = b :: decodeOctets rest := by
  have value := toNat_ascii ascii
  have octets : String.utf8EncodeChar (Char.ofNat b.toNat) = [b] := by
    rw [Utf8.encodeChar_eq, value, Utf8.octetsOf, if_pos (by omega), UInt8.ofNat_toNat]
  rw [decodeOctets, octets]
  · rfl
  · rintro - - - percent -
    rw [percent] at value
    exact other (UInt8.toNat_inj.mp value.symm)

lemma ascii_of_isUnreserved {b : UInt8} (unreserved : isUnreserved b = true) : b.toNat < 128 ∧ b ≠ 37 := by
  constructor
  · simp only [isUnreserved, Bool.or_eq_true, Bool.and_eq_true, decide_eq_true_eq, beq_iff_eq] at unreserved
    omega
  · rintro rfl
    cases unreserved

lemma decodeOctets_encodeOctets {safe : List UInt8} (marks : ∀ b ∈ safe, b.toNat < 128 ∧ b ≠ 37) (octets : List UInt8) :
    decodeOctets (encodeOctets safe octets) = octets := by
  induction octets with
  | nil => rfl
  | cons b octets ih =>
    rw [encodeOctets, List.flatMap_cons]
    by_cases plain : (isUnreserved b || safe.contains b) = true
    · have ascii : b.toNat < 128 ∧ b ≠ 37 := by
        rcases Bool.or_eq_true_iff.mp plain with unreserved | mark
        · exact ascii_of_isUnreserved unreserved
        · exact marks b (List.contains_iff_mem.mp mark)
      rw [if_pos plain]
      exact (decodeOctets_plain ascii.1 ascii.2 _).trans (congrArg _ ih)
    · rw [if_neg plain, decodeOctets_escape]
      exact congrArg _ ih

/-- A text is read from its segment. -/
lemma decode_written (text : List Char) : decode (written text) = text := by
  rw [decode, written, decodeOctets_encodeOctets (by simp), Utf8.decodeReplacing_encode]

/-! ### What stands in a segment -/

/-- True of the characters of segments: letters, digits, four marks and the percent sign. -/
def isSegmentChar (c : Char) : Bool := c.isAlphanum || c == '-' || c == '.' || c == '_' || c == '~' || c == '%'

lemma isSegmentChar_hexDigit {n : Nat} (small : n < 16) : isSegmentChar (hexDigit n) = true := by
  have all : ∀ n < 16, isSegmentChar (hexDigit n) = true := by decide
  exact all n small

lemma isSegmentChar_of_isUnreserved {b : UInt8} (unreserved : isUnreserved b = true) :
    isSegmentChar (Char.ofNat b.toNat) = true := by
  have all : ∀ n < 128, isUnreserved (UInt8.ofNat n) = true → isSegmentChar (Char.ofNat n) = true := by decide
  refine all b.toNat (ascii_of_isUnreserved unreserved).1 ?_
  rwa [UInt8.ofNat_toNat]

lemma isSegmentChar_of_mem_written {text : List Char} {c : Char} (member : c ∈ written text) :
    isSegmentChar c = true := by
  obtain ⟨b, -, member⟩ := List.mem_flatMap.mp member
  have bound := b.toNat_lt
  split_ifs at member with plain
  · have unreserved : isUnreserved b = true := by simpa using plain
    rw [List.mem_singleton.mp member]
    exact isSegmentChar_of_isUnreserved unreserved
  · simp only [escape, List.mem_cons, List.not_mem_nil, or_false] at member
    rcases member with rfl | rfl | rfl
    · rfl
    · exact isSegmentChar_hexDigit (by omega)
    · exact isSegmentChar_hexDigit (by omega)

lemma notMem_written {c : Char} (other : isSegmentChar c = false) (text : List Char) : c ∉ written text :=
  fun member => Bool.false_ne_true (other.symm.trans (isSegmentChar_of_mem_written member))

lemma isBlank_of_isSegmentChar {c : Char} (plain : isSegmentChar c = true) : Text.isBlank c = false := by
  simp only [isSegmentChar, Bool.or_eq_true, beq_iff_eq] at plain
  rcases plain with ((((letter | rfl) | rfl) | rfl) | rfl) | rfl
  · exact Text.isBlank_of_isAlphanum letter
  all_goals rfl

/-! ### Paths -/

/-- An ASCII octet of a character is the only one. -/
lemma toNat_of_mem_encodeChar {b : UInt8} {c : Char} (member : b ∈ String.utf8EncodeChar c) (ascii : b.toNat < 128) :
    c.toNat = b.toNat := by
  rw [Utf8.encodeChar_eq, Utf8.octetsOf] at member
  split_ifs at member with one two three
  · rw [List.mem_singleton.mp member, Utf8.toNat_ofNat (by omega)]
  · simp only [List.mem_cons, List.not_mem_nil, or_false] at member
    rcases member with rfl | rfl <;> rw [Utf8.toNat_ofNat (by omega)] at ascii <;> omega
  · simp only [List.mem_cons, List.not_mem_nil, or_false] at member
    rcases member with rfl | rfl | rfl <;> rw [Utf8.toNat_ofNat (by omega)] at ascii <;> omega
  · simp only [List.mem_cons, List.not_mem_nil, or_false] at member
    rcases member with rfl | rfl | rfl | rfl <;> rw [Utf8.toNat_ofNat (by omega)] at ascii <;> omega

lemma encodeOctets_of_notMem {piece : List Char} (single : '/' ∉ piece) :
    encodeOctets [47] (Utf8.encode piece) = written piece := by
  refine List.flatMap_congr fun b member => ?_
  have other : b ≠ 47 := by
    rintro rfl
    obtain ⟨c, listed, octet⟩ := List.mem_flatMap.mp member
    have slash : c = '/' := Char.toNat_inj.mp (toNat_of_mem_encodeChar octet (by decide))
    exact single (slash ▸ listed)
  simp [other]

/-- A path is written as its pieces with slashes between them. -/
lemma toList_path (text : List Char) :
    (path text).toList = ['/'].intercalate ((Text.splitOn '/' text).map written) := by
  rw [path, String.toList_ofList]
  induction text using Text.piece_induction '/' with
  | last piece single =>
    rw [Text.splitOn_single single, encodeOctets_of_notMem single]
    simp
  | more piece rest single ih =>
    have octets : Utf8.encode (piece ++ '/' :: rest) = Utf8.encode piece ++ 47 :: Utf8.encode rest :=
      List.flatMap_append
    have parts : encodeOctets [47] (Utf8.encode (piece ++ '/' :: rest)) =
        encodeOctets [47] (Utf8.encode piece) ++ '/' :: encodeOctets [47] (Utf8.encode rest) := by
      rw [octets]
      exact List.flatMap_append
    rw [parts, encodeOctets_of_notMem single, ih, Text.splitOn_append_separator single, List.map_cons]
    cases is : Text.splitOn '/' rest with
    | nil => exact absurd is (Text.splitOn_ne_nil '/' rest)
    | cons first others =>
      rw [List.map_cons, List.intercalate_cons_cons, List.append_assoc, List.singleton_append]

end RepoAudit.Percent
