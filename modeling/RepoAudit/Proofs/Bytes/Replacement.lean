import Mathlib.Data.List.Basic
import RepoAudit.Proofs.Bytes.Utf8

/-!
# Octets that are no text

Where octets encode no character, decoding puts a replacement. The octets of the characters alone tell what one
replacement stands for (`Broken`): the longest piece with which the octets of a character begin, or one octet if none
begins with it. Every list of octets has just one text under this rule (`Replaced`), and this is the text that decoding
gives.
-/

namespace RepoAudit.Utf8

/-- The octets of some character begin with these. -/
def Begins (octets : List UInt8) : Prop := ∃ c, octets <+: String.utf8EncodeChar c

/-- Octets for which one replacement stands when `rest` follows them. -/
inductive Broken (rest : List UInt8) : List UInt8 → Prop where
  /-- No character begins with the octet. -/
  | stray {b : UInt8} (none : ¬ Begins [b]) : Broken rest [b]
  /-- A character begins so, but it does not go on. -/
  | cut {b : UInt8} {tail : List UInt8} (begins : Begins (b :: tail))
      (part : ∀ c, String.utf8EncodeChar c ≠ b :: tail)
      (ends : ∀ next more, rest = next :: more → ¬ Begins (b :: (tail ++ [next]))) : Broken rest (b :: tail)

/-- A text of octets, with replacements for what is broken. -/
inductive Replaced : List UInt8 → List Char → Prop where
  | nil : Replaced [] []
  | char {octets : List UInt8} {text : List Char} (c : Char) (rest : Replaced octets text) :
      Replaced (String.utf8EncodeChar c ++ octets) (c :: text)
  | defect {broken octets : List UInt8} {text : List Char} (is : Broken octets broken) (rest : Replaced octets text) :
      Replaced (broken ++ octets) (replacementChar :: text)

/-! ### Leads and what they announce -/

/-- What the lead octets of each length announce. -/
inductive Leads : UInt8 → Lead → Prop where
  | one {n : Nat} (small : n < 0x80) : Leads (UInt8.ofNat n) { bits := n, count := 0 }
  | two {k : Nat} (least : 2 ≤ k) (small : k < 0x20) : Leads (UInt8.ofNat (k + 0xc0)) { bits := k, count := 1 }
  | three {k : Nat} (small : k < 0x10) :
      Leads (UInt8.ofNat (k + 0xe0)) ⟨k, 2, if k = 0 then 0xA0 else 0x80, if k = 13 then 0x9F else 0xBF⟩
  | four {k : Nat} (small : k ≤ 4) :
      Leads (UInt8.ofNat (k + 0xf0)) ⟨k, 3, if k = 0 then 0x90 else 0x80, if k = 4 then 0x8F else 0xBF⟩

lemma leads_of_lead? {b : UInt8} {lead : Lead} (leads : lead? b = some lead) : Leads b lead := by
  obtain ⟨n, small, rfl⟩ : ∃ n < 256, b = UInt8.ofNat n := ⟨b.toNat, b.toNat_lt, UInt8.ofNat_toNat.symm⟩
  rcases Nat.lt_or_ge n 0x80 with one | past
  · have is : lead? (UInt8.ofNat n) = some { bits := n, count := 0 } := by
      simp [lead?, toNat_ofNat small, one]
    obtain rfl := Option.some.inj (is.symm.trans leads)
    exact .one one
  rcases Nat.lt_or_ge n 0xC2 with stray | past'
  · have is : lead? (UInt8.ofNat n) = none := by
      simp only [lead?, toNat_ofNat small]
      rw [if_neg (by omega), if_pos stray]
    cases is.symm.trans leads
  rcases Nat.lt_or_ge n 0xE0 with two | past
  · obtain ⟨k, rfl⟩ := Nat.exists_eq_add_of_le' (show 0xc0 ≤ n by omega)
    obtain rfl := Option.some.inj ((lead?_two (by omega) (by omega)).symm.trans leads)
    exact .two (by omega) (by omega)
  rcases Nat.lt_or_ge n 0xF0 with three | past'
  · obtain ⟨k, rfl⟩ := Nat.exists_eq_add_of_le' past
    obtain rfl := Option.some.inj ((lead?_three (by omega)).symm.trans leads)
    exact .three (by omega)
  rcases Nat.lt_or_ge n 0xF5 with four | past
  · obtain ⟨k, rfl⟩ := Nat.exists_eq_add_of_le' past'
    obtain rfl := Option.some.inj ((lead?_four (by omega)).symm.trans leads)
    exact .four (by omega)
  · have is : lead? (UInt8.ofNat n) = none := by
      simp only [lead?, toNat_ofNat small]
      rw [if_neg (by omega), if_neg (by omega), if_neg (by omega), if_neg (by omega), if_neg (by omega),
        if_neg (by omega), if_neg (by omega), if_neg (by omega), if_neg (by omega)]
    cases is.symm.trans leads

/-- Continuation octets, the first of them in a range. -/
inductive Fits : UInt8 → UInt8 → List UInt8 → Prop where
  | nil {low high : UInt8} : Fits low high []
  | cons {low high b : UInt8} {tail : List UInt8} (lower : low ≤ b) (upper : b ≤ high) (rest : Fits 0x80 0xBF tail) :
      Fits low high (b :: tail)

section Fits

variable {low high : UInt8} {tail rest : List UInt8} {count : Nat}

lemma Fits.of_append {more : List UInt8} (fits : Fits low high (tail ++ more)) : Fits low high tail := by
  induction tail generalizing low high with
  | nil => exact .nil
  | cons b tail ih =>
    cases fits with
    | cons lower upper rest => exact .cons lower upper (ih rest)

/-- Continuation octets up to the number that is announced, or up to where they end, are taken. -/
lemma continuations_of_fits (fits : Fits low high tail) (few : tail.length ≤ count)
    (ends : tail.length = count ∨ ∀ next more, rest = next :: more → ¬ Fits low high (tail ++ [next])) :
    continuations low high count (tail ++ rest) = tail := by
  induction fits generalizing count with
  | nil =>
    cases count with
    | zero => rfl
    | succ count =>
      cases rest with
      | nil => rfl
      | cons next more =>
        rcases ends with none | ends
        · cases none
        · have stops := ends next more rfl
          rw [List.nil_append, continuations, if_neg]
          intro within
          rw [Bool.and_eq_true, decide_eq_true_eq, decide_eq_true_eq] at within
          exact stops (.cons within.1 within.2 .nil)
  | @cons low high b tail lower upper fits ih =>
    cases count with
    | zero => cases few
    | succ count =>
      rw [List.cons_append, continuations, if_pos (by simp [lower, upper])]
      refine congrArg _ (ih (Nat.le_of_succ_le_succ few) (ends.imp Nat.succ.inj fun ends next more is goesOn => ?_))
      exact ends next more is (.cons lower upper goesOn)

/-- The continuation octets that are taken. -/
lemma exists_continuations (low high : UInt8) (count : Nat) (rest : List UInt8) :
    ∃ tail more, rest = tail ++ more ∧ Fits low high tail ∧ tail.length ≤ count ∧
      (tail.length = count ∨ ∀ next others, more = next :: others → ¬ Fits low high (tail ++ [next])) := by
  induction count generalizing low high rest with
  | zero => exact ⟨[], rest, rfl, .nil, Nat.le_refl 0, .inl rfl⟩
  | succ count ih =>
    cases rest with
    | nil => exact ⟨[], [], rfl, .nil, Nat.zero_le _, .inr nofun⟩
    | cons b rest =>
      by_cases within : low ≤ b ∧ b ≤ high
      · obtain ⟨tail, more, rfl, fits, few, ends⟩ := ih 0x80 0xBF rest
        refine ⟨b :: tail, more, rfl, .cons within.1 within.2 fits, Nat.succ_le_succ few, ?_⟩
        refine ends.imp (congrArg Nat.succ) fun ends next others is goesOn => ?_
        cases goesOn with
        | cons _ _ goesOn => exact ends next others is goesOn
      · refine ⟨[], b :: rest, rfl, .nil, Nat.zero_le _, .inr ?_⟩
        rintro next others is (_ | ⟨lower, upper, -⟩)
        cases is
        exact within ⟨lower, upper⟩

end Fits

/-- An octet of a range of continuation octets. -/
lemma exists_ofNat_of_fits {low high x : UInt8} {tail : List UInt8} (fits : Fits low high (x :: tail)) :
    ∃ n < 256, x = UInt8.ofNat n ∧ low.toNat ≤ n ∧ n ≤ high.toNat ∧ Fits 0x80 0xBF tail := by
  cases fits with
  | cons lower upper rest => exact ⟨x.toNat, x.toNat_lt, UInt8.ofNat_toNat.symm, lower, upper, rest⟩

lemma scalarValue_cons (bits n : Nat) (small : n < 256) (tail : List UInt8) :
    scalarValue bits (UInt8.ofNat n :: tail) = scalarValue (bits * 64 + (n - 0x80)) tail := by
  rw [scalarValue, List.foldl_cons, toNat_ofNat small]
  rfl

/-- A lead octet with all the continuation octets that it announces is the octets of a character. -/
lemma encodeChar_of_leads {b : UInt8} {lead : Lead} {tail : List UInt8} (leads : Leads b lead)
    (fits : Fits lead.low lead.high tail) (length : tail.length = lead.count) :
    String.utf8EncodeChar (Char.ofNat (scalarValue lead.bits tail)) = b :: tail := by
  cases leads with
  | @one n small =>
    obtain rfl := List.length_eq_zero_iff.mp length
    have valid : n.isValidChar := .inl (by omega)
    show String.utf8EncodeChar (Char.ofNat n) = _
    rw [encodeChar_eq, toNat_char valid, octetsOf, if_pos (by omega)]
  | @two k least small =>
    obtain ⟨x, rfl⟩ := List.length_eq_one_iff.mp length
    obtain ⟨x, bound, rfl, lower, upper, -⟩ := exists_ofNat_of_fits fits
    simp only [UInt8.reduceToNat] at lower upper
    rw [scalarValue_cons _ _ bound]
    show String.utf8EncodeChar (Char.ofNat (k * 64 + (x - 0x80))) = _
    have valid : (k * 64 + (x - 0x80)).isValidChar := .inl (by omega)
    rw [encodeChar_eq, toNat_char valid, octetsOf, if_neg (by omega), if_pos (by omega)]
    have first : (k * 64 + (x - 0x80)) / 64 % 0x20 = k := by omega
    have second : (k * 64 + (x - 0x80)) % 0x40 + 0x80 = x := by omega
    rw [first, second]
  | @three k small =>
    obtain ⟨x, y, rfl⟩ := List.length_eq_two.mp length
    obtain ⟨x, bound, rfl, lower, upper, fits⟩ := exists_ofNat_of_fits fits
    obtain ⟨y, bound', rfl, lower', upper', -⟩ := exists_ofNat_of_fits fits
    simp only [apply_ite UInt8.toNat, UInt8.reduceToNat] at lower upper lower' upper'
    -- The shortest form is this one, and the character is no surrogate.
    have least : 0x80 ≤ x ∧ (k = 0 → 0xA0 ≤ x) := by split_ifs at lower <;> omega
    have most : x ≤ 0xBF ∧ (k = 13 → x ≤ 0x9F) := by split_ifs at upper <;> omega
    rw [scalarValue_cons _ _ bound, scalarValue_cons _ _ bound']
    show String.utf8EncodeChar (Char.ofNat ((k * 64 + (x - 0x80)) * 64 + (y - 0x80))) = _
    obtain ⟨n, is⟩ : ∃ n, n = (k * 64 + (x - 0x80)) * 64 + (y - 0x80) := ⟨_, rfl⟩
    have valid : n.isValidChar := by
      unfold Nat.isValidChar
      omega
    have first : n / 4096 % 0x10 = k := by omega
    have second : n / 64 % 0x40 + 0x80 = x := by omega
    have third : n % 0x40 + 0x80 = y := by omega
    rw [← is, encodeChar_eq, toNat_char valid, octetsOf, if_neg (by omega), if_neg (by omega), if_pos (by omega), first,
      second, third]
  | @four k small =>
    obtain ⟨x, y, z, rfl⟩ := List.length_eq_three.mp length
    obtain ⟨x, bound, rfl, lower, upper, fits⟩ := exists_ofNat_of_fits fits
    obtain ⟨y, bound', rfl, lower', upper', fits⟩ := exists_ofNat_of_fits fits
    obtain ⟨z, bound'', rfl, lower'', upper'', -⟩ := exists_ofNat_of_fits fits
    simp only [apply_ite UInt8.toNat, UInt8.reduceToNat] at lower upper lower' upper' lower'' upper''
    -- The shortest form is this one, and the character is not beyond the last.
    have least : 0x80 ≤ x ∧ (k = 0 → 0x90 ≤ x) := by split_ifs at lower <;> omega
    have most : x ≤ 0xBF ∧ (k = 4 → x ≤ 0x8F) := by split_ifs at upper <;> omega
    rw [scalarValue_cons _ _ bound, scalarValue_cons _ _ bound', scalarValue_cons _ _ bound'']
    show String.utf8EncodeChar (Char.ofNat (((k * 64 + (x - 0x80)) * 64 + (y - 0x80)) * 64 + (z - 0x80))) = _
    obtain ⟨n, is⟩ : ∃ n, n = ((k * 64 + (x - 0x80)) * 64 + (y - 0x80)) * 64 + (z - 0x80) := ⟨_, rfl⟩
    have valid : n.isValidChar := by
      unfold Nat.isValidChar
      omega
    have first : n / 262144 % 0x08 = k := by omega
    have second : n / 4096 % 0x40 + 0x80 = x := by omega
    have third : n / 64 % 0x40 + 0x80 = y := by omega
    have fourth : n % 0x40 + 0x80 = z := by omega
    rw [← is, encodeChar_eq, toNat_char valid, octetsOf, if_neg (by omega), if_neg (by omega), if_neg (by omega), first,
      second, third, fourth]

/-! ### With what characters begin -/

/-- The octets of a character are a lead octet and as many continuation octets as it announces. -/
lemma exists_lead (c : Char) : ∃ b lead tail, String.utf8EncodeChar c = b :: tail ∧ lead? b = some lead ∧
    Fits lead.low lead.high tail ∧ tail.length = lead.count := by
  obtain ⟨b, tail, octets, is⟩ := front_encodeChar c []
  rw [List.append_nil] at is
  cases leads : lead? b with
  | none =>
    rw [front, leads] at is
    cases is
  | some lead =>
    obtain ⟨taken, more, rfl, fits, few, ends⟩ := exists_continuations lead.low lead.high lead.count tail
    rw [front, leads] at is
    simp only [continuations_of_fits fits few ends] at is
    split_ifs at is with length
    obtain rfl := Piece.char.inj is
    have whole := encodeChar_of_leads (leads_of_lead? leads) fits length
    have same : taken = taken ++ more := (List.cons.inj (whole.symm.trans octets)).2
    exact ⟨b, lead, taken, whole, leads, fits, length⟩

lemma Leads.range {b : UInt8} {lead : Lead} (leads : Leads b lead) : lead.low ≤ lead.high := by
  have usual : (0x80 : UInt8) ≤ 0xBF := by decide
  cases leads with
  | one => exact usual
  | two => exact usual
  | @three k =>
    dsimp only
    by_cases first : k = 0
    · subst first
      decide
    · rw [if_neg first]
      split_ifs <;> decide
  | @four k =>
    dsimp only
    by_cases first : k = 0
    · subst first
      decide
    · rw [if_neg first]
      split_ifs <;> decide

/-- Continuation octets can go on up to any number. -/
lemma Fits.exists_append {low high : UInt8} {tail : List UInt8} (fits : Fits low high tail) (range : low ≤ high)
    {count : Nat} (few : tail.length ≤ count) : ∃ more, Fits low high (tail ++ more) ∧ (tail ++ more).length = count := by
  induction count generalizing low high tail with
  | zero =>
    obtain rfl := List.length_eq_zero_iff.mp (Nat.le_zero.mp few)
    exact ⟨[], .nil, rfl⟩
  | succ count ih =>
    cases fits with
    | nil =>
      obtain ⟨more, fits, length⟩ := ih .nil (show (0x80 : UInt8) ≤ 0xBF by decide) (Nat.zero_le count)
      exact ⟨low :: more, .cons (UInt8.le_refl low) range fits, congrArg Nat.succ length⟩
    | cons lower upper fits =>
      obtain ⟨more, fits, length⟩ := ih fits (by decide) (Nat.le_of_succ_le_succ few)
      exact ⟨more, .cons lower upper fits, congrArg Nat.succ length⟩

lemma begins_iff {b : UInt8} {tail : List UInt8} :
    Begins (b :: tail) ↔ ∃ lead, lead? b = some lead ∧ Fits lead.low lead.high tail ∧ tail.length ≤ lead.count := by
  constructor
  · rintro ⟨c, starts⟩
    obtain ⟨b', lead, whole, octets, leads, fits, length⟩ := exists_lead c
    rw [octets, List.cons_prefix_cons] at starts
    obtain ⟨rfl, more, rfl⟩ := starts
    exact ⟨lead, leads, fits.of_append, by rw [← length, List.length_append]; omega⟩
  · rintro ⟨lead, leads, fits, few⟩
    obtain ⟨more, fits, length⟩ := fits.exists_append (leads_of_lead? leads).range few
    have whole := encodeChar_of_leads (leads_of_lead? leads) fits length
    exact ⟨_, more, whole.symm⟩

/-! ### The text of octets -/

/-- Octets begin with a character or with something broken. -/
lemma exists_first (b : UInt8) (rest : List UInt8) : ∃ tail more, rest = tail ++ more ∧
    ((∃ c, String.utf8EncodeChar c = b :: tail) ∨ Broken more (b :: tail)) := by
  cases leads : lead? b with
  | none =>
    refine ⟨[], rest, rfl, .inr (.stray fun begins => ?_)⟩
    obtain ⟨lead, is, -⟩ := begins_iff.mp begins
    cases leads.symm.trans is
  | some lead =>
    obtain ⟨tail, more, rfl, fits, few, ends⟩ := exists_continuations lead.low lead.high lead.count rest
    by_cases length : tail.length = lead.count
    · exact ⟨tail, more, rfl, .inl ⟨_, encodeChar_of_leads (leads_of_lead? leads) fits length⟩⟩
    · refine ⟨tail, more, rfl, .inr (.cut (begins_iff.mpr ⟨lead, leads, fits, few⟩) ?_ ?_)⟩
      · intro c whole
        obtain ⟨b', lead', tail', octets, leads', -, length'⟩ := exists_lead c
        obtain ⟨rfl, rfl⟩ := List.cons.inj (octets.symm.trans whole)
        obtain rfl := Option.some.inj (leads'.symm.trans leads)
        exact length length'
      · intro next others is begins
        obtain ⟨lead', leads', goesOn, -⟩ := begins_iff.mp begins
        obtain rfl := Option.some.inj (leads'.symm.trans leads)
        exact (ends.resolve_left length) next others is goesOn

/-- What is broken is one defect. -/
lemma front_broken {b : UInt8} {tail rest : List UInt8} (broken : Broken rest (b :: tail)) :
    ∃ kind, front b (tail ++ rest) = .defect kind (tail.length + 1) := by
  cases broken with
  | stray none =>
    cases leads : lead? b with
    | none => exact ⟨.invalidStart, by rw [front, leads]; rfl⟩
    | some lead => exact absurd (begins_iff.mpr ⟨lead, leads, .nil, Nat.zero_le _⟩) none
  | cut begins part ends =>
    obtain ⟨lead, leads, fits, few⟩ := begins_iff.mp begins
    have short : tail.length ≠ lead.count := fun length =>
      part _ (encodeChar_of_leads (leads_of_lead? leads) fits length)
    have taken : continuations lead.low lead.high lead.count (tail ++ rest) = tail := by
      refine continuations_of_fits fits few (.inr fun next more is goesOn => ?_)
      refine ends next more is (begins_iff.mpr ⟨lead, leads, goesOn, ?_⟩)
      rw [List.length_append, List.length_singleton]
      omega
    rw [front, leads]
    simp only [taken, if_neg short]
    split_ifs
    · exact ⟨_, rfl⟩
    · exact ⟨_, rfl⟩

lemma decodeReplacing_char (c : Char) (rest : List UInt8) :
    decodeReplacing (String.utf8EncodeChar c ++ rest) = c :: decodeReplacing rest := by
  rw [decodeReplacing, decodeWith, pieces_char]
  rfl

lemma decodeReplacing_broken {rest octets : List UInt8} (broken : Broken rest octets) :
    decodeReplacing (octets ++ rest) = replacementChar :: decodeReplacing rest := by
  obtain ⟨b, tail, rfl⟩ : ∃ b tail, octets = b :: tail := by
    cases broken with
    | stray => exact ⟨_, _, rfl⟩
    | cut => exact ⟨_, _, rfl⟩
  obtain ⟨kind, begins⟩ := front_broken broken
  rw [List.cons_append, decodeReplacing, decodeWith, pieces_cons begins rfl]
  rfl

lemma replaced_decodeReplacing (octets : List UInt8) : Replaced octets (decodeReplacing octets) := by
  induction size : octets.length using Nat.strongRecOn generalizing octets with
  | ind n ih =>
    cases octets with
    | nil => exact .nil
    | cons b rest =>
      obtain ⟨tail, more, rfl, first⟩ := exists_first b rest
      have shorter : more.length < n := by
        rw [← size, List.length_cons, List.length_append]
        omega
      have later := ih more.length shorter more rfl
      rw [← List.cons_append]
      rcases first with ⟨c, octets⟩ | broken
      · rw [← octets, decodeReplacing_char]
        exact .char c later
      · rw [decodeReplacing_broken broken]
        exact .defect broken later

/-- The text of octets with replacements is what decoding gives, and no other. -/
theorem replaced_iff {octets : List UInt8} {text : List Char} : Replaced octets text ↔ decodeReplacing octets = text := by
  constructor
  · intro replaced
    induction replaced with
    | nil => rfl
    | char c rest ih => rw [decodeReplacing_char, ih]
    | defect broken rest ih => rw [decodeReplacing_broken broken, ih]
  · rintro rfl
    exact replaced_decodeReplacing octets

end RepoAudit.Utf8
