import RepoAudit.Proofs.Partial
import RepoAudit.Settings.Reader

/-!
# Loading settings

Settings are loaded in three steps: the file is found, the value of its document is read, and the settings are made of
that value. The middle step uses a reader of documents, and what is said of settings does not hang on which one it is:
`loadBy` loads them with any reader, and `load_eq` says that `load` is this with the reader of YAML.

A limit is what the file gives, when that is an integer and not too small, and the default otherwise. A timeout is
found by what it must not be, zero or less, and not-a-number is neither: it is let through, and it is the one timeout
that is loaded without being positive.
-/

namespace RepoAudit.Settings

open Yaml (Fault Value)

/-- What gives the value of a document from its text. -/
abbrev DocumentReader := List Char → Except Fault Value

/-- The reader that settings are loaded with. -/
def documentReader : DocumentReader := fun text => (Yaml.Document.ofText text).map (·.value levels)

/-- `parse` with any reader. -/
def parseBy (reader : DocumentReader) (name : String) (text : List Char) : Except Problem Value :=
  if text.all Text.isBlank then .ok .null
  else
    match reader text with
    | .ok value => .ok value
    | .error .malformed => .error (.malformed name)
    | .error fault => .error (.badScalar fault)

/-- The value that a file of the name has by its octets. -/
def decodeBy (reader : DocumentReader) (name : String) (octets : List UInt8) : Except Problem Value := do
  let text ← (Utf8.decode octets).mapError .undecodable
  parseBy reader name (unifyLines text)

/-- The value of a file. One that is not there says nothing. -/
def valueBy (reader : DocumentReader) (disk : Disk) (file : Path) : Except Problem Value := do
  if ← (disk.exists? file).mapError .disk then
    decodeBy reader file.name (← (disk.read file).mapError .disk)
  else return .null

/-- `load` with any reader. -/
def loadBy (reader : DocumentReader) (disk : Disk) (environment : Environment) (path : Path) :
    Except Problem Settings := do
  let file ← fileOf disk path
  let value ← valueBy reader disk file
  return withToken environment (← ofValue file.parent value)

lemma parse_eq (name : String) (text : List Char) : parse name text = parseBy documentReader name text := by
  unfold parse parseBy documentReader
  cases Yaml.Document.ofText text with
  | ok document => rfl
  | error fault => cases fault <;> rfl

lemma load_eq : load = loadBy documentReader := by
  funext disk environment path
  unfold load loadBy
  congr 1
  funext file
  unfold valueBy readFile
  cases (disk.exists? file).mapError Problem.disk with
  | error problem => rfl
  | ok present =>
    cases present with
    | false => rfl
    | true =>
      show ((disk.read file).mapError Problem.disk >>= _) >>= _ = ((disk.read file).mapError Problem.disk >>= _) >>= _
      simp only [parse_eq]
      rfl

/-- The path of names that a file can have. -/
lemma settled_of_free {current path : Path} (free : ∀ part ∈ path.parts, Char.ofNat 0 ∉ part.toList) :
    settled current path = .ok (Path.resolve current path) := by
  unfold settled
  rw [if_neg]
  simpa using free

/-- A disk with nothing but a file of settings. -/
def directoryWith (octets : List UInt8) : Disk := { entries := [([fileName], .file octets)] }

lemma fileOf_directoryWith (octets : List UInt8) :
    fileOf (directoryWith octets) ⟨false, []⟩ = .ok ⟨true, [fileName]⟩ := by
  show settled ⟨true, []⟩ ⟨false, [fileName]⟩ = _
  exact settled_of_free (by decide)

section

variable {reader : DocumentReader} {disk : Disk} {environment : Environment} {path file : Path}
  {octets : List UInt8} {settings : Settings}

/-- What has been read is there. -/
lemma exists_of_read (stored : disk.read file = .ok octets) : disk.exists? file = .ok true := by
  unfold Disk.read at stored
  unfold Disk.exists? Disk.entry?
  cases located : disk.locate file with
  | error cause => simp [located] at stored
  | ok place =>
    cases found : disk.find? place with
    | none => simp [located, found] at stored
    | some entry => simp [found, bind, Except.bind, pure, Except.pure]

lemma valueBy_of_read (stored : disk.read file = .ok octets) :
    valueBy reader disk file = decodeBy reader file.name octets := by
  unfold valueBy
  rw [exists_of_read stored, stored]
  rfl

/-- The steps of a loading that has succeeded. -/
lemma exists_of_loadBy (done : loadBy reader disk environment path = .ok settings) :
    ∃ file value plain, fileOf disk path = .ok file ∧ valueBy reader disk file = .ok value ∧
      ofValue file.parent value = .ok plain ∧ settings = withToken environment plain := by
  obtain ⟨file, placed, done⟩ := exists_of_bind_ok done
  obtain ⟨value, told, done⟩ := exists_of_bind_ok done
  obtain ⟨plain, made, done⟩ := exists_of_bind_ok done
  exact ⟨file, value, plain, placed, told, made, (Except.ok.inj done).symm⟩

end

/-- A token is all that the environment can change. -/
lemma withToken_eq (environment : Environment) (settings : Settings) :
    ∃ token, withToken environment settings = { settings with host := { settings.host with token } } := by
  unfold withToken
  split
  · exact ⟨settings.host.token, rfl⟩
  · dsimp only
    split
    · exact ⟨_, rfl⟩
    · exact ⟨settings.host.token, rfl⟩

end RepoAudit.Settings

/-! ## The limits that are loaded -/

namespace RepoAudit

namespace Double

variable {x : Double}

-- Powers are those of the numbers.
attribute [local instance (high)] instPowNat

/-- Aligning with another exponent keeps the sign. -/
lemma mul_two_pow_neg_iff (n : Int) (k : Nat) : n * 2 ^ k < 0 ↔ n < 0 := by
  have power : (0 : Int) < 2 ^ k := Int.pow_pos (by decide)
  refine ⟨fun below => ?_, fun below => Int.mul_neg_of_neg_of_pos below power⟩
  by_contra other
  exact absurd (Int.mul_nonneg (Int.not_lt.mp other) (Int.le_of_lt power)) (Int.not_le.mpr below)

lemma alignedSum_zero_neg_iff (n p q : Int) : (alignedSum n p 0 q).1 < 0 ↔ n < 0 := by
  unfold alignedSum
  split
  · show n + 0 * _ < 0 ↔ n < 0
    rw [Int.zero_mul, Int.add_zero]
  · show n * _ + 0 < 0 ↔ n < 0
    rw [Int.add_zero, mul_two_pow_neg_iff]

lemma zero_alignedSum_neg_iff (n p q : Int) : (alignedSum 0 p n q).1 < 0 ↔ n < 0 := by
  unfold alignedSum
  split
  · show 0 + n * _ < 0 ↔ n < 0
    rw [Int.zero_add, mul_two_pow_neg_iff]
  · show 0 * _ + n < 0 ↔ n < 0
    rw [Int.zero_mul, Int.zero_add]

/-- Whatever is neither zero nor less is positive, or no number. -/
lemma not_zero_or_lt_iff :
    (x.isZero || lt x (zero false)) = false ↔ lt (zero false) x = true ∨ x = .nan := by
  cases x with
  | nan => simp [isZero, lt]
  | infinite negative => cases negative <;> simp [isZero, lt, zero]
  | finite negative m q =>
    have below : lt (.finite negative m q) (zero false) = true ↔ signed negative m < 0 := by
      simpa [lt, zero, signed] using alignedSum_zero_neg_iff (signed negative m) q leastExponent
    have above : lt (zero false) (.finite negative m q) = true ↔ -signed negative m < 0 := by
      simpa [lt, zero, signed] using zero_alignedSum_neg_iff (-signed negative m) leastExponent q
    rw [Bool.or_eq_false_iff, ← Bool.not_eq_true (lt _ _), below, above]
    cases negative <;> simp [isZero, signed, Nat.pos_iff_ne_zero]

lemma ofInt_ne_nan (n : Int) : ofInt n ≠ .nan := by
  unfold ofInt ofRatio zero
  split
  · simp
  · dsimp only
    split <;> split <;> simp

end Double

namespace Settings

open Yaml (Value)

/-- The limits of a scan. -/
inductive Limit where
  | maxFiles
  | maxFileSize
  | snippetContext
  | fetchWorkers
  | scanWorkers

namespace Limit

/-- The name that a file gives a limit under. -/
def name : Limit → String
  | maxFiles => "max_files"
  | maxFileSize => "max_file_size"
  | snippetContext => "snippet_context"
  | fetchWorkers => "fetch_workers"
  | scanWorkers => "scan_workers"

/-- The least value of a limit that is of use. -/
def least : Limit → Int
  | snippetContext => 0
  | _ => 1

/-- The value of a limit. -/
def of (limits : Limits) : Limit → Int
  | maxFiles => limits.maxFiles
  | maxFileSize => limits.maxFileSize
  | snippetContext => limits.snippetContext
  | fetchWorkers => limits.fetchWorkers
  | scanWorkers => limits.scanWorkers

end Limit

/-- What a document gives under a name in a section. -/
def entryOf (value : Value) (part name : String) : Value :=
  Value.field (sectionOf (value.entries?.getD []) part) name

section

variable {value : Value} {limit : Limit} {least alternative : Int}

lemma of_limitsOf (fields : List (String × Value)) (limit : Limit) :
    limit.of (limitsOf fields) = atLeast limit.least (limit.of {}) (Value.field fields limit.name) := by
  cases limit <;> rfl

/-- An integer that fits is kept, and the alternative stands for everything else. -/
lemma atLeast_cases (least alternative : Int) (value : Value) :
    (integerOf value = some (atLeast least alternative value) ∧ least ≤ atLeast least alternative value) ∨
      (atLeast least alternative value = alternative ∧ ∀ n, integerOf value = some n → n < least) := by
  cases found : integerOf value with
  | none =>
    have standard : atLeast least alternative value = alternative := by rw [atLeast, found]
    exact .inr ⟨standard, nofun⟩
  | some n =>
    have settled : atLeast least alternative value = if n < least then alternative else n := by rw [atLeast, found]
    rw [settled]
    by_cases small : n < least
    · rw [if_pos small]
      exact .inr ⟨rfl, fun m same => Option.some.inj same ▸ small⟩
    · rw [if_neg small]
      exact .inl ⟨rfl, Int.not_lt.mp small⟩

lemma least_le_default (limit : Limit) : limit.least ≤ limit.of {} := by
  cases limit <;> decide

/-- A number of seconds that fits is kept, and the alternative stands for everything else. -/
lemma timeoutOr_cases {standard timeout : Timeout} (done : timeoutOr standard value = .ok timeout) :
    (∃ x, timeout = .decimal x ∧ secondsOf value = .ok (some x) ∧
        (Double.lt (Double.zero false) x = true ∨ x = .nan)) ∨
      (timeout = standard ∧
        ∀ x, secondsOf value = .ok (some x) → Double.lt (Double.zero false) x = false ∧ x ≠ .nan) := by
  obtain ⟨seconds, found, done⟩ := exists_of_bind_ok done
  cases seconds with
  | none =>
    obtain rfl := Except.ok.inj done
    exact .inr ⟨rfl, fun x same => nomatch found.symm.trans same⟩
  | some x =>
    have done := Except.ok.inj done
    cases bad : x.isZero || Double.lt x (Double.zero false) with
    | false =>
      rw [bad] at done
      exact .inl ⟨x, done.symm, found, Double.not_zero_or_lt_iff.mp bad⟩
    | true =>
      rw [bad] at done
      refine .inr ⟨done.symm, fun y same => ?_⟩
      obtain rfl : x = y := Option.some.inj (Except.ok.inj (found.symm.trans same))
      have none := mt Double.not_zero_or_lt_iff.mpr (ne_false_of_eq_true bad)
      exact ⟨Bool.eq_false_iff.mpr fun above => none (.inl above), fun is => none (.inr is)⟩

/-- Where a value gives a number of seconds that is no number. -/
lemma secondsOf_nan_iff :
    secondsOf value = .ok (some .nan) ↔
      value = .double .nan ∨ ∃ text, value = .text text ∧ Number.readDouble? text = some .nan := by
  cases value with
  | integer n =>
    have other := Double.ofInt_ne_nan n
    simp only [secondsOf]
    cases is : Double.ofInt n with
    | nan => exact absurd is other
    | infinite negative => simp
    | finite negative m q => simp
  | double x => simp [secondsOf]
  | text text => simp [secondsOf]
  | _ => simp [secondsOf]

end

section

variable {root : Path} {value : Value} {settings : Settings}

/-- Settings have the limits and the timeout of their document. -/
lemma ofValue_limits (made : ofValue root value = .ok settings) :
    settings.limits = limitsOf (sectionOf (value.entries?.getD []) "limits") ∧
      timeoutOr (.decimal (Double.ofInt 15)) (entryOf value "github" "request_timeout") =
        .ok settings.host.timeout := by
  unfold ofValue at made
  unfold entryOf
  cases found : value.entries? with
  | none =>
    -- Without sections every entry is missing, which is what the defaults are for.
    simp only [found] at made
    split at made
    · obtain rfl := Except.ok.inj made
      exact ⟨rfl, rfl⟩
    · cases made
  | some fields =>
    simp only [found] at made
    obtain ⟨host, hosted, made⟩ := exists_of_bind_ok made
    obtain ⟨rules, -, made⟩ := exists_of_bind_ok made
    obtain ⟨store, -, made⟩ := exists_of_bind_ok made
    obtain rfl := Except.ok.inj made
    obtain ⟨baseUrl, -, hosted⟩ := exists_of_bind_ok hosted
    obtain ⟨token, -, hosted⟩ := exists_of_bind_ok hosted
    obtain ⟨timeout, timed, hosted⟩ := exists_of_bind_ok hosted
    obtain ⟨version, -, hosted⟩ := exists_of_bind_ok hosted
    obtain rfl := Except.ok.inj hosted
    exact ⟨rfl, timed⟩

end

/-- Every limit that is loaded is of use, and is the one that the file gives or the default. So is the timeout, unless
the file gives one that is no number: that one is loaded. -/
theorem loaded_limits_are_usable_but_nan {reader : DocumentReader} {disk : Disk} {environment : Environment}
    {path : Path} {settings : Settings} (done : loadBy reader disk environment path = .ok settings) :
    ∃ file value, fileOf disk path = .ok file ∧ valueBy reader disk file = .ok value ∧
      (∀ limit : Limit, limit.least ≤ limit.of settings.limits ∧
        (integerOf (entryOf value "limits" limit.name) = some (limit.of settings.limits) ∨
          limit.of settings.limits = limit.of {} ∧
            ∀ n, integerOf (entryOf value "limits" limit.name) = some n → n < limit.least)) ∧
      ∃ x, settings.host.timeout = .decimal x ∧
        (Double.lt (Double.zero false) x = true ∨ x = .nan) ∧
        (secondsOf (entryOf value "github" "request_timeout") = .ok (some x) ∨
          x = Double.ofInt 15 ∧ ∀ y, secondsOf (entryOf value "github" "request_timeout") = .ok (some y) →
            Double.lt (Double.zero false) y = false ∧ y ≠ .nan) ∧
        (x = .nan ↔ entryOf value "github" "request_timeout" = .double .nan ∨
          ∃ text, entryOf value "github" "request_timeout" = .text text ∧ Number.readDouble? text = some .nan) := by
  obtain ⟨file, value, plain, placed, told, made, rfl⟩ := exists_of_loadBy done
  obtain ⟨token, is⟩ := withToken_eq environment plain
  obtain ⟨limited, timed⟩ := ofValue_limits made
  refine ⟨file, value, placed, told, fun limit => ?_, ?_⟩
  · rw [is]
    show limit.least ≤ limit.of plain.limits ∧ _
    rw [limited, of_limitsOf]
    have kept := atLeast_cases limit.least (limit.of {}) (entryOf value "limits" limit.name)
    rcases kept with ⟨given, fits⟩ | ⟨standard, other⟩
    · exact ⟨fits, .inl given⟩
    · exact ⟨standard.symm ▸ least_le_default limit, .inr ⟨standard, other⟩⟩
  · rw [is]
    show ∃ x, plain.host.timeout = .decimal x ∧ _
    rw [← secondsOf_nan_iff]
    rcases timeoutOr_cases timed with ⟨x, loaded, given, good⟩ | ⟨standard, other⟩
    · refine ⟨x, loaded, good, .inl given, ?_⟩
      rw [given]
      simp
    · refine ⟨Double.ofInt 15, standard, .inl (by decide +kernel), .inr ⟨rfl, other⟩, ?_⟩
      refine iff_of_false (Double.ofInt_ne_nan 15) fun given => (other _ given).2 rfl

/-- A timeout that is no number. -/
def timelessFile : Disk := directoryWith (Utf8.encodeText "github:\n  request_timeout: .nan\n")

theorem loaded_limits_are_usable_but_nan_dotted :
    ∃ settings, load timelessFile [] ⟨false, []⟩ = .ok settings ∧
      ∃ x, settings.host.timeout = .decimal x ∧ (Double.lt (Double.zero false) x = true ∨ x = .nan) := by
  have done : loadBy documentReader timelessFile [] ⟨false, []⟩ =
      .ok { root := ⟨true, []⟩, host := { timeout := .decimal .nan } } := by
    unfold loadBy timelessFile
    rw [fileOf_directoryWith]
    decide +kernel
  obtain ⟨file, value, placed, told, limits, x, is, good, rest⟩ := loaded_limits_are_usable_but_nan done
  rw [load_eq]
  exact ⟨_, done, x, is, good⟩

end Settings

end RepoAudit
