import RepoAudit.CommandLine.Basic
import RepoAudit.Proofs.Settings.Limits
import RepoAudit.Proofs.Text.Basic

/-!
# How loading settings ends

A file of settings has three ends: there are settings, or a failure that is told, or a failure that breaks the program
off. A failure is told when the document breaks the grammar, and when its root holds something and is no mapping. The
others come of octets that are no text, of a scalar without a value, and of an entry that is beyond what settings can
take.
-/

namespace RepoAudit

namespace Settings

open CommandLine (isTold)
open Yaml (Fault Value)

lemma parts_free_iff {text : String} :
    (∀ part ∈ (Path.read text).parts, Char.ofNat 0 ∉ part.toList) ↔ Char.ofNat 0 ∉ text.toList := by
  rw [← Text.exists_mem_splitOn_iff (by decide : Char.ofNat 0 ≠ '/') text.toList]
  simp only [Path.read, List.mem_filter, List.mem_map, not_exists, not_and]
  constructor
  · intro free piece member bad
    -- A piece with the character is neither empty nor a point, so it counts as a name.
    have named : (String.ofList piece != "" && String.ofList piece != ".") = true := by
      rw [Bool.and_eq_true, bne_iff_ne, bne_iff_ne]
      constructor
      · intro is
        have empty : piece = [] := by simpa using congrArg String.toList is
        simp [empty] at bad
      · intro is
        have point : piece = ['.'] := by simpa using congrArg String.toList is
        simp [point] at bad
    exact free _ ⟨⟨piece, member, rfl⟩, named⟩ (by simpa using bad)
  · rintro free part ⟨⟨piece, member, rfl⟩, -⟩ bad
    exact free piece member (by simpa using bad)

lemma settled_ok_iff {current : Path} {text : String} :
    (∃ path, settled current (Path.read text) = .ok path) ↔ Char.ofNat 0 ∉ text.toList := by
  rw [← parts_free_iff]
  unfold settled
  split
  · next bad => simpa using bad
  · next free => simpa using free

/-! ### What is beyond settings -/

-- Powers are those of the reader.
attribute [local instance (high)] instPowNat

/-- An integer with more digits than are shown. -/
def Lengthy (value : Value) : Prop := ∃ n, value = .integer n ∧ 10 ^ Number.digitLimit ≤ n.natAbs

/-- A number of seconds beyond every double. -/
def Endless (value : Value) : Prop := ∃ n negative, value = .integer n ∧ Double.ofInt n = .infinite negative

/-- The entries that are taken as texts. -/
def textEntries : List (String × String) :=
  [("github", "base_url"), ("github", "token"), ("github", "api_version"), ("storage", "path")]

/-- The entries of the rules, which are lists of texts. -/
def ruleEntries : List String := ["disabled", "secret_allowlist", "families"]

/-- A document with an entry that settings cannot take. -/
inductive Overtaxes (value : Value) : Prop where
  | text {entry : String × String} (listed : entry ∈ textEntries) (long : Lengthy (entryOf value entry.1 entry.2))
  | item {name : String} {items : List Value} {item : Value} (listed : name ∈ ruleEntries)
      (given : entryOf value "rules" name = .list items) (member : item ∈ items) (long : Lengthy item)
  | timeout (endless : Endless (entryOf value "github" "request_timeout"))
  | place {text : String} (given : textOf (entryOf value "storage" "path") = .ok (some text))
      (bad : Char.ofNat 0 ∈ text.toList)

section

variable {value : Value}

lemma textOf_ok_iff : (∃ text, textOf value = .ok text) ↔ ¬ Lengthy value := by
  cases value with
  | integer n =>
    simp only [textOf, integerText, Lengthy]
    split
    · next long => simpa [Functor.map, Except.map] using long
    · next short => simpa [Functor.map, Except.map] using short
  | _ => simp [textOf, Lengthy]

lemma textOr_ok_iff {alternative : String} : (∃ text, textOr alternative value = .ok text) ↔ ¬ Lengthy value := by
  rw [← textOf_ok_iff]
  unfold textOr
  rw [exists_ok_bind_iff]
  refine exists_congr fun found => and_iff_left ?_
  cases found <;> exact ⟨_, rfl⟩

lemma timeoutOr_ok_iff {alternative : Timeout} :
    (∃ timeout, timeoutOr alternative value = .ok timeout) ↔ ¬ Endless value := by
  have seconds : (∃ found, secondsOf value = .ok found) ↔ ¬ Endless value := by
    cases value with
    | integer n =>
      simp only [secondsOf, Endless]
      cases is : Double.ofInt n <;> simp [is]
    | _ => simp [secondsOf, Endless]
  rw [← seconds]
  unfold timeoutOr
  rw [exists_ok_bind_iff]
  refine exists_congr fun found => and_iff_left ?_
  cases found <;> exact ⟨_, rfl⟩

lemma textsOf_ok_iff :
    (∃ texts, textsOf value = .ok texts) ↔ ∀ items, value = .list items → ∀ item ∈ items, ¬ Lengthy item := by
  cases value with
  | list items =>
    have each : (∀ item ∈ items, ∃ text, textOf item = .ok text) ↔ ∀ item ∈ items, ¬ Lengthy item :=
      forall₂_congr fun item _ => textOf_ok_iff
    simp only [textsOf, Value.list.injEq, forall_eq', ← each]
    rw [exists_ok_bind_iff, ← exists_ok_mapM_iff]
    exact exists_congr fun found => and_iff_left ⟨_, rfl⟩
  | _ => simp [textsOf]

lemma hostOf_ok_iff {fields : List (String × Value)} :
    (∃ host, hostOf fields = .ok host) ↔
      ¬ Lengthy (Value.field fields "base_url") ∧ ¬ Lengthy (Value.field fields "token") ∧
        ¬ Endless (Value.field fields "request_timeout") ∧ ¬ Lengthy (Value.field fields "api_version") := by
  unfold hostOf
  simp only [exists_ok_bind_iff, pure, Except.pure, Except.ok.injEq, exists_eq', and_true, exists_and_right,
    textOr_ok_iff, textOf_ok_iff, timeoutOr_ok_iff]

lemma rulesOf_ok_iff {fields : List (String × Value)} :
    (∃ rules, rulesOf fields = .ok rules) ↔ ∀ name ∈ ruleEntries, ∀ items, Value.field fields name = .list items →
      ∀ item ∈ items, ¬ Lengthy item := by
  unfold rulesOf
  simp only [exists_ok_bind_iff, pure, Except.pure, Except.ok.injEq, exists_eq', and_true, exists_and_right,
    textsOf_ok_iff, ruleEntries, List.forall_mem_cons, List.not_mem_nil, false_imp_iff, implies_true]

lemma storeOf_ok_iff {root : Path} {fields : List (String × Value)} :
    (∃ store, storeOf root fields = .ok store) ↔ ¬ Lengthy (Value.field fields "path") ∧
      ∀ text, textOf (Value.field fields "path") = .ok (some text) → Char.ofNat 0 ∉ text.toList := by
  unfold storeOf
  rw [exists_ok_bind_iff]
  have place (text : String) (given : textOf (Value.field fields "path") = .ok (some text)) :
      (∃ store, (if text.isEmpty then pure none else some <$> settled root (Path.read text)) =
        (.ok store : Except Problem (Option Path))) ↔ Char.ofNat 0 ∉ text.toList := by
    split
    · next empty =>
      have none : text = "" := String.isEmpty_iff.mp empty
      simp [none, pure, Except.pure]
    · rw [← @settled_ok_iff root]
      cases settled root (Path.read text) <;> simp [Functor.map, Except.map]
  constructor
  · rintro ⟨found, given, done⟩
    refine ⟨textOf_ok_iff.mp ⟨found, given⟩, fun text same => ?_⟩
    obtain rfl := Except.ok.inj (given.symm.trans same)
    exact (place text given).mp done
  · rintro ⟨short, free⟩
    obtain ⟨found, given⟩ := textOf_ok_iff.mpr short
    refine ⟨found, given, ?_⟩
    cases found with
    | none => exact ⟨none, rfl⟩
    | some text => exact (place text given).mpr (free text given)

/-- Settings are made of a mapping unless an entry is beyond them. -/
lemma ofValue_ok_iff {root : Path} (mapping : value.entries?.isSome = true) :
    (∃ settings, ofValue root value = .ok settings) ↔ ¬ Overtaxes value := by
  obtain ⟨fields, is⟩ := Option.isSome_iff_exists.mp mapping
  have made : (∃ settings, ofValue root value = .ok settings) ↔
      (∃ host, hostOf (sectionOf fields "github") = .ok host) ∧
        (∃ rules, rulesOf (sectionOf fields "rules") = .ok rules) ∧
          ∃ store, storeOf root (sectionOf fields "storage") = .ok store := by
    unfold ofValue
    simp only [is, exists_ok_bind_iff, pure, Except.pure, Except.ok.injEq, exists_eq', and_true, exists_and_right]
  have entry (part name : String) : Value.field (sectionOf fields part) name = entryOf value part name := by
    rw [entryOf, is, Option.getD_some]
  rw [made, hostOf_ok_iff, rulesOf_ok_iff, storeOf_ok_iff]
  simp only [entry]
  constructor
  · rintro ⟨⟨baseUrl, token, timeout, version⟩, rules, path, free⟩ beyond
    cases beyond with
    | text listed long =>
      simp only [textEntries, List.mem_cons, List.not_mem_nil, or_false] at listed
      rcases listed with rfl | rfl | rfl | rfl
      · exact baseUrl long
      · exact token long
      · exact version long
      · exact path long
    | item listed given member long => exact rules _ listed _ given _ member long
    | timeout endless => exact timeout endless
    | place given bad => exact free _ given bad
  · intro fits
    have texts (entry : String × String) (listed : entry ∈ textEntries) : ¬ Lengthy (entryOf value entry.1 entry.2) :=
      fun long => fits (.text listed long)
    refine ⟨⟨texts ("github", "base_url") (by decide), texts ("github", "token") (by decide),
      fun endless => fits (.timeout endless), texts ("github", "api_version") (by decide)⟩,
      fun name listed items given item member long => fits (.item listed given member long),
      texts ("storage", "path") (by decide), fun text given bad => fits (.place given bad)⟩

end

/-! ### Failures that are told -/

/-- The computation does not end with a failure that is told. -/
def Quiet {α : Type} (result : Except Problem α) : Prop := ∀ problem, result = .error problem → isTold problem = false

section Quiet

variable {α β : Type} {value : Value}

lemma quiet_ok (value : α) : Quiet (.ok value) := nofun

lemma quiet_error {problem : Problem} (untold : isTold problem = false) :
    Quiet (.error problem : Except Problem α) := by
  intro other is
  exact Except.error.inj is ▸ untold

lemma quiet_bind {first : Except Problem α} {next : α → Except Problem β} (begins : Quiet first)
    (ends : ∀ value, Quiet (next value)) : Quiet (first >>= next) := by
  cases first with
  | error problem => exact fun other is => begins other (congrArg Except.error (Except.error.inj is))
  | ok value => exact ends value

lemma quiet_map {first : Except Problem α} {f : α → β} (begins : Quiet first) : Quiet (f <$> first) := by
  cases first with
  | error problem => exact fun other is => begins other (congrArg Except.error (Except.error.inj is))
  | ok value => exact quiet_ok _

lemma quiet_mapM {f : α → Except Problem β} {items : List α} (each : ∀ item, Quiet (f item)) :
    Quiet (items.mapM f) := by
  induction items with
  | nil => exact quiet_ok []
  | cons item items ih =>
    rw [List.mapM_cons]
    exact quiet_bind (each item) fun value => quiet_bind ih fun values => quiet_ok _

lemma quiet_integerText {n : Int} : Quiet (integerText n) := by
  unfold integerText
  split
  · exact quiet_error rfl
  · exact quiet_ok _

lemma quiet_textOf : Quiet (textOf value) := by
  cases value with
  | integer n =>
    rw [textOf]
    exact quiet_map quiet_integerText
  | _ => exact quiet_ok _

lemma quiet_textOr {alternative : String} : Quiet (textOr alternative value) :=
  quiet_bind quiet_textOf fun found => by cases found <;> exact quiet_ok _

lemma quiet_timeoutOr {alternative : Timeout} : Quiet (timeoutOr alternative value) := by
  refine quiet_bind ?_ fun found => by cases found <;> exact quiet_ok _
  cases value with
  | integer n =>
    simp only [secondsOf]
    cases Double.ofInt n with
    | infinite negative => exact quiet_error rfl
    | _ => exact quiet_ok _
  | _ => exact quiet_ok _

lemma quiet_textsOf : Quiet (textsOf value) := by
  cases value with
  | list items => exact quiet_bind (quiet_mapM fun item => quiet_textOf) fun found => quiet_ok _
  | _ => exact quiet_ok _

lemma quiet_hostOf {fields : List (String × Value)} : Quiet (hostOf fields) :=
  quiet_bind quiet_textOr fun _ => quiet_bind quiet_textOf fun _ => quiet_bind quiet_timeoutOr fun _ =>
    quiet_bind quiet_textOr fun _ => quiet_ok _

lemma quiet_rulesOf {fields : List (String × Value)} : Quiet (rulesOf fields) :=
  quiet_bind quiet_textsOf fun _ => quiet_bind quiet_textsOf fun _ => quiet_bind quiet_textsOf fun _ => quiet_ok _

lemma quiet_settled {current path : Path} : Quiet (settled current path) := by
  unfold settled
  split
  · exact quiet_error rfl
  · exact quiet_ok _

lemma quiet_storeOf {root : Path} {fields : List (String × Value)} : Quiet (storeOf root fields) := by
  refine quiet_bind quiet_textOf fun found => ?_
  cases found with
  | none => exact quiet_ok _
  | some text =>
    dsimp only
    split
    · exact quiet_ok _
    · exact quiet_map quiet_settled

/-- Of a mapping no failure is told. -/
lemma quiet_ofValue {root : Path} (mapping : value.entries?.isSome = true) : Quiet (ofValue root value) := by
  obtain ⟨fields, is⟩ := Option.isSome_iff_exists.mp mapping
  unfold ofValue
  simp only [is]
  exact quiet_bind quiet_hostOf fun host => quiet_bind quiet_rulesOf fun rules =>
    quiet_bind quiet_storeOf fun store => quiet_ok _

end Quiet

/-! ### The ends of loading -/

/-- The text of a file that is not blank. -/
def Spells (octets : List UInt8) (text : List Char) : Prop :=
  ∃ decoded, Utf8.decode octets = .ok decoded ∧ unifyLines decoded = text ∧ text.all Text.isBlank = false

/-- The value that a file holds. A blank one holds nothing. -/
inductive Holds (reader : DocumentReader) (octets : List UInt8) : Value → Prop where
  | blank {text : List Char} (decoded : Utf8.decode octets = .ok text)
      (blank : (unifyLines text).all Text.isBlank = true) : Holds reader octets .null
  | document {text : List Char} {value : Value} (spelt : Spells octets text) (read : reader text = .ok value) :
      Holds reader octets value

/-- A file that loading goes astray on. -/
inductive Astray (reader : DocumentReader) (octets : List UInt8) : Prop where
  | undecodable {error : Utf8.Undecodable} (decoded : Utf8.decode octets = .error error)
  | badScalar {text : List Char} {fault : Fault} (spelt : Spells octets text) (read : reader text = .error fault)
      (scalar : fault ≠ .malformed)
  | overtaxing {value : Value} (holds : Holds reader octets value) (beyond : Overtaxes value)

section

variable {reader : DocumentReader} {octets : List UInt8} {name : String} {text : List Char} {fault : Fault}
  {value : Value}

lemma decodeBy_of_undecodable {error : Utf8.Undecodable} (decoded : Utf8.decode octets = .error error) :
    decodeBy reader name octets = .error (.undecodable error) := by
  unfold decodeBy
  rw [decoded]
  rfl

lemma decodeBy_of_spells (spelt : Spells octets text) :
    decodeBy reader name octets =
      match reader text with
      | .ok value => .ok value
      | .error .malformed => .error (.malformed name)
      | .error fault => .error (.badScalar fault) := by
  obtain ⟨decoded, is, rfl, solid⟩ := spelt
  unfold decodeBy
  rw [is]
  show parseBy reader name (unifyLines decoded) = _
  rw [parseBy, solid]
  rfl

lemma decodeBy_of_malformed (spelt : Spells octets text) (read : reader text = .error .malformed) :
    decodeBy reader name octets = .error (.malformed name) := by
  rw [decodeBy_of_spells spelt, read]

lemma decodeBy_of_badScalar (spelt : Spells octets text) (read : reader text = .error fault)
    (scalar : fault ≠ .malformed) : decodeBy reader name octets = .error (.badScalar fault) := by
  rw [decodeBy_of_spells spelt, read]
  cases fault <;> first | rfl | exact absurd rfl scalar

lemma decodeBy_of_holds (holds : Holds reader octets value) : decodeBy reader name octets = .ok value := by
  cases holds with
  | document spelt read => rw [decodeBy_of_spells spelt, read]
  | blank decoded blank =>
    unfold decodeBy
    rw [decoded]
    show parseBy reader name _ = _
    rw [parseBy, if_pos blank]

/-- A file has a value, or breaks the grammar, or is astray. -/
lemma holds_or_fails (reader : DocumentReader) (octets : List UInt8) :
    (∃ value, Holds reader octets value) ∨ (∃ text, Spells octets text ∧ reader text = .error .malformed) ∨
      (∃ error, Utf8.decode octets = .error error) ∨
        ∃ text fault, Spells octets text ∧ reader text = .error fault ∧ fault ≠ .malformed := by
  cases decoded : Utf8.decode octets with
  | error error => exact .inr (.inr (.inl ⟨error, rfl⟩))
  | ok text =>
    cases blank : (unifyLines text).all Text.isBlank with
    | true => exact .inl ⟨.null, .blank decoded blank⟩
    | false =>
      have spelt : Spells octets (unifyLines text) := ⟨text, decoded, rfl, blank⟩
      cases read : reader (unifyLines text) with
      | ok value => exact .inl ⟨value, .document spelt read⟩
      | error fault =>
        by_cases broken : fault = .malformed
        · exact .inr (.inl ⟨_, spelt, broken ▸ read⟩)
        · exact .inr (.inr (.inr ⟨_, fault, spelt, read, broken⟩))

/-- A value that is no mapping gives the defaults when it is void, and nothing otherwise. -/
lemma ofValue_of_no_mapping {root : Path} (foreign : value.entries? = none) :
    ofValue root value = if value.isVoid then .ok { root } else .error .notMapping := by
  unfold ofValue
  rw [foreign]

lemma not_overtaxes_of_no_mapping (foreign : value.entries? = none) : ¬ Overtaxes value := by
  have missing (part name : String) : entryOf value part name = .null := by
    rw [entryOf, foreign]
    rfl
  rintro (⟨listed, n, is, long⟩ | ⟨listed, given, member, long⟩ | ⟨n, negative, is, large⟩ | ⟨given, bad⟩)
  · rw [missing] at is
    cases is
  · rw [missing] at given
    cases given
  · rw [missing] at is
    cases is
  · rw [missing] at given
    cases given

end

section

variable {reader : DocumentReader} {disk : Disk} {environment : Environment} {path file : Path} {octets : List UInt8}
  (placed : fileOf disk path = .ok file) (stored : disk.read file = .ok octets)

include placed stored

lemma loadBy_of_file : loadBy reader disk environment path =
    (decodeBy reader file.name octets >>= fun value => withToken environment <$> ofValue file.parent value) := by
  unfold loadBy
  rw [placed]
  show valueBy reader disk file >>= _ = _
  rw [valueBy_of_read stored]
  rfl

lemma loadBy_of_fault {problem : Problem} (fails : decodeBy reader file.name octets = .error problem) :
    loadBy reader disk environment path = .error problem := by
  rw [loadBy_of_file placed stored, fails]
  rfl

lemma loadBy_of_holds {value : Value} (holds : Holds reader octets value) :
    loadBy reader disk environment path = withToken environment <$> ofValue file.parent value := by
  rw [loadBy_of_file placed stored, decodeBy_of_holds holds]
  rfl

lemma loadBy_of_foreign {value : Value} (holds : Holds reader octets value) (foreign : value.entries? = none) :
    loadBy reader disk environment path =
      if value.isVoid then .ok (withToken environment { root := file.parent }) else .error .notMapping := by
  rw [loadBy_of_holds placed stored holds, ofValue_of_no_mapping foreign]
  cases value.isVoid <;> rfl

lemma loadBy_of_astray (astray : Astray reader octets) :
    ∃ problem, loadBy reader disk environment path = .error problem ∧ isTold problem = false := by
  cases astray with
  | undecodable decoded => exact ⟨_, loadBy_of_fault placed stored (decodeBy_of_undecodable decoded), rfl⟩
  | badScalar spelt read scalar =>
    exact ⟨_, loadBy_of_fault placed stored (decodeBy_of_badScalar spelt read scalar), rfl⟩
  | @overtaxing value holds beyond =>
    rw [loadBy_of_holds placed stored holds]
    -- Only a mapping has entries, and one that is made of a mapping fails quietly.
    have mapping : value.entries?.isSome = true := by
      by_contra foreign
      exact not_overtaxes_of_no_mapping (Option.not_isSome_iff_eq_none.mp foreign) beyond
    cases made : ofValue file.parent value with
    | error problem => exact ⟨problem, rfl, quiet_ofValue mapping problem made⟩
    | ok settings => exact absurd beyond ((ofValue_ok_iff mapping).mp ⟨settings, made⟩)

/-- The ends of loading. -/
lemma loadBy_cases :
    Astray reader octets ∨
      ((∃ text, Spells octets text ∧ reader text = .error .malformed) ∧
        loadBy reader disk environment path = .error (.malformed file.name)) ∨
      ((∃ value, Holds reader octets value ∧ value.entries? = none ∧ value.isVoid = false) ∧
        loadBy reader disk environment path = .error .notMapping) ∨
      ∃ settings, loadBy reader disk environment path = .ok settings := by
  rcases holds_or_fails reader octets with
    ⟨value, holds⟩ | ⟨text, spelt, read⟩ | ⟨error, decoded⟩ | ⟨text, fault, spelt, read, scalar⟩
  · cases mapping : value.entries? with
    | none =>
      have ends : loadBy reader disk environment path =
          if value.isVoid then .ok (withToken environment { root := file.parent }) else .error .notMapping :=
        loadBy_of_foreign placed stored holds mapping
      cases void : value.isVoid with
      | false => exact .inr (.inr (.inl ⟨⟨value, holds, mapping, void⟩, by simpa [void] using ends⟩))
      | true => exact .inr (.inr (.inr ⟨_, by simpa [void] using ends⟩))
    | some fields =>
      by_cases beyond : Overtaxes value
      · exact .inl (.overtaxing holds beyond)
      · obtain ⟨settings, made⟩ : ∃ settings, ofValue file.parent value = .ok settings :=
          (ofValue_ok_iff (by rw [mapping]; rfl)).mpr beyond
        have loads : loadBy reader disk environment path = .ok (withToken environment settings) := by
          rw [loadBy_of_holds placed stored holds, made]
          rfl
        exact .inr (.inr (.inr ⟨_, loads⟩))
  · exact .inr (.inl ⟨⟨text, spelt, read⟩, loadBy_of_fault placed stored (decodeBy_of_malformed spelt read)⟩)
  · exact .inl (.undecodable decoded)
  · exact .inl (.badScalar spelt read scalar)

/-- A failure that is told has one of two reasons. -/
lemma loadBy_told {problem : Problem} (fails : loadBy reader disk environment path = .error problem)
    (told : isTold problem = true) :
    problem = .malformed file.name ∧ (∃ text, Spells octets text ∧ reader text = .error .malformed) ∨
      problem = .notMapping ∧ ∃ value, Holds reader octets value ∧ value.entries? = none ∧ value.isVoid = false := by
  rcases @loadBy_cases reader disk environment path file octets placed stored with
    astray | ⟨broken, is⟩ | ⟨foreign, is⟩ | ⟨settings, is⟩
  · obtain ⟨other, is, untold⟩ := @loadBy_of_astray reader disk environment path file octets placed stored astray
    cases fails.symm.trans is
    cases told.symm.trans untold
  · exact .inl ⟨Except.error.inj (fails.symm.trans is), broken⟩
  · exact .inr ⟨Except.error.inj (fails.symm.trans is), foreign⟩
  · cases fails.symm.trans is

/-- A failure that is not told comes of a file that goes astray. -/
lemma astray_of_untold {problem : Problem} (fails : loadBy reader disk environment path = .error problem)
    (untold : isTold problem = false) : Astray reader octets := by
  rcases @loadBy_cases reader disk environment path file octets placed stored with
    astray | ⟨-, is⟩ | ⟨-, is⟩ | ⟨settings, is⟩
  · exact astray
  · cases fails.symm.trans is
    cases untold
  · cases fails.symm.trans is
    cases untold
  · cases fails.symm.trans is

/-- The three ends of loading settings from a file that is there. It goes astray, with a failure that is not told, just
when the file does; what is told is that the document breaks the grammar, or that its root holds something and is no
mapping. A root that is no mapping and holds nothing, like the truth value `false`, stands for the defaults. -/
theorem loading_goes_astray_iff :
    ((∃ problem, loadBy reader disk environment path = .error problem ∧ isTold problem = false) ↔
      Astray reader octets) ∧
    (∀ problem, loadBy reader disk environment path = .error problem → isTold problem = true →
      problem = .malformed file.name ∨ problem = .notMapping) ∧
    (loadBy reader disk environment path = .error (.malformed file.name) ↔
      ∃ text, Spells octets text ∧ reader text = .error .malformed) ∧
    (loadBy reader disk environment path = .error .notMapping ↔
      ∃ value, Holds reader octets value ∧ value.entries? = none ∧ value.isVoid = false) ∧
    ∀ value, Holds reader octets value → value.entries? = none → value.isVoid = true →
      loadBy reader disk environment path = .ok (withToken environment { root := file.parent }) := by
  refine ⟨⟨?_, loadBy_of_astray placed stored⟩, fun problem fails told => ?_, ⟨fun fails => ?_, ?_⟩,
    ⟨fun fails => ?_, ?_⟩, ?_⟩
  · rintro ⟨problem, fails, untold⟩
    exact astray_of_untold placed stored fails untold
  · exact (loadBy_told placed stored fails told).imp And.left And.left
  · obtain ⟨-, broken⟩ | ⟨other, -⟩ := loadBy_told placed stored fails rfl
    · exact broken
    · cases other
  · rintro ⟨text, spelt, read⟩
    exact loadBy_of_fault placed stored (decodeBy_of_malformed spelt read)
  · obtain ⟨other, -⟩ | ⟨-, foreign⟩ := loadBy_told placed stored fails rfl
    · cases other
    · exact foreign
  · rintro ⟨value, holds, foreign, solid⟩
    rw [loadBy_of_foreign placed stored holds foreign, solid]
    rfl
  · intro value holds foreign void
    rw [loadBy_of_foreign placed stored holds foreign, void]
    rfl

end

/-- A file of one octet that begins no character. -/
theorem loading_goes_astray_iff_octet :
    ∃ problem, load (directoryWith [255]) [] ⟨false, []⟩ = .error problem ∧ isTold problem = false := by
  have stored : (directoryWith [255]).read ⟨true, [fileName]⟩ = .ok [255] := by decide +kernel
  have decoded : Utf8.decode [255] = .error ⟨.invalidStart, 0, 1, 255⟩ := by decide +kernel
  rw [load_eq]
  exact (loading_goes_astray_iff (fileOf_directoryWith [255]) stored).1.mpr (.undecodable decoded)

end Settings

end RepoAudit
