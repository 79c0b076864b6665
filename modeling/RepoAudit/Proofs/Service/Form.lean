import RepoAudit.Proofs.Json.Plain
import RepoAudit.Proofs.Partial
import RepoAudit.Proofs.Store.Records
import RepoAudit.Service.Basic

/-!
# What the service keeps of bodies

A body that fits a form has the form's members and no others, so a person cannot enter a finding as detected,
and no change says anything about that. What is kept of a body are no arrays and no objects.
-/

namespace RepoAudit

/-- True of the forms whose values are no arrays and no objects. -/
def Form.isScalar : Form → Bool
  | .text => true
  | .integer => true
  | .flag => true
  | .oneOf _ => true
  | .optional form => form.isScalar
  | _ => false

/-- A value of such a form is no array and no object. -/
lemma Form.isPlain_check : ∀ {form : Form} {value result : Json}, form.isScalar = true →
    form.check value = .ok result → result.isPlain 0 = true
  | .text, value, result, _, fits => by
    cases value with
    | text s =>
      cases fits
      rfl
    | _ => cases fits
  | .integer, value, result, _, fits => by
    rw [check] at fits
    cases taken : LaxInteger.ofJson value with
    | ok n =>
      rw [taken] at fits
      cases fits
      rfl
    | error issues =>
      rw [taken] at fits
      cases fits
  | .flag, value, result, _, fits => by
    rw [check] at fits
    cases taken : LaxFlag.ofJson value with
    | ok b =>
      rw [taken] at fits
      cases fits
      rfl
    | error issues =>
      rw [taken] at fits
      cases fits
  | .oneOf names, value, result, _, fits => by
    cases value with
    | text s =>
      simp only [check, Checked.wrong] at fits
      split at fits
      · cases fits
        rfl
      · cases fits
    | _ => cases fits
  | .optional form, value, result, scalar, fits => by
    rw [check] at fits
    split at fits
    · cases fits
      rfl
    · have kept : form.isScalar = true := scalar
      exact isPlain_check kept fits

/-- The words of a form that lists them. -/
def Form.words? : Form → Option (List String)
  | .oneOf words => some words
  | _ => none

/-- The form apart from whether there may be no value. -/
def Form.required : Form → Form
  | .optional form => form
  | form => form

/-- A form that lists the words of a field gives one of them. -/
lemma Form.takes_of_check {form : Form} {field : FindingField} {value result : Json}
    (offers : field.words? = none ∨ form.words? = field.words?) (fits : form.check value = .ok result) :
    field.Takes result := by
  intro words listed
  rw [Option.mem_def] at listed
  obtain none | same := offers
  · rw [none] at listed
    cases listed
  rw [listed] at same
  cases form with
  | oneOf names =>
    obtain rfl := Option.some.inj same
    cases value with
    | text word =>
      simp only [check, Checked.wrong] at fits
      split at fits
      · next member =>
        cases fits
        exact ⟨word, List.contains_iff_mem.mp member, rfl⟩
      · cases fits
    | _ => cases fits
  | _ => cases same

/-- What a form gives is nothing, or what it gives where there has to be a value. -/
lemma Form.required_check {form : Form} {value result : Json} (fits : form.check value = .ok result) :
    result.isNull = true ∨ form.required.check value = .ok result := by
  cases form with
  | optional form =>
    rw [check] at fits
    split at fits
    · cases fits
      exact .inl rfl
    · exact .inr fits
  | _ => exact .inr fits

/-- Two checks that both pass. -/
lemma Checked.of_both {α β γ : Type} {first : Checked α} {second : Checked β} {make : α × β → γ} {result : γ}
    (fits : (first.both second).map make = .ok result) :
    ∃ a b, first = .ok a ∧ second = .ok b ∧ make (a, b) = result := by
  cases first with
  | ok a =>
    cases second with
    | ok b => exact ⟨a, b, rfl, rfl, Except.ok.inj fits⟩
    | error issues => cases fits
  | error issues => cases second <;> cases fits

/-- A check of a part passes just when it passes by itself. -/
lemma Checked.of_inside {α : Type} {step : PlaceStep} {part : Checked α} {value : α}
    (fits : part.inside step = .ok value) : part = .ok value := by
  cases part with
  | ok a => exact fits
  | error issues => cases fits

/-- What fits the fields of a form has a member for each of them and no others, and what the form of each field gives
holds of its member. -/
lemma FormFields.forall_check {P : String → Json → Prop} {members : List (String × Json)} :
    ∀ {fields : List (String × Form × Option Json)} {result : List (String × Json)},
    (∀ field ∈ fields, (∀ raw value, field.2.1.check raw = .ok value → P field.1 value) ∧
      ∀ standard ∈ field.2.2, P field.1 standard) →
    (FormFields.ofList fields).check members = .ok result →
    result.map Prod.fst = fields.map Prod.fst ∧ ∀ member ∈ result, P member.1 member.2 := by
  intro fields
  induction fields with
  | nil =>
    intro result _ fits
    cases fits
    simp
  | cons field fields ih =>
    intro result each fits
    obtain ⟨name, form, standard⟩ := field
    obtain ⟨⟨gives, holds⟩, others⟩ := List.forall_mem_cons.mp each
    simp only [ofList, check] at fits
    obtain ⟨value, taken, first, rest, rfl⟩ := Checked.of_both fits
    obtain ⟨names, later⟩ := ih others rest
    refine ⟨by rw [List.map_cons, List.map_cons, names], List.forall_mem_cons.mpr ⟨?_, later⟩⟩
    have given := Checked.of_inside first
    split at given
    · exact gives _ _ given
    · cases given
      exact holds _ rfl
    · cases given

namespace Service

section Fields

variable {fields : List (String × Form × Option Json)} {raw body : Json}

/-- What an object that fits a form gives of a finding: each field of the form, and of it what its form gives. -/
lemma forall_findingFields {P : String → Json → Prop}
    (each : ∀ field ∈ fields, (∀ raw value, field.2.1.check raw = .ok value → P field.1 value) ∧
      ∀ standard ∈ field.2.2, P field.1 standard)
    (fits : (Form.fields fields).check raw = .ok body) :
    (∀ change ∈ findingFields body, P change.1.name change.2) ∧
      ∀ field : FindingField, field.name ∈ fields.map Prod.fst → ∃ change ∈ findingFields body, change.1 = field := by
  cases raw with
  | object members =>
    simp only [Form.fields, Form.check] at fits
    obtain ⟨taken, checked, rfl⟩ := exists_of_map_ok fits
    obtain ⟨names, holds⟩ := FormFields.forall_check each checked
    refine ⟨fun change given => ?_, fun field named => ?_⟩
    · obtain ⟨⟨name, value⟩, stored, is⟩ := List.mem_filterMap.mp given
      obtain ⟨field, named, rfl⟩ := Option.map_eq_some_iff.mp is
      obtain rfl : field.name = name := by simpa using List.find?_some named
      exact holds _ stored
    · rw [← names] at named
      obtain ⟨⟨name, value⟩, stored, rfl⟩ := List.mem_map.mp named
      refine ⟨(field, value), List.mem_filterMap.mpr ⟨_, stored, ?_⟩, rfl⟩
      simp [FindingField.ofName?_name]
  | _ => cases fits

/-- What an object that fits a form gives of a finding is of the form's fields, and there is no array and no
object among it. -/
lemma mem_findingFields
    (scalar : ∀ field ∈ fields, field.2.1.isScalar = true ∧ ∀ standard ∈ field.2.2, standard.isPlain 0 = true)
    (fits : (Form.fields fields).check raw = .ok body) :
    ∀ change ∈ findingFields body, (∃ field ∈ fields, field.1 = change.1.name) ∧
      change.2.isPlain 0 = true := by
  refine (forall_findingFields (P := fun name value => (∃ field ∈ fields, field.1 = name) ∧ value.isPlain 0 = true)
    (fun field present => ?_) fits).1
  obtain ⟨isScalar, isPlain⟩ := scalar field present
  exact ⟨fun raw value given => ⟨⟨field, present, rfl⟩, Form.isPlain_check isScalar given⟩,
    fun standard is => ⟨⟨field, present, rfl⟩, isPlain standard is⟩⟩

lemma exists_findingFields (fits : (Form.fields fields).check raw = .ok body) (field : FindingField)
    (named : field.name ∈ fields.map Prod.fst) : ∃ change ∈ findingFields body, change.1 = field :=
  (forall_findingFields (P := fun _ _ => True) (by simp) fits).2 field named

/-- Where the fields of a form list the words of the finding's fields, these take what the form gives. -/
lemma takes_findingFields (offers : ∀ entry ∈ fields, ∀ field ∈ FindingField.all, field.name = entry.1 →
      (field.words? = none ∨ entry.2.1.words? = field.words?) ∧ ∀ standard ∈ entry.2.2, field.Takes standard)
    (fits : (Form.fields fields).check raw = .ok body) : ∀ change ∈ findingFields body, change.1.Takes change.2 := by
  intro change given
  refine (forall_findingFields (P := fun name value => ∀ field : FindingField, field.name = name → field.Takes value)
    (fun entry present => ?_) fits).1 change given change.1 rfl
  have offers (field : FindingField) := offers entry present field field.mem_all
  exact ⟨fun raw value checks field named => Form.takes_of_check (offers field named).1 checks,
    fun standard is field named => (offers field named).2 standard is⟩

/-- Where they do so for the values that are there, the finding's fields take these. -/
lemma takes_findingFields_of_some (offers : ∀ entry ∈ fields, ∀ field ∈ FindingField.all, field.name = entry.1 →
      (field.words? = none ∨ entry.2.1.required.words? = field.words?) ∧ ∀ standard ∈ entry.2.2, standard.isNull = true)
    (fits : (Form.fields fields).check raw = .ok body) :
    ∀ change ∈ findingFields body, change.2.isNull = false → change.1.Takes change.2 := by
  intro change given
  refine (forall_findingFields
    (P := fun name value => ∀ field : FindingField, field.name = name → value.isNull = false → field.Takes value)
    (fun entry present => ?_) fits).1 change given change.1 rfl
  have offers (field : FindingField) := offers entry present field field.mem_all
  refine ⟨fun raw value checks field named some => ?_, fun standard is field named some => ?_⟩
  · obtain none | checks := Form.required_check checks
    · rw [some] at none
      cases none
    · exact Form.takes_of_check (offers field named).1 checks
  · rw [(offers field named).2 standard is] at some
    cases some

end Fields

variable {raw body : Json}

/-- A finding that a person enters is not detected, and there is no array and no object in it. -/
lemma enteredFinding_of_check (fits : Form.newFinding.check raw = .ok body) :
    (enteredFinding body).autoDetected = .bool false ∧ (enteredFinding body).auditId = .null ∧
      ∀ field, ((enteredFinding body).get field).isPlain 0 = true := by
  have given := mem_findingFields (by decide) fits
  refine ⟨?_, FindingRecord.change_auditId _ _, fun field => ?_⟩
  · have unnamed : ∀ change ∈ findingFields body, change.1 ≠ .autoDetected := ?_
    · exact FindingRecord.get_change_of_notMem unnamed _
    intro change stored detected
    obtain ⟨⟨field, present, same⟩, -⟩ := given change stored
    rw [detected] at same
    revert field
    decide
  · obtain kept | ⟨value, named, is⟩ := FindingRecord.get_change _ (findingFields body) field
    · rw [enteredFinding, kept]
      cases field <;> rfl
    · rw [enteredFinding, is]
      exact (given _ named).2

/-- The changes of a finding do not say whether it was detected, and there is no array and no object among
them. -/
lemma findingChanges_of_check (fits : Form.findingChanges.check raw = .ok body) :
    ∀ change ∈ findingFields body, change.1 ≠ .autoDetected ∧ change.2.isPlain 0 = true := by
  have given := mem_findingFields (by decide) fits
  intro change stored
  obtain ⟨⟨field, present, same⟩, plain⟩ := given change stored
  refine ⟨fun detected => ?_, plain⟩
  rw [detected] at same
  revert field
  decide

/-- The words of a finding that a person enters are listed. -/
lemma listed_enteredFinding (fits : Form.newFinding.check raw = .ok body) : (enteredFinding body).Listed := by
  have takes := takes_findingFields (by decide) fits
  intro field
  rw [enteredFinding]
  by_cases given : ∃ change ∈ findingFields body, change.1 = field
  · obtain ⟨value, member, is⟩ := FindingRecord.get_change_of_mem given _
    rw [is]
    exact takes _ member
  · rw [FindingRecord.get_change_of_notMem fun change member same => given ⟨change, member, same⟩]
    -- Only the state is not asked for, and a finding is open at first.
    cases field with
    | category | severity | effort => exact absurd (exists_findingFields fits _ (by decide)) given
    | _ => decide

/-- The words that a change of a finding gives are listed. -/
lemma takes_findingChanges (fits : Form.findingChanges.check raw = .ok body) :
    ∀ change ∈ findingFields body, change.2.isNull = false → change.1.Takes change.2 :=
  takes_findingFields_of_some (by decide) fits

end Service

end RepoAudit
