import RepoAudit.Proofs.Repetition
import RepoAudit.Proofs.Store.Effect
import RepoAudit.Proofs.Store.Intact

/-!
# Operations that change a store

All operations that change a store go the same way: what they are asked for is refused, or is not there, and nothing
changes; or there is a store that it leads to (`Operation.target`), which is taken and then written. So what becomes
of the store and of its file is told by the target and by the write (`Operation.on_of_refused`,
`Operation.on_of_target`).
-/

namespace RepoAudit

/-- An operation that can change a store. -/
inductive Operation where
  | createAudit (owner name address : String)
  | updateAudit (id : String) (changes : List (String × Json))
  | deleteAudit (id : String)
  | createFinding (auditId : String) (draft : FindingRecord)
  | updateFinding (id : String) (changes : List (String × Json))
  | deleteFinding (id : String)

namespace Operation

/-- What an operation answers with. -/
def Answer : Operation → Type
  | createAudit .. => AuditRecord
  | updateAudit .. => Option AuditRecord
  | createFinding .. => FindingRecord
  | updateFinding .. => Option FindingRecord
  | deleteAudit _ | deleteFinding _ => Bool

/-- An operation, done. -/
def action : (op : Operation) → Ledger.Action op.Answer
  | createAudit owner name address => Ledger.createAudit owner name address
  | updateAudit id changes => Ledger.updateAuditByName id changes
  | deleteAudit id => Ledger.deleteAudit id
  | createFinding auditId draft => Ledger.createFinding auditId draft
  | updateFinding id changes => Ledger.updateFindingByName id changes
  | deleteFinding id => Ledger.deleteFinding id

/-- The number of ids that an operation draws. -/
def draws : Operation → Nat
  | createAudit .. | createFinding .. => 1
  | _ => 0

/-- Changes of the fields of an audit that are given by name. -/
def auditChanges (changes : List (String × Json)) : List (AuditField × Json) :=
  changes.filterMap fun (name, value) => (AuditField.ofName? name).map (·, value)

/-- Changes of the fields of a finding that are given by name. -/
def findingChanges (changes : List (String × Json)) : List (FindingField × Json) :=
  changes.filterMap fun (name, value) => (FindingField.ofName? name).map (·, value)

/-- True of changes that an audit can be asked for: every name is that of a field. -/
def changesAudit (changes : List (String × Json)) : Bool :=
  changes.all fun change => (AuditField.ofName? change.1).isSome

/-- True of changes that a finding can be asked for: every name is that of a field, and the state is one of those
that its handling can be in. -/
def changesFinding (changes : List (String × Json)) : Bool :=
  changes.all (fun change => (FindingField.ofName? change.1).isSome) &&
    (changes.lookup FindingField.status.name).all Ledger.isHandling

/-- The store that an operation leads to, unless it is refused or what it is about is missing. -/
def target (ledger : Ledger) : Operation → Option Store
  | createAudit owner name address =>
    some (ledger.store.putAudit
      (Ledger.newAudit (ledger.ids (ledger.drawn + 1)) owner name address ledger.now))
  | updateAudit id changes =>
    if changesAudit changes then
      (ledger.store.audit? id).map fun audit => ledger.store.putAudit (audit.change (auditChanges changes))
    else none
  | deleteAudit id =>
    ((ledger.store.audit? id).filter (!·.isRunning)).map fun _ => ledger.store.dropAudit id
  | createFinding auditId draft =>
    (ledger.store.audit? auditId).map fun _ =>
      ledger.store.putFinding (Ledger.filed draft (ledger.ids (ledger.drawn + 1)) auditId)
  | updateFinding id changes =>
    if changesFinding changes then
      (ledger.store.finding? id).map fun finding =>
        ledger.store.putFinding (finding.change (findingChanges changes))
    else none
  | deleteFinding id => (ledger.store.finding? id).map fun _ => ledger.store.dropFinding id

/-- An operation with values of the kinds that fields are given. -/
def Typed : Operation → Prop
  | updateAudit _ changes => ∀ change ∈ auditChanges changes, change.1.Admits change.2
  | createFinding _ draft => ∀ field, (draft.get field).isPlain 0 = true
  | updateFinding _ changes => ∀ change ∈ findingChanges changes, change.2.isPlain 0 = true
  | _ => True

section Named

variable (changes : List (String × Json))

lemma isEmpty_unnamed {α : Type} (field? : String → Option α) :
    ((changes.map (·.1)).filter fun name => (field? name).isNone).isEmpty =
      changes.all fun change => (field? change.1).isSome := by
  rw [Bool.eq_iff_iff]
  simp [List.filter_eq_nil_iff, Option.ne_none_iff_isSome]

lemma mem_of_nameInUse? {inUse : List String} {name : String} (found : Ledger.nameInUse? inUse changes = some name) :
    name ∈ changes.map (·.1) ∧ name ∈ inUse :=
  ⟨List.mem_of_find?_eq_some found, by simpa using List.find?_some found⟩

/-- Changes with a name that is in use are no changes of fields, as no field has such a name. -/
lemma all_isSome_of_nameInUse? {α : Type} {field? : String → Option α} {inUse : List String} {name : String}
    (foreign : ∀ name ∈ inUse, field? name = none) (found : Ledger.nameInUse? inUse changes = some name) :
    (changes.all fun change => (field? change.1).isSome) = false := by
  obtain ⟨present, used⟩ := mem_of_nameInUse? changes found
  obtain ⟨change, member, rfl⟩ := List.mem_map.mp present
  exact List.all_eq_false.mpr ⟨change, member, by simp [foreign _ used]⟩

/-- Changes of an audit by name are refused, or they are changes of its fields. -/
lemma updateAuditByName_eq (id : String) :
    (changesAudit changes = true ∧
      Ledger.updateAuditByName id changes = Ledger.updateAudit id (auditChanges changes)) ∨
    (changesAudit changes = false ∧
      ∃ error, error.isWriteFailure = false ∧ Ledger.updateAuditByName id changes = throw error) := by
  simp only [Ledger.updateAuditByName, isEmpty_unnamed, changesAudit]
  cases found : Ledger.nameInUse? Ledger.auditNamesInUse changes with
  | some name => exact .inr ⟨all_isSome_of_nameInUse? changes (by decide) found, _, rfl, rfl⟩
  | none =>
    cases changes.all fun change => (AuditField.ofName? change.1).isSome with
    | true => exact .inl ⟨rfl, rfl⟩
    | false => exact .inr ⟨rfl, _, rfl, rfl⟩

/-- What is wrong with changes of a finding by name, as it is told: a name that the operation has in use, or else all
names that no change can have, or else a state that is neither one of those in which handling can be nor `null`. -/
inductive FindingFault : StoreError → Prop
  | inUse {name : String} : name ∈ changes.map (·.1) → name ∈ Ledger.findingNamesInUse →
    FindingFault (.nameInUse "update_finding" name)
  | unchangeable {names : List String} : (∀ name ∈ changes.map (·.1), name ∉ Ledger.findingNamesInUse) →
    names ≠ [] → names.Nodup →
    (∀ name, name ∈ names ↔ name ∈ changes.map (·.1) ∧ FindingField.Unchangeable name) →
    FindingFault (.unknownFindingFields names)
  | state {value : Json} : (∀ change ∈ changes, ¬ FindingField.Unchangeable change.1) →
    changes.lookup FindingField.status.name = some value → ¬ FindingField.status.Takes value → value ≠ .null →
    FindingFault (.unknownHandling value)

/-- Changes of a finding by name are refused, or they are changes of its fields. -/
lemma updateFindingByName_eq (id : String) :
    (changesFinding changes = true ∧
      Ledger.updateFindingByName id changes = Ledger.updateFinding id (findingChanges changes)) ∨
    (changesFinding changes = false ∧
      ∃ error, FindingFault changes error ∧ Ledger.updateFindingByName id changes = throw error) := by
  simp only [Ledger.updateFindingByName, isEmpty_unnamed, changesFinding]
  cases found : Ledger.nameInUse? Ledger.findingNamesInUse changes with
  | some name =>
    obtain ⟨present, used⟩ := mem_of_nameInUse? changes found
    refine .inr ⟨?_, _, .inUse present used, rfl⟩
    rw [all_isSome_of_nameInUse? changes (by decide) found, Bool.false_and]
  | none =>
    cases known : changes.all fun change => (FindingField.ofName? change.1).isSome with
    | false =>
      -- The names that are told are all that no change can have, and there is one.
      have told (name : String) : name ∈ ((changes.map (·.1)).filter fun name =>
          (FindingField.ofName? name).isNone).eraseDups ↔
          name ∈ changes.map (·.1) ∧ FindingField.Unchangeable name := by
        rw [List.mem_eraseDups, List.mem_filter, Option.isNone_iff_eq_none, FindingField.ofName?_eq_none_iff]
      obtain ⟨change, member, foreign⟩ := List.all_eq_false.mp known
      have unchangeable : FindingField.Unchangeable change.1 := by
        rwa [Option.not_isSome_iff_eq_none, FindingField.ofName?_eq_none_iff] at foreign
      refine .inr ⟨rfl, _, .unchangeable ?_ ?_ (nodup_eraseDups _) told, rfl⟩
      · simpa [Ledger.nameInUse?] using found
      · exact List.ne_nil_of_mem ((told _).mpr ⟨List.mem_map_of_mem member, unchangeable⟩)
    | true =>
      have changeable : ∀ change ∈ changes, ¬ FindingField.Unchangeable change.1 := by
        simpa [← FindingField.ofName?_eq_none_iff, Option.isSome_iff_ne_none] using known
      cases given : changes.lookup FindingField.status.name with
      | none => exact .inl ⟨rfl, rfl⟩
      | some value =>
        rw [Option.filter_some]
        cases handling : Ledger.isHandling value with
        | true => exact .inl ⟨by simp [handling], rfl⟩
        | false =>
          have other : ¬ (FindingField.status.Takes value ∨ value = .null) := by
            rw [← FindingField.isHandling_iff, handling]
            exact Bool.false_ne_true
          obtain ⟨unlisted, some⟩ := not_or.mp other
          exact .inr ⟨by simp [handling], _, .state changeable given unlisted some, rfl⟩

variable {changes} in
/-- What is wrong with changes is told before anything is written. -/
lemma FindingFault.isWriteFailure {error : StoreError} (fault : FindingFault changes error) :
    error.isWriteFailure = false := by
  cases fault <;> rfl

end Named

section Effect

open Ledger (Action)

variable {op : Operation} {ledger : Ledger}

lemma saved_ok {α : Type} (value : α) : Saved (.ok value) := by
  rintro _ ⟨⟩

lemma saved_error {α : Type} {error : StoreError} (other : error.isWriteFailure = false) :
    Saved (.error error : Except StoreError α) := by
  rintro _ ⟨⟩
  exact other

/-- An operation without a target leaves the store and the disk, and does not fail in writing. -/
lemma on_of_refused (refused : op.target ledger = none) : ∃ reply, Saved reply ∧
    Action.on op.action ledger = (reply, { ledger with drawn := ledger.drawn + op.draws }) := by
  cases op with
  | createAudit owner name address => cases refused
  | updateAudit id changes =>
    obtain ⟨named, is⟩ | ⟨-, error, other, is⟩ := updateAuditByName_eq changes id
    · simp only [target, named, if_true, Option.map_eq_none_iff] at refused
      refine ⟨.ok none, saved_ok _, ?_⟩
      show Action.on (Ledger.updateAuditByName id changes) ledger = (.ok none, ledger)
      simp [is, Ledger.updateAudit, refused]
    · refine ⟨.error error, saved_error other, ?_⟩
      show Action.on (Ledger.updateAuditByName id changes) ledger = (.error error, ledger)
      rw [is, Action.on_throw]
  | deleteAudit id =>
    cases found : ledger.store.audit? id with
    | none =>
      refine ⟨.ok false, saved_ok _, ?_⟩
      show Action.on (Ledger.deleteAudit id) ledger = (.ok false, ledger)
      simp [Ledger.deleteAudit, found]
    | some audit =>
      cases running : audit.isRunning with
      | true =>
        refine ⟨.error (.scanInProgress id), saved_error rfl, ?_⟩
        show Action.on (Ledger.deleteAudit id) ledger = (.error (.scanInProgress id), ledger)
        simp [Ledger.deleteAudit, found, running]
      | false => simp [target, found, running] at refused
  | createFinding auditId draft =>
    simp only [target, Option.map_eq_none_iff] at refused
    refine ⟨.error (.noAudit auditId), saved_error rfl, ?_⟩
    show Action.on (Ledger.createFinding auditId draft) ledger =
      (.error (.noAudit auditId), { ledger with drawn := ledger.drawn + 1 })
    simp [Ledger.createFinding, refused]
  | updateFinding id changes =>
    obtain ⟨named, is⟩ | ⟨-, error, fault, is⟩ := updateFindingByName_eq changes id
    · simp only [target, named, if_true, Option.map_eq_none_iff] at refused
      refine ⟨.ok none, saved_ok _, ?_⟩
      show Action.on (Ledger.updateFindingByName id changes) ledger = (.ok none, ledger)
      simp [is, Ledger.updateFinding, refused]
    · refine ⟨.error error, saved_error fault.isWriteFailure, ?_⟩
      show Action.on (Ledger.updateFindingByName id changes) ledger = (.error error, ledger)
      rw [is, Action.on_throw]
  | deleteFinding id =>
    simp only [target, Option.map_eq_none_iff] at refused
    refine ⟨.ok false, saved_ok _, ?_⟩
    show Action.on (Ledger.deleteFinding id) ledger = (.ok false, ledger)
    simp [Ledger.deleteFinding, refused]

/-- An operation with a target takes it and writes it. -/
lemma on_of_target {store : Store} (is : op.target ledger = some store) : ∃ answer,
    Action.on op.action ledger =
      Action.on (do Ledger.commit store; return answer) { ledger with drawn := ledger.drawn + op.draws } := by
  cases op with
  | createAudit owner name address =>
    cases is
    exact ⟨_, rfl⟩
  | updateAudit id changes =>
    obtain ⟨named, is'⟩ | ⟨named, -⟩ := updateAuditByName_eq changes id
    · simp only [target, named, if_true, Option.map_eq_some_iff] at is
      obtain ⟨audit, found, rfl⟩ := is
      refine ⟨some (audit.change (auditChanges changes)), ?_⟩
      show Action.on (Ledger.updateAuditByName id changes) ledger = Action.on (do
        Ledger.commit (ledger.store.putAudit (audit.change (auditChanges changes)))
        return some (audit.change (auditChanges changes))) ledger
      simp [is', Ledger.updateAudit, found]
    · simp [target, named] at is
  | deleteAudit id =>
    simp only [target, Option.map_eq_some_iff, Option.filter_eq_some_iff] at is
    obtain ⟨audit, ⟨found, idle⟩, rfl⟩ := is
    have idle : audit.isRunning = false := by simpa using idle
    refine ⟨true, ?_⟩
    show Action.on (Ledger.deleteAudit id) ledger = Action.on (do
      Ledger.commit (ledger.store.dropAudit id)
      return true) ledger
    simp [Ledger.deleteAudit, found, idle]
  | createFinding auditId draft =>
    simp only [target, Option.map_eq_some_iff] at is
    obtain ⟨audit, found, rfl⟩ := is
    refine ⟨Ledger.filed draft (ledger.ids (ledger.drawn + 1)) auditId, ?_⟩
    show Action.on (Ledger.createFinding auditId draft) ledger = Action.on (do
      Ledger.commit (ledger.store.putFinding (Ledger.filed draft (ledger.ids (ledger.drawn + 1)) auditId))
      return Ledger.filed draft (ledger.ids (ledger.drawn + 1)) auditId) { ledger with drawn := ledger.drawn + 1 }
    simp [Ledger.createFinding, found]
  | updateFinding id changes =>
    obtain ⟨named, is'⟩ | ⟨named, -⟩ := updateFindingByName_eq changes id
    · simp only [target, named, if_true, Option.map_eq_some_iff] at is
      obtain ⟨finding, found, rfl⟩ := is
      refine ⟨some (finding.change (findingChanges changes)), ?_⟩
      show Action.on (Ledger.updateFindingByName id changes) ledger = Action.on (do
        Ledger.commit (ledger.store.putFinding (finding.change (findingChanges changes)))
        return some (finding.change (findingChanges changes))) ledger
      simp [is', Ledger.updateFinding, found]
    · simp [target, named] at is
  | deleteFinding id =>
    simp only [target, Option.map_eq_some_iff] at is
    obtain ⟨finding, found, rfl⟩ := is
    refine ⟨true, ?_⟩
    show Action.on (Ledger.deleteFinding id) ledger = Action.on (do
      Ledger.commit (ledger.store.dropFinding id)
      return true) ledger
    simp [Ledger.deleteFinding, found]

end Effect

section Target

variable {op : Operation} {ledger : Ledger} {store : Store}

/-- The target of an operation with typed values is what such an operation does. -/
lemma changed (typed : op.Typed) (is : op.target ledger = some store) :
    ledger.Changed store (ledger.drawn + op.draws) := by
  cases op with
  | createAudit owner name address =>
    cases is
    exact .makes rfl (Ledger.typed_newAudit _ _ _ _ _)
  | updateAudit id changes =>
    simp only [target, Option.ite_none_right_eq_some, Option.map_eq_some_iff] at is
    obtain ⟨-, audit, found, rfl⟩ := is
    exact .changes found typed
  | deleteAudit id =>
    obtain ⟨audit, -, rfl⟩ := Option.map_eq_some_iff.mp is
    exact .discards id
  | createFinding auditId draft =>
    obtain ⟨audit, found, rfl⟩ := Option.map_eq_some_iff.mp is
    exact .files found typed
  | updateFinding id changes =>
    simp only [target, Option.ite_none_right_eq_some, Option.map_eq_some_iff] at is
    obtain ⟨-, finding, found, rfl⟩ := is
    exact .amends found typed
  | deleteFinding id =>
    obtain ⟨finding, -, rfl⟩ := Option.map_eq_some_iff.mp is
    exact .drops id

/-- An operation leaves the path of the store. -/
lemma path_target (is : op.target ledger = some store) : store.path = ledger.store.path := by
  have putAudit (audit : AuditRecord) : (ledger.store.putAudit audit).path = ledger.store.path := by
    unfold Store.putAudit
    split <;> rfl
  have putFinding (finding : FindingRecord) : (ledger.store.putFinding finding).path = ledger.store.path := by
    unfold Store.putFinding
    split <;> rfl
  cases op with
  | createAudit owner name address =>
    cases is
    exact putAudit _
  | updateAudit id changes =>
    simp only [target, Option.ite_none_right_eq_some, Option.map_eq_some_iff] at is
    obtain ⟨-, audit, -, rfl⟩ := is
    exact putAudit _
  | updateFinding id changes =>
    simp only [target, Option.ite_none_right_eq_some, Option.map_eq_some_iff] at is
    obtain ⟨-, finding, -, rfl⟩ := is
    exact putFinding _
  | createFinding auditId draft =>
    obtain ⟨audit, -, rfl⟩ := Option.map_eq_some_iff.mp is
    exact putFinding _
  | deleteAudit id | deleteFinding id =>
    obtain ⟨old, -, rfl⟩ := Option.map_eq_some_iff.mp is
    rfl

end Target

end Operation

end RepoAudit
