import RepoAudit.Proofs.Json.Settled
import RepoAudit.Proofs.Store.Operation

/-!
# Changes of a finding by name

A finding is changed by names of fields with values. Such changes are faulty when a name is that of no field or of one
of the ids, or when a state is none of those in which handling can be. They are refused for that, and nothing changes,
with one exception: a state of `null` is taken for one that is not given where the changes are looked at, and for a
value where they are made (`Ledger.faulty_changes_are_refused_but_null`). Changes that are not refused reach the one
finding, in its place, and of it just the fields that they name.
-/

namespace RepoAudit

open FindingField (Unchangeable)

/-- True of changes of a finding of which one has a name that no change can have, or gives a state that is none of those
in which handling can be. -/
def FindingField.Faulty (changes : List (String × Json)) : Prop :=
  (∃ change ∈ changes, Unchangeable change.1) ∨ ∃ state, (status.name, state) ∈ changes ∧ ¬ status.Takes state

/-- True of changes of fields of a finding of which one gives `null` for its state. -/
def FindingField.GiveNullState (changes : List (String × Json)) : Prop :=
  (∀ change ∈ changes, ¬ Unchangeable change.1) ∧ (status.name, .null) ∈ changes

lemma FindingField.not_takes_null : ¬ status.Takes .null := by decide

open FindingField (Faulty GiveNullState)

namespace Operation

variable {changes : List (String × Json)} {error : StoreError}

lemma lookup_eq_some_iff (named : (changes.map (·.1)).Nodup) {name : String} {value : Json} :
    changes.lookup name = some value ↔ (name, value) ∈ changes := Json.get?_of_mem named

/-- Changes that are let through name fields, and their state is one in which handling can be or `null`. -/
lemma changesFinding_iff (named : (changes.map (·.1)).Nodup) : changesFinding changes = true ↔
    (∀ change ∈ changes, ¬ Unchangeable change.1) ∧
      ∀ state, (FindingField.status.name, state) ∈ changes → FindingField.status.Takes state ∨ state = .null := by
  have known : changes.all (fun change => (FindingField.ofName? change.1).isSome) = true ↔
      ∀ change ∈ changes, ¬ Unchangeable change.1 := by
    simp [← FindingField.ofName?_eq_none_iff, Option.isSome_iff_ne_none]
  have state : (changes.lookup FindingField.status.name).all Ledger.isHandling = true ↔
      ∀ state, (FindingField.status.name, state) ∈ changes → FindingField.status.Takes state ∨ state = .null := by
    simp only [← lookup_eq_some_iff named, ← FindingField.isHandling_iff]
    cases changes.lookup FindingField.status.name <;> simp
  rw [changesFinding, Bool.and_eq_true, known, state]

/-- Changes that are let through have no fault but a state of `null`. -/
lemma not_faulty_of_changesFinding (named : (changes.map (·.1)).Nodup) (through : changesFinding changes = true) :
    ¬ (Faulty changes ∧ ¬ GiveNullState changes) := by
  obtain ⟨changeable, states⟩ := (changesFinding_iff named).mp through
  rintro ⟨⟨change, member, unchangeable⟩ | ⟨state, given, unlisted⟩, other⟩
  · exact changeable change member unchangeable
  · obtain rfl := (states state given).resolve_left unlisted
    exact other ⟨changeable, given⟩

lemma unchangeable_of_mem_inUse {name : String} (used : name ∈ Ledger.findingNamesInUse) : Unchangeable name := by
  have foreign : ∀ name ∈ Ledger.findingNamesInUse, FindingField.ofName? name = none := by decide
  exact FindingField.ofName?_eq_none_iff.mp (foreign name used)

/-- What is told to be wrong with changes is wrong with them, and it is not a state of `null`. -/
lemma FindingFault.faulty (named : (changes.map (·.1)).Nodup) (fault : FindingFault changes error) :
    Faulty changes ∧ ¬ GiveNullState changes := by
  have misnamed {name : String} (present : name ∈ changes.map (·.1)) (unchangeable : Unchangeable name) :
      Faulty changes ∧ ¬ GiveNullState changes := by
    obtain ⟨change, member, rfl⟩ := List.mem_map.mp present
    exact ⟨.inl ⟨change, member, unchangeable⟩, fun null => null.1 change member unchangeable⟩
  cases fault with
  | inUse present used => exact misnamed present (unchangeable_of_mem_inUse used)
  | @unchangeable names _ some _ told =>
    obtain ⟨name, member⟩ := List.exists_mem_of_ne_nil names some
    exact misnamed ((told name).mp member).1 ((told name).mp member).2
  | @state value changeable given unlisted other =>
    refine ⟨.inr ⟨value, (lookup_eq_some_iff named).mp given, unlisted⟩, fun null => other ?_⟩
    exact Option.some.inj (given.symm.trans ((lookup_eq_some_iff named).mpr null.2))

/-! ## What becomes of the finding -/

lemma mem_findingChanges {field : FindingField} {value : Json} :
    (field, value) ∈ findingChanges changes ↔ (field.name, value) ∈ changes := by
  simp only [findingChanges, List.mem_filterMap, Option.map_eq_some_iff, FindingField.ofName?_eq_some_iff, Prod.exists,
    Prod.mk.injEq]
  constructor
  · rintro ⟨name, value, member, field, rfl, rfl, rfl⟩
    exact member
  · exact fun member => ⟨field.name, value, member, field, rfl, rfl, rfl⟩

/-- A changed finding has the given value in each field that is named, and its own value in each other one. -/
lemma get_change_findingChanges (named : (changes.map (·.1)).Nodup) (finding : FindingRecord) (field : FindingField) :
    (finding.change (findingChanges changes)).get field = (changes.lookup field.name).getD (finding.get field) := by
  cases given : changes.lookup field.name with
  | none =>
    refine FindingRecord.get_change_of_notMem ?_ finding
    rintro ⟨field, value⟩ member rfl
    have there := (lookup_eq_some_iff named).mpr (mem_findingChanges.mp member)
    rw [given] at there
    cases there
  | some value =>
    have member := mem_findingChanges.mpr ((lookup_eq_some_iff named).mp given)
    obtain ⟨value', member', is⟩ := FindingRecord.get_change_of_mem ⟨_, member, rfl⟩ finding
    have same := (lookup_eq_some_iff named).mpr (mem_findingChanges.mp member')
    rw [is, Option.getD_some]
    exact Option.some.inj (same.symm.trans given)

/-- Of all that is kept of a finding, just what is named has other values, those that are given. -/
lemma members_change_findingChanges (named : (changes.map (·.1)).Nodup)
    (changeable : ∀ change ∈ changes, ¬ Unchangeable change.1) (finding : FindingRecord) :
    (finding.change (findingChanges changes)).members =
      finding.members.map fun member => (member.1, (changes.lookup member.1).getD member.2) := by
  have kept {name : String} (unchangeable : Unchangeable name) : changes.lookup name = none := by
    refine List.lookup_eq_none_iff.mpr fun change member => ?_
    rw [bne_iff_ne]
    rintro rfl
    exact changeable change member unchangeable
  have fields : (FindingField.all.map fun field => (field.name, (finding.change (findingChanges changes)).get field)) =
      (FindingField.all.map fun field => (field.name, finding.get field)).map fun member =>
        (member.1, (changes.lookup member.1).getD member.2) := by
    rw [List.map_map]
    exact List.map_congr_left fun field _ => congrArg (field.name, ·) (get_change_findingChanges named finding field)
  rw [FindingRecord.members, FindingRecord.members, List.map_cons, List.map_cons, fields, kept (.inr (.inl rfl)),
    kept (.inr (.inr rfl)), FindingRecord.change_id, FindingRecord.change_auditId]
  rfl

/-- A changed finding is in a state in which handling can be, unless it was given `null` for its state. -/
lemma takes_status_change_iff (named : (changes.map (·.1)).Nodup) (through : changesFinding changes = true)
    {finding : FindingRecord} (takes : FindingField.status.Takes finding.status) :
    FindingField.status.Takes (finding.change (findingChanges changes)).status ↔ ¬ GiveNullState changes := by
  obtain ⟨changeable, states⟩ := (changesFinding_iff named).mp through
  have is : (finding.change (findingChanges changes)).status =
      (changes.lookup FindingField.status.name).getD finding.status :=
    get_change_findingChanges named finding .status
  rw [is]
  cases given : changes.lookup FindingField.status.name with
  | none =>
    refine iff_of_true takes fun null => ?_
    rw [(lookup_eq_some_iff named).mpr null.2] at given
    cases given
  | some state =>
    have member := (lookup_eq_some_iff named).mp given
    constructor
    · intro takes null
      obtain rfl := Option.some.inj (given.symm.trans ((lookup_eq_some_iff named).mpr null.2))
      exact FindingField.not_takes_null takes
    · intro other
      refine (states state member).resolve_right ?_
      rintro rfl
      exact other ⟨changeable, member⟩

end Operation

namespace Ledger

open Operation (findingChanges FindingFault)

/-- True of an answer that tells why nothing was done. -/
def Declined {α : Type} (reply : Except StoreError α) : Prop :=
  ∃ error, error.isWriteFailure = false ∧ reply = .error error

lemma Tried.not_declined {α : Type} {reply : Except StoreError α} {value : α} (tried : Tried reply value) :
    ¬ Declined reply := by
  rintro ⟨error, other, rfl⟩
  obtain is | ⟨error', failed, is⟩ := tried
  · cases is
  · rw [Except.error.inj is, failed] at other
    cases other

/-- A ledger after another one in which a finding has taken the place of one, and nothing else but the disk is new: in
the store, and so among the findings that are listed for an audit. -/
structure Amended (ledger after : Ledger) (finding changed : FindingRecord) : Prop where
  store : ∃ before behind, ledger.store.findings = before ++ finding :: behind ∧
    after = { ledger with
      store := { ledger.store with findings := before ++ changed :: behind }
      disk := after.disk }
  listed : ∀ auditId, after.store.findingsOf auditId = replaceKeyed (·.id) changed (ledger.store.findingsOf auditId)

variable {ledger after : Ledger} {id : String} {changes : List (String × Json)}
  {reply : Except StoreError (Option FindingRecord)}

/-- A finding that is put under the id of one that is there takes its place. -/
lemma amended_putFinding {finding changed : FindingRecord} {disk : Disk} (keyed : ledger.store.Keyed)
    (found : ledger.store.finding? id = some finding) (sameId : changed.id = finding.id)
    (sameAudit : changed.auditId = finding.auditId) :
    ledger.Amended { ledger with store := ledger.store.putFinding changed, disk } finding changed := by
  obtain rfl := Store.id_of_finding? found
  have store : ledger.store.putFinding changed =
      { ledger.store with findings := replaceKeyed (·.id) changed ledger.store.findings } := by
    rw [Store.putFinding, if_pos (by rw [sameId, found]; rfl)]
    rfl
  constructor
  · obtain ⟨before, behind, split⟩ := List.append_of_mem (Store.mem_of_finding? found)
    have distinct : ((before ++ finding :: behind).map (·.id)).Nodup := split ▸ keyed
    exact ⟨before, behind, split, by rw [store, split, replaceKeyed_append sameId distinct]⟩
  · intro auditId
    rw [store]
    refine filter_replaceKeyed_of_eq FindingRecord.id fun old stored same => ?_
    obtain rfl : old = finding :=
      List.inj_on_of_nodup_map keyed stored (Store.mem_of_finding? found) (same.trans sameId)
    rw [FindingRecord.isOf, FindingRecord.isOf, sameAudit]

/-- What holds of all findings still does after one took the place of another just when it holds of the new one. -/
lemma Amended.forall_iff {finding changed : FindingRecord} (amended : ledger.Amended after finding changed)
    {good : FindingRecord → Prop} (all : ∀ finding ∈ ledger.store.findings, good finding) :
    (∀ finding ∈ after.store.findings, good finding) ↔ good changed := by
  obtain ⟨before, behind, split, is⟩ := amended.store
  have findings : after.store.findings = before ++ changed :: behind := by rw [is]
  rw [split] at all
  rw [findings]
  simp only [List.forall_mem_append, List.forall_mem_cons] at all ⊢
  exact ⟨fun all => all.2.1, fun isGood => ⟨all.1, isGood, all.2.2⟩⟩

/-- Changes by name are refused for a fault, or they are about a finding that is missing, or they change the finding in
its place. -/
lemma updateFindingByName_cases (keyed : ledger.store.Keyed)
    (does : Action.on (updateFindingByName id changes) ledger = (reply, after)) :
    (∃ error, FindingFault changes error ∧ reply = .error error ∧ after = ledger) ∨
    (Operation.changesFinding changes = true ∧ ledger.store.finding? id = none ∧ reply = .ok none ∧ after = ledger) ∨
    ∃ finding, Operation.changesFinding changes = true ∧ ledger.store.finding? id = some finding ∧
      Tried reply (some (finding.change (findingChanges changes))) ∧
      ledger.Amended after finding (finding.change (findingChanges changes)) := by
  obtain ⟨through, is⟩ | ⟨-, error, fault, is⟩ := Operation.updateFindingByName_eq changes id
  · rw [is] at does
    obtain ⟨missing, does'⟩ | ⟨finding, reply', disk, found, tried, does'⟩ :=
      updateFinding_on id (findingChanges changes) ledger
    · obtain ⟨rfl, rfl⟩ := Prod.mk.inj (does'.symm.trans does)
      exact .inr (.inl ⟨through, missing, rfl, rfl⟩)
    · obtain ⟨rfl, rfl⟩ := Prod.mk.inj (does'.symm.trans does)
      exact .inr (.inr ⟨finding, through, found, tried, amended_putFinding keyed found (by simp) (by simp)⟩)
  · rw [is, Action.on_throw] at does
    obtain ⟨rfl, rfl⟩ := Prod.mk.inj does
    exact .inl ⟨error, fault, rfl, rfl⟩

/-- What changes of a finding by name do. They are refused just when they are faulty and do not merely give `null` for
the state; then nothing changes, and it is told what is wrong. When they are not refused, nothing comes of them for a
finding that is missing, and one that is there takes just the values that are given, in its place among the others,
whether the store's file can be written or not. So findings in states in which handling can be stay in such states just
when none is given `null` for its state. -/
theorem faulty_changes_are_refused_but_null (named : (changes.map (·.1)).Nodup) (keyed : ledger.store.Keyed)
    (does : Action.on (updateFindingByName id changes) ledger = (reply, after)) :
    (Declined reply ↔ Faulty changes ∧ ¬ GiveNullState changes) ∧
    (Declined reply → after = ledger ∧ ∃ error, FindingFault changes error ∧ reply = .error error) ∧
    (¬ Declined reply → ledger.store.finding? id = none → reply = .ok none ∧ after = ledger) ∧
    (¬ Declined reply → ∀ finding, ledger.store.finding? id = some finding → ∃ changed,
      changed.members = finding.members.map (fun member => (member.1, (changes.lookup member.1).getD member.2)) ∧
      Tried reply (some changed) ∧ ledger.Amended after finding changed) ∧
    ((∀ finding ∈ ledger.store.findings, FindingField.status.Takes finding.status) →
      ((∀ finding ∈ after.store.findings, FindingField.status.Takes finding.status) ↔
        ¬ (GiveNullState changes ∧ (ledger.store.finding? id).isSome = true))) := by
  obtain ⟨error, fault, rfl, rfl⟩ | ⟨through, missing, rfl, rfl⟩ | ⟨finding, through, found, tried, amended⟩ :=
    updateFindingByName_cases keyed does
  · have refused : Declined (.error error : Except StoreError (Option FindingRecord)) :=
      ⟨error, fault.isWriteFailure, rfl⟩
    have faulty := fault.faulty named
    refine ⟨iff_of_true refused faulty, fun _ => ⟨rfl, error, fault, rfl⟩, absurd refused, absurd refused, ?_⟩
    exact fun states => iff_of_true states fun null => faulty.2 null.1
  · have passed := Operation.not_faulty_of_changesFinding named through
    have saved : ¬ Declined (.ok none : Except StoreError (Option FindingRecord)) := by
      rintro ⟨error, -, is⟩
      cases is
    refine ⟨iff_of_false saved passed, fun refused => absurd refused saved, fun _ _ => ⟨rfl, rfl⟩, ?_, ?_⟩
    · intro _ finding found
      rw [missing] at found
      cases found
    · refine fun states => iff_of_true states fun null => ?_
      rw [missing] at null
      cases null.2
  · have passed := Operation.not_faulty_of_changesFinding named through
    have saved := tried.not_declined
    refine ⟨iff_of_false saved passed, fun refused => absurd refused saved, ?_, ?_, ?_⟩
    · intro _ missing
      rw [missing] at found
      cases found
    · intro _ finding' found'
      obtain rfl := Option.some.inj (found.symm.trans found')
      have changeable := ((Operation.changesFinding_iff named).mp through).1
      exact ⟨_, Operation.members_change_findingChanges named changeable finding, tried, amended⟩
    · intro states
      have takes := states finding (Store.mem_of_finding? found)
      rw [amended.forall_iff states, Operation.takes_status_change_iff named through takes, found]
      simp

section Sample

/-- A finding of an audit that is still open. -/
def openFinding (id : String) : FindingRecord where
  id
  auditId := .text "a1"
  category := .text "security"
  severity := .text "low"
  title := .text "Title"
  description := .text "Description"
  businessImpact := .text "Impact"
  fixSteps := .text "Fix"

/-- An audit with three findings that are still open. -/
def openLedger : Ledger where
  store := {
    audits := [{ id := "a1", ownerName := .text "acme", repoName := .text "shop" }]
    findings := [openFinding "f1", openFinding "f2", openFinding "f3"] }
  now := ⟨2024, 1, 1, 0, 0, 0, 0⟩
  ids := fun n => String.ofList (List.replicate n 'i')

/-- Another title, and `null` for the state. -/
def nullChanges : List (String × Json) := [("title", .text "Other title"), ("status", .null)]

/-- Faulty changes are made, and they leave a finding in no state in which handling can be. -/
theorem faulty_changes_are_refused_but_null_made : Faulty nullChanges ∧
    (∀ finding ∈ openLedger.store.findings, FindingField.status.Takes finding.status) ∧
    ∃ changed after, Action.on (updateFindingByName "f2" nullChanges) openLedger = (.ok (some changed), after) ∧
      openLedger.Amended after (openFinding "f2") changed ∧
      changed.members = [("id", .text "f2"), ("audit_id", .text "a1"), ("category", .text "security"),
        ("severity", .text "low"), ("title", .text "Other title"), ("description", .text "Description"),
        ("business_impact", .text "Impact"), ("fix_steps", .text "Fix"), ("effort", .text "S"), ("file_path", .null),
        ("line_start", .null), ("line_end", .null), ("code_snippet", .null), ("status", .null),
        ("auto_detected", .bool true)] ∧
      ¬ ∀ finding ∈ after.store.findings, FindingField.status.Takes finding.status := by
  have given : ("status", Json.null) ∈ nullChanges := .tail _ (.head _)
  have faulty : Faulty nullChanges := .inr ⟨.null, given, FindingField.not_takes_null⟩
  have null : GiveNullState nullChanges := ⟨by decide, given⟩
  have states : ∀ finding ∈ openLedger.store.findings, FindingField.status.Takes finding.status := by decide
  have named : (nullChanges.map (·.1)).Nodup := by decide
  have keyed : openLedger.store.Keyed := show List.Nodup _ by decide
  have does : Action.on (updateFindingByName "f2" nullChanges) openLedger = (.ok (some _), _) := rfl
  obtain ⟨refuses, -, -, changes, keeps⟩ := faulty_changes_are_refused_but_null named keyed does
  have made : ¬ Declined _ := fun refused => (refuses.mp refused).2 null
  obtain ⟨changed, members, tried, amended⟩ := changes made (openFinding "f2") rfl
  have is : Except.ok _ = Except.ok (some changed) := tried.eq_ok (Operation.saved_ok _)
  exact ⟨faulty, states, changed, _, does.trans (congrArg (·, _) is), amended, members,
    fun all => (keeps states).mp all ⟨null, rfl⟩⟩

end Sample

end Ledger

end RepoAudit
