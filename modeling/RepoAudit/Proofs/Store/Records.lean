import Mathlib.Data.List.Nodup
import RepoAudit.Finding.Basic
import RepoAudit.Store.Ledger

/-!
# Records of a store

What looking up an id gives after a record is put or dropped, and what a field has after changes. Audits and
findings are kept and changed in the same way: `putKeyed` puts into any list of records with a key, and
`FieldAccess` changes any record whose fields are set apart from each other, so what is said of either kind
of record comes of one lemma. `Store.Keyed` says that findings do not share ids, and every operation keeps it.
-/

namespace RepoAudit

/-! ## Lists of records with a key -/

section Keys

variable {α : Type} (key : α → String)

/-- The list with a record in the place of the one with its key. -/
def replaceKeyed (item : α) (items : List α) : List α :=
  items.map fun old => if key old == key item then item else old

/-- Replacing a record leaves the keys. -/
lemma map_replaceKeyed (item : α) (items : List α) :
    (replaceKeyed key item items).map key = items.map key := by
  simp only [replaceKeyed, List.map_map]
  apply List.map_congr_left
  intro old _
  by_cases same : key old = key item <;> simp [same]

/-- Looking up a key after a record was replaced. -/
lemma find?_replaceKeyed (item : α) (items : List α) (id : String) :
    (replaceKeyed key item items).find? (key · == id) =
      if id = key item then (items.find? (key · == id)).map fun _ => item
      else items.find? (key · == id) := by
  induction items with
  | nil => simp [replaceKeyed]
  | cons old rest ih =>
    have split : replaceKeyed key item (old :: rest) =
        (if key old == key item then item else old) :: replaceKeyed key item rest := rfl
    rw [split, List.find?_cons, List.find?_cons, ih]
    by_cases same : key old = key item
    · by_cases asked : id = key item
      · simp [same, asked]
      · have other : (key item == id) = false := by simpa using fun h => asked h.symm
        simp [same, asked, other]
    · by_cases asked : id = key item
      · have other : (key old == key item) = false := by simpa using same
        simp [asked, other]
      · have other : (key old == key item) = false := by simpa using same
        by_cases found : (key old == id) = true <;> simp [other, found, asked]

/-- The records with one put in the place of the one with its key, or else as the last. -/
def putKeyed (item : α) (items : List α) : List α :=
  if (items.find? (key · == key item)).isSome then replaceKeyed key item items else items ++ [item]

variable {key} in
/-- A record whose key is not there replaces nothing. -/
lemma replaceKeyed_of_notMem {item : α} {items : List α} (missing : key item ∉ items.map key) :
    replaceKeyed key item items = items := by
  refine (List.map_congr_left fun old member => if_neg ?_).trans (List.map_id _)
  rw [beq_iff_eq]
  exact fun same => missing (same ▸ List.mem_map_of_mem member)

variable {key} in
/-- A record that takes the place of another one leaves those before it and behind it. -/
lemma replaceKeyed_append {before behind : List α} {old item : α} (same : key item = key old)
    (distinct : ((before ++ old :: behind).map key).Nodup) :
    replaceKeyed key item (before ++ old :: behind) = before ++ item :: behind := by
  rw [List.map_append, List.map_cons, List.nodup_middle, List.nodup_cons, List.mem_append, ← same] at distinct
  obtain ⟨front, rest⟩ := not_or.mp distinct.1
  have split : replaceKeyed key item (before ++ old :: behind) = replaceKeyed key item before ++
      (if key old == key item then item else old) :: replaceKeyed key item behind := by
    rw [replaceKeyed, List.map_append, List.map_cons]
    rfl
  rw [split, replaceKeyed_of_notMem front, replaceKeyed_of_notMem rest, if_pos (beq_iff_eq.mpr same.symm)]

/-- A record that belongs to a part of a list just when the one that it replaces does replaces it there. -/
lemma filter_replaceKeyed_of_eq {part : α → Bool} {item : α} {items : List α}
    (same : ∀ old ∈ items, key old = key item → part old = part item) :
    (replaceKeyed key item items).filter part = replaceKeyed key item (items.filter part) := by
  rw [replaceKeyed, List.filter_map]
  refine congrArg (List.map _) (List.filter_congr fun old member => ?_)
  rw [Function.comp_apply]
  split
  · next is => exact (same old member (beq_iff_eq.mp is)).symm
  · rfl

/-- Replacing a record leaves every part of a list that neither the old one nor the new one belongs to. -/
lemma filter_replaceKeyed {part : α → Bool} {item : α} {items : List α} (new : part item = false)
    (replaced : ∀ old ∈ items, key old = key item → part old = false) :
    (replaceKeyed key item items).filter part = items.filter part := by
  rw [filter_replaceKeyed_of_eq key fun old member same => (replaced old member same).trans new.symm]
  refine replaceKeyed_of_notMem fun there => ?_
  obtain ⟨old, member, same⟩ := List.mem_map.mp there
  obtain ⟨stored, inside⟩ := List.mem_filter.mp member
  rw [replaced old stored same] at inside
  cases inside

/-- Looking up a key after a record was added at the end. -/
lemma find?_concat (item : α) (items : List α) (id : String) :
    (items ++ [item]).find? (key · == id) =
      (items.find? (key · == id)).or (if id = key item then some item else none) := by
  rw [List.find?_append]
  by_cases asked : id = key item
  · simp [asked]
  · have other : (key item == id) = false := by simpa using fun h => asked h.symm
    simp [asked, other]

/-- A key is not found just when it is no key of the list. -/
lemma find?_eq_none_iff {items : List α} {id : String} :
    items.find? (key · == id) = none ↔ id ∉ items.map key := by
  simp [List.find?_eq_none]

/-- A record whose key is not found can be added at the end. -/
lemma nodup_concat {items : List α} {item : α} (distinct : (items.map key).Nodup)
    (missing : items.find? (key · == key item) = none) : ((items ++ [item]).map key).Nodup := by
  have new := (find?_eq_none_iff key).mp missing
  simpa [List.nodup_append] using ⟨distinct, fun old stored same => new (same ▸ List.mem_map_of_mem stored)⟩

/-- Looking up a key after a record was put. -/
lemma find?_putKeyed (item : α) (items : List α) (id : String) :
    (putKeyed key item items).find? (key · == id) = if id = key item then some item else items.find? (key · == id) := by
  unfold putKeyed
  split
  case isTrue present =>
    rw [find?_replaceKeyed]
    split
    case isTrue asked =>
      obtain ⟨old, found⟩ := Option.isSome_iff_exists.mp present
      rw [asked, found, Option.map_some]
    case isFalse => rfl
  case isFalse missing =>
    rw [find?_concat]
    split
    case isTrue asked => rw [asked, Option.not_isSome_iff_eq_none.mp missing, Option.none_or]
    case isFalse => rw [Option.or_none]

/-- Looking up a key after its record was dropped. -/
lemma find?_filter_ne (items : List α) (dropped id : String) :
    (items.filter (key · != dropped)).find? (key · == id) =
      if id = dropped then none else items.find? (key · == id) := by
  rw [List.find?_filter]
  by_cases asked : id = dropped
  · rw [if_pos asked, List.find?_eq_none]
    simp [asked]
  · rw [if_neg asked]
    congr 1
    funext item
    by_cases same : key item = id <;> simp [same, asked]

variable {key} in
/-- The records after one was put. -/
lemma mem_putKeyed {item old : α} {items : List α} (stored : old ∈ putKeyed key item items) :
    old = item ∨ old ∈ items := by
  unfold putKeyed at stored
  split at stored
  · obtain ⟨other, member, rfl⟩ := List.mem_map.mp stored
    split
    · exact .inl rfl
    · exact .inr member
  · exact (List.mem_append.mp stored).symm.imp_left List.mem_singleton.mp

/-- Putting a record keeps keys apart. -/
lemma nodup_putKeyed {items : List α} (distinct : (items.map key).Nodup) (item : α) :
    ((putKeyed key item items).map key).Nodup := by
  unfold putKeyed
  split
  · rwa [map_replaceKeyed]
  · next missing => exact nodup_concat key distinct (Option.not_isSome_iff_eq_none.mp missing)

/-- Where no two records share a key, a record is found under its own. -/
lemma find?_eq_some_iff_mem {items : List α} (distinct : (items.map key).Nodup) {id : String} {item : α} :
    items.find? (key · == id) = some item ↔ item ∈ items ∧ key item = id := by
  constructor
  · intro found
    exact ⟨List.mem_of_find?_eq_some found, by simpa using List.find?_some found⟩
  · rintro ⟨stored, rfl⟩
    have present : (items.find? (key · == key item)).isSome :=
      List.find?_isSome.mpr ⟨item, stored, beq_self_eq_true _⟩
    obtain ⟨other, found⟩ := Option.isSome_iff_exists.mp present
    rw [found]
    refine congrArg some (List.inj_on_of_nodup_map distinct (List.mem_of_find?_eq_some found) stored ?_)
    simpa using List.find?_some found

/-- Where no two records share a key, their order does not matter. -/
lemma find?_perm {items others : List α} (distinct : (items.map key).Nodup) (same : others.Perm items)
    (id : String) : others.find? (key · == id) = items.find? (key · == id) := by
  have distinct' : (others.map key).Nodup := (same.map key).nodup_iff.mpr distinct
  apply Option.ext
  intro item
  rw [find?_eq_some_iff_mem key distinct, find?_eq_some_iff_mem key distinct', same.mem_iff]

end Keys

/-! ## Changes of fields -/

/-- A way to read and to set the fields of a record, each of them apart from the others. -/
structure FieldAccess (Record Field : Type) [DecidableEq Field] where
  get : Record → Field → Json
  set : Record → Field → Json → Record
  get_set : ∀ record field other value, get (set record field value) other =
    if other = field then value else get record other

namespace FieldAccess

variable {Record Field : Type} [DecidableEq Field] (access : FieldAccess Record Field)

/-- The record with other values of some fields, set one after the other. -/
def change (record : Record) (changes : List (Field × Json)) : Record :=
  changes.foldl (fun record (field, value) => access.set record field value) record

/-- What no field has a part in stays under changes. -/
lemma change_keeps {α : Type} (read : Record → α)
    (kept : ∀ record field value, read (access.set record field value) = read record) (record : Record)
    (changes : List (Field × Json)) : read (access.change record changes) = read record := by
  induction changes generalizing record with
  | nil => rfl
  | cons change rest ih => exact (ih (access.set record change.1 change.2)).trans (kept _ _ _)

/-- A changed record has a value of its own or one of the changes in each field. -/
lemma get_change (record : Record) (changes : List (Field × Json)) (field : Field) :
    access.get (access.change record changes) field = access.get record field ∨
      ∃ value, (field, value) ∈ changes ∧ access.get (access.change record changes) field = value := by
  induction changes generalizing record with
  | nil => exact .inl rfl
  | cons change rest ih =>
    obtain kept | ⟨value, named, is⟩ := ih (access.set record change.1 change.2)
    · rw [access.get_set] at kept
      split at kept
      · next same => exact .inr ⟨change.2, by simp [same], kept⟩
      · exact .inl kept
    · exact .inr ⟨value, List.mem_cons_of_mem _ named, is⟩

/-- A change that does not name a field leaves it. -/
lemma get_change_of_notMem {field : Field} {changes : List (Field × Json)}
    (unnamed : ∀ change ∈ changes, change.1 ≠ field) (record : Record) :
    access.get (access.change record changes) field = access.get record field := by
  obtain kept | ⟨value, named, -⟩ := access.get_change record changes field
  · exact kept
  · exact absurd rfl (unnamed _ named)

/-- A field that changes name has the value of one of them. -/
lemma get_change_of_mem {field : Field} {changes : List (Field × Json)}
    (named : ∃ change ∈ changes, change.1 = field) (record : Record) :
    ∃ value, (field, value) ∈ changes ∧ access.get (access.change record changes) field = value := by
  induction changes generalizing record with
  | nil =>
    obtain ⟨change, none, -⟩ := named
    cases none
  | cons change rest ih =>
    by_cases later : ∃ change ∈ rest, change.1 = field
    · obtain ⟨value, named, is⟩ := ih later (access.set record change.1 change.2)
      exact ⟨value, List.mem_cons_of_mem _ named, is⟩
    · obtain ⟨first, member, rfl⟩ := named
      obtain rfl : first = change := (List.mem_cons.mp member).resolve_right fun there => later ⟨first, there, rfl⟩
      have kept := access.get_change_of_notMem (fun other there same => later ⟨other, there, same⟩)
        (access.set record first.1 first.2)
      exact ⟨first.2, List.mem_cons_self, kept.trans ((access.get_set _ _ _ _).trans (if_pos rfl))⟩

end FieldAccess

namespace AuditRecord

lemma get_set (record : AuditRecord) (field other : AuditField) (value : Json) :
    (record.set field value).get other = if other = field then value else record.get other := by
  cases field <;> cases other <;> rfl

/-- The fields of audits. -/
def access : FieldAccess AuditRecord AuditField := ⟨get, set, get_set⟩

@[simp] lemma change_id (record : AuditRecord) (changes : List (AuditField × Json)) :
    (record.change changes).id = record.id :=
  access.change_keeps id (fun _ field _ => by cases field <;> rfl) record changes

lemma get_change (record : AuditRecord) (changes : List (AuditField × Json)) (field : AuditField) :
    (record.change changes).get field = record.get field ∨
      ∃ value, (field, value) ∈ changes ∧ (record.change changes).get field = value :=
  access.get_change record changes field

lemma get_change_of_notMem {field : AuditField} {changes : List (AuditField × Json)}
    (unnamed : ∀ change ∈ changes, change.1 ≠ field) (record : AuditRecord) :
    (record.change changes).get field = record.get field :=
  access.get_change_of_notMem unnamed record

lemma get_change_of_mem {field : AuditField} {changes : List (AuditField × Json)}
    (named : ∃ change ∈ changes, change.1 = field) (record : AuditRecord) :
    ∃ value, (field, value) ∈ changes ∧ (record.change changes).get field = value :=
  access.get_change_of_mem named record

lemma change_append (record : AuditRecord) (changes more : List (AuditField × Json)) :
    record.change (changes ++ more) = (record.change changes).change more :=
  List.foldl_append

/-- A record is its id and its fields. -/
lemma ext_get {record other : AuditRecord} (id : record.id = other.id)
    (same : ∀ field, record.get field = other.get field) : record = other := by
  have owner := same .ownerName
  obtain ⟨⟩ := record
  obtain ⟨⟩ := other
  simp only [AuditRecord.mk.injEq]
  exact ⟨id, owner, same .repoName, same .repoUrl, same .status, same .scores, same .executiveSummary,
    same .remediationPlan, same .repoMeta, same .fileTree, same .scanLog, same .scannedAt, same .createdAt⟩

/-- A field in which two records agree stays one under the same changes. -/
lemma get_change_congr {record other : AuditRecord} {field : AuditField} (same : record.get field = other.get field)
    (changes : List (AuditField × Json)) :
    (record.change changes).get field = (other.change changes).get field := by
  induction changes generalizing record other with
  | nil => exact same
  | cons change rest ih =>
    refine ih ?_
    rw [get_set, get_set, same]

end AuditRecord

namespace FindingRecord

lemma get_set (record : FindingRecord) (field other : FindingField) (value : Json) :
    (record.set field value).get other = if other = field then value else record.get other := by
  cases field <;> cases other <;> rfl

/-- The fields of findings. -/
def access : FieldAccess FindingRecord FindingField := ⟨get, set, get_set⟩

@[simp] lemma change_id (record : FindingRecord) (changes : List (FindingField × Json)) :
    (record.change changes).id = record.id :=
  access.change_keeps id (fun _ field _ => by cases field <;> rfl) record changes

@[simp] lemma change_auditId (record : FindingRecord) (changes : List (FindingField × Json)) :
    (record.change changes).auditId = record.auditId :=
  access.change_keeps auditId (fun _ field _ => by cases field <;> rfl) record changes

lemma get_change (record : FindingRecord) (changes : List (FindingField × Json)) (field : FindingField) :
    (record.change changes).get field = record.get field ∨
      ∃ value, (field, value) ∈ changes ∧ (record.change changes).get field = value :=
  access.get_change record changes field

lemma get_change_of_notMem {field : FindingField} {changes : List (FindingField × Json)}
    (unnamed : ∀ change ∈ changes, change.1 ≠ field) (record : FindingRecord) :
    (record.change changes).get field = record.get field :=
  access.get_change_of_notMem unnamed record

lemma get_change_of_mem {field : FindingField} {changes : List (FindingField × Json)}
    (named : ∃ change ∈ changes, change.1 = field) (record : FindingRecord) :
    ∃ value, (field, value) ∈ changes ∧ (record.change changes).get field = value :=
  access.get_change_of_mem named record

/-- A change of a finding stays with the finding's audit. -/
@[simp] lemma isOf_change (auditId : String) (record : FindingRecord)
    (changes : List (FindingField × Json)) :
    (record.change changes).isOf auditId = record.isOf auditId := by
  simp [isOf]

/-- A finding under an id has the fields of its draft. -/
@[simp] lemma get_filed (draft : FindingRecord) (id auditId : String) (field : FindingField) :
    (Ledger.filed draft id auditId).get field = draft.get field := by
  cases field <;> rfl

/-- A finding is of at most one audit. -/
lemma isOf_inj {finding : FindingRecord} {a b : String} (ofA : finding.isOf a = true)
    (ofB : finding.isOf b = true) : a = b := by
  cases kind : finding.auditId <;> simp_all [isOf, Json.isText]

end FindingRecord

namespace Store

/-- No two findings share an id. -/
def Keyed (store : Store) : Prop := (store.findings.map (·.id)).Nodup

section Lookup

variable (store : Store)

lemma audits_putAudit (audit : AuditRecord) :
    (store.putAudit audit).audits = putKeyed AuditRecord.id audit store.audits := by
  rw [putAudit, apply_ite Store.audits]
  rfl

lemma findings_putFinding (finding : FindingRecord) :
    (store.putFinding finding).findings = putKeyed FindingRecord.id finding store.findings := by
  rw [putFinding, apply_ite Store.findings]
  rfl

/-- Looking up an audit after one was put. -/
@[simp] lemma audit?_putAudit (audit : AuditRecord) (id : String) :
    (store.putAudit audit).audit? id = if id = audit.id then some audit else store.audit? id := by
  rw [audit?, audits_putAudit, find?_putKeyed AuditRecord.id, audit?]

/-- Looking up a finding after one was put. -/
@[simp] lemma finding?_putFinding (finding : FindingRecord) (id : String) :
    (store.putFinding finding).finding? id = if id = finding.id then some finding else store.finding? id := by
  rw [finding?, findings_putFinding, find?_putKeyed FindingRecord.id, finding?]

@[simp] lemma findings_putAudit (audit : AuditRecord) :
    (store.putAudit audit).findings = store.findings := by
  simp only [putAudit]; split <;> rfl

@[simp] lemma audits_putFinding (finding : FindingRecord) :
    (store.putFinding finding).audits = store.audits := by
  simp only [putFinding]; split <;> rfl

@[simp] lemma audits_dropFinding (id : String) :
    (store.dropFinding id).audits = store.audits := rfl

@[simp] lemma finding?_putAudit (audit : AuditRecord) (id : String) :
    (store.putAudit audit).finding? id = store.finding? id := by
  simp [finding?]

@[simp] lemma audit?_putFinding (finding : FindingRecord) (id : String) :
    (store.putFinding finding).audit? id = store.audit? id := by
  simp [audit?]

@[simp] lemma audit?_dropFinding (id auditId : String) :
    (store.dropFinding id).audit? auditId = store.audit? auditId := rfl

/-- Looking up an audit after one was dropped. -/
@[simp] lemma audit?_dropAudit (dropped id : String) :
    (store.dropAudit dropped).audit? id = if id = dropped then none else store.audit? id :=
  find?_filter_ne AuditRecord.id store.audits dropped id

/-- Looking up a finding after one was dropped. -/
@[simp] lemma finding?_dropFinding (dropped id : String) :
    (store.dropFinding dropped).finding? id = if id = dropped then none else store.finding? id :=
  find?_filter_ne FindingRecord.id store.findings dropped id

end Lookup

/-- The audit that is found for an id has that id. -/
lemma id_of_audit? {store : Store} {id : String} {audit : AuditRecord}
    (found : store.audit? id = some audit) : audit.id = id := by
  simpa using List.find?_some found

/-- The finding that is found for an id has that id. -/
lemma id_of_finding? {store : Store} {id : String} {finding : FindingRecord}
    (found : store.finding? id = some finding) : finding.id = id := by
  simpa using List.find?_some found

/-- The audit that is found for an id is in the store. -/
lemma mem_of_audit? {store : Store} {id : String} {audit : AuditRecord}
    (found : store.audit? id = some audit) : audit ∈ store.audits :=
  List.mem_of_find?_eq_some found

/-- The finding that is found for an id is in the store. -/
lemma mem_of_finding? {store : Store} {id : String} {finding : FindingRecord}
    (found : store.finding? id = some finding) : finding ∈ store.findings :=
  List.mem_of_find?_eq_some found

section Members

variable {store : Store}

lemma mem_audits_putAudit {audit old : AuditRecord} (stored : old ∈ (store.putAudit audit).audits) :
    old = audit ∨ old ∈ store.audits :=
  mem_putKeyed (store.audits_putAudit audit ▸ stored)

lemma mem_findings_putFinding {finding old : FindingRecord}
    (stored : old ∈ (store.putFinding finding).findings) : old = finding ∨ old ∈ store.findings :=
  mem_putKeyed (store.findings_putFinding finding ▸ stored)

/-- Putting an audit keeps ids apart. -/
lemma nodup_putAudit (distinct : (store.audits.map (·.id)).Nodup) (audit : AuditRecord) :
    ((store.putAudit audit).audits.map (·.id)).Nodup :=
  store.audits_putAudit audit ▸ nodup_putKeyed AuditRecord.id distinct audit

/-- Putting a finding keeps ids apart. -/
lemma Keyed.putFinding (keyed : store.Keyed) (finding : FindingRecord) :
    (store.putFinding finding).Keyed := by
  rw [Keyed, findings_putFinding]
  exact nodup_putKeyed FindingRecord.id keyed finding

lemma Keyed.sublist {fewer : Store} (keyed : store.Keyed)
    (sub : fewer.findings.Sublist store.findings) : fewer.Keyed :=
  (sub.map _).nodup keyed

end Members

/-- Dropping an audit leaves the findings of other audits. -/
lemma finding?_dropAudit_of_isOf_eq_false {store : Store} {id auditId : String}
    {finding : FindingRecord} (found : store.finding? id = some finding)
    (other : finding.isOf auditId = false) :
    (store.dropAudit auditId).finding? id = some finding := by
  simp only [finding?, dropAudit, List.find?_filter] at found ⊢
  obtain ⟨same, before, after, split, earlier⟩ := List.find?_eq_some_iff_append.mp found
  refine List.find?_eq_some_iff_append.mpr ⟨by simp [same, other], before, after, split, ?_⟩
  intro old stored
  have := earlier old stored
  simp_all

section Fewer

variable {store fewer : Store} {id : String} {finding : FindingRecord}

lemma missing_of_sublist (sub : fewer.findings.Sublist store.findings)
    (missing : store.finding? id = none) : fewer.finding? id = none := by
  rw [finding?, List.find?_eq_none] at missing ⊢
  exact fun finding stored => missing finding (sub.subset stored)

lemma found_of_sublist (keyed : store.Keyed) (sub : fewer.findings.Sublist store.findings)
    (found : fewer.finding? id = some finding) : store.finding? id = some finding := by
  rw [finding?, find?_eq_some_iff_mem FindingRecord.id (keyed.sublist sub)] at found
  rw [finding?, find?_eq_some_iff_mem FindingRecord.id keyed]
  exact ⟨sub.subset found.1, found.2⟩

/-- Dropping an audit drops a finding only with its audit. -/
lemma isOf_of_dropAudit {auditId : String} (found : store.finding? id = some finding)
    (missing : (store.dropAudit auditId).finding? id = none) : finding.isOf auditId = true := by
  by_contra other
  rw [finding?_dropAudit_of_isOf_eq_false found (by simpa using other)] at missing
  cases missing

end Fewer

end Store

/-! ## Findings of listed words

Four fields of a finding have words of a list each. The records do not see to that, so it holds of a changed finding
when it held before and the changes are of such words (`FindingRecord.Listed.change`).
-/

lemma Json.isText_iff {word : String} {value : Json} : value.isText word = true ↔ value = .text word := by
  cases value <;> simp [isText]

/-- The names of the fields of a finding. -/
def FindingRecord.fieldNames : List String := "id" :: "audit_id" :: FindingField.all.map (·.name)

namespace FindingField

/-- The words that a field has, when they are listed. -/
def words? : FindingField → Option (List String)
  | category => some (Category.all.map Category.name)
  | severity => some (Severity.all.map Severity.name)
  | effort => some (Effort.all.map Effort.name)
  | status => some (Handling.all.map Handling.name)
  | _ => none

/-- The value is one of the words that the field has, when they are listed. -/
def Takes (field : FindingField) (value : Json) : Prop :=
  ∀ words ∈ field.words?, ∃ word ∈ words, value = .text word

instance (field : FindingField) (value : Json) : Decidable (field.Takes value) :=
  decidable_of_iff (∀ words ∈ field.words?, ∃ word ∈ words, value.isText word = true) <| by
    simp only [Takes, Json.isText_iff]

lemma ofName?_name (field : FindingField) : ofName? field.name = some field := by
  cases field <;> decide

lemma ofName?_eq_some_iff {name : String} {field : FindingField} : ofName? name = some field ↔ name = field.name := by
  refine ⟨fun is => Eq.symm ?_, fun is => is ▸ ofName?_name field⟩
  simpa using List.find?_some is

/-- True of a name that no change of a finding can have: no field has it, or it is that of one of the ids. -/
def Unchangeable (name : String) : Prop :=
  name ∉ FindingRecord.fieldNames ∨ name = "id" ∨ name = "audit_id"

instance (name : String) : Decidable (Unchangeable name) :=
  inferInstanceAs (Decidable (name ∉ FindingRecord.fieldNames ∨ name = "id" ∨ name = "audit_id"))

lemma ofName?_eq_none_iff {name : String} : ofName? name = none ↔ Unchangeable name := by
  have other : ofName? name = none ↔ name ∉ all.map (·.name) := by
    rw [ofName?, List.find?_eq_none]
    simp
  have ids : "id" ∉ all.map (·.name) ∧ "audit_id" ∉ all.map (·.name) := by decide
  rw [other, Unchangeable, FindingRecord.fieldNames, List.mem_cons, List.mem_cons]
  constructor
  · tauto
  · rintro (foreign | rfl | rfl)
    · tauto
    · exact ids.1
    · exact ids.2

lemma mem_all (field : FindingField) : field ∈ all := by
  cases field <;> decide

/-- A state that is let through is one of those in which handling can be, or `null`. -/
lemma isHandling_iff {state : Json} : Ledger.isHandling state = true ↔ status.Takes state ∨ state = .null := by
  have named : Handling.all.any (fun handling => state.isText handling.name) = true ↔ status.Takes state := by
    simp [Takes, words?, Json.isText_iff]
  rw [Ledger.isHandling, Bool.or_eq_true, named, or_comm]
  cases state <;> simp [Json.isNull]

end FindingField

/-- A finding whose category, severity, effort and state are listed ones. -/
def FindingRecord.Listed (finding : FindingRecord) : Prop :=
  ∀ field : FindingField, field.Takes (finding.get field)

/-- A finding of listed words that says whether it was detected, in a way that is asked for. -/
def FindingRecord.Enters (origin : Bool → Prop) (finding : FindingRecord) : Prop :=
  finding.Listed ∧ ∃ auto, origin auto ∧ finding.autoDetected = .bool auto

namespace FindingRecord

instance (finding : FindingRecord) : Decidable finding.Listed :=
  decidable_of_iff (∀ field ∈ FindingField.all, field.Takes (finding.get field))
    ⟨fun all field => all field field.mem_all, fun listed field _ => listed field⟩

variable {finding : FindingRecord} {changes : List (FindingField × Json)}

lemma Listed.change (listed : finding.Listed) (takes : ∀ change ∈ changes, change.1.Takes change.2) :
    (finding.change changes).Listed := by
  intro field
  obtain kept | ⟨value, named, is⟩ := get_change finding changes field
  · rw [kept]
    exact listed field
  · rw [is]
    exact takes _ named

lemma Listed.filed (listed : finding.Listed) (id auditId : String) : (Ledger.filed finding id auditId).Listed := by
  intro field
  rw [get_filed]
  exact listed field

lemma Enters.mono {origin weaker : Bool → Prop} (enters : finding.Enters origin)
    (imp : ∀ auto, origin auto → weaker auto) : finding.Enters weaker := by
  obtain ⟨listed, auto, asked, is⟩ := enters
  exact ⟨listed, auto, imp auto asked, is⟩

end FindingRecord

end RepoAudit
