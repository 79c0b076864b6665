import RepoAudit.Proofs.Json.Settled
import RepoAudit.Proofs.Partial
import RepoAudit.Proofs.Store.Records

/-!
# Documents of stores

A store whose values are plain is read back from its document: every finding as it was, and of the audits
those that fit. `Store.Recalls` says what the store that is read has in common with the one that was written.
-/

namespace RepoAudit

/-- A store whose values are plain: those of findings are no arrays and no objects. -/
structure Store.Plain (store : Store) : Prop where
  audits : ∀ audit ∈ store.audits, ∀ field, (audit.get field).isPlain 3 = true
  findings : ∀ finding ∈ store.findings,
    finding.auditId.isPlain 0 = true ∧ ∀ field, (finding.get field).isPlain 0 = true

namespace Shape

variable {bound : Nat}

/-- What an object has for the members of a shape are values of its own and defaults. -/
lemma values_all {P : Json → Prop} {members : List (String × Json)} :
    ∀ {shape : Shape} {result : List (String × Json)}, (∀ member ∈ members, P member.2) →
      (∀ member ∈ shape, ∀ standard ∈ member.2, P standard) →
      shape.values members = some result → ∀ member ∈ result, P member.2 := by
  intro shape
  induction shape with
  | nil =>
    intro result _ _ is
    simp [values] at is
    simp [is]
  | cons first shape ih =>
    intro result given standards is member stored
    obtain ⟨name, standard⟩ := first
    simp only [values, Option.bind_eq_bind, Option.bind_eq_some_iff, Option.some.injEq] at is
    obtain ⟨value, found, others, rest, rfl⟩ := is
    obtain rfl | later := List.mem_cons.mp stored
    · obtain present | ⟨-, default⟩ := Option.or_eq_some_iff.mp found
      · obtain ⟨before, after, split, -⟩ := List.lookup_eq_some_iff.mp present
        exact given (name, value) (by simp [split])
      · exact standards _ List.mem_cons_self value default
    · exact ih given (fun m present => standards m (List.mem_cons_of_mem _ present)) rest member later

/-- An object that fits a shape is as plain as it is and as the defaults are. -/
lemma isPlain_fill {shape : Shape} {value result : Json}
    (standards : ∀ member ∈ shape, ∀ standard ∈ member.2, standard.isPlain bound = true)
    (plain : value.isPlain (bound + 1) = true) (is : shape.fill value = some result) :
    result.isPlain (bound + 1) = true := by
  cases value with
  | object members =>
    simp only [fill] at is
    split at is
    · obtain ⟨filled, values, rfl⟩ := Option.map_eq_some_iff.mp is
      rw [Json.isPlain_object, List.all_eq_true] at plain ⊢
      exact values_all plain standards values
    · cases is
  | _ => cases is

/-- A list of objects that fit a shape is as plain as they are and as the defaults are. -/
lemma isPlain_mapM_fill {shape : Shape} {items results : List Json}
    (standards : ∀ member ∈ shape, ∀ standard ∈ member.2, standard.isPlain bound = true)
    (plain : (Json.array items).isPlain (bound + 2) = true) (is : items.mapM shape.fill = some results) :
    (Json.array results).isPlain (bound + 2) = true := by
  rw [Json.isPlain_array, List.all_eq_true] at plain ⊢
  intro result stored
  obtain ⟨item, present, of⟩ := exists_of_mem_mapM is result stored
  exact isPlain_fill standards (plain item present) of

end Shape

namespace FindingRecord

lemma names_nodup (record : FindingRecord) : (record.members.map (·.1)).Nodup := by
  have names : record.members.map (·.1) =
      "id" :: "audit_id" :: FindingField.all.map FindingField.name := by
    simp [members]
  rw [names]
  decide

/-- A field is found under its name. -/
lemma get?_members (record : FindingRecord) : Json.Member.get? record.members "id" = some (.text record.id) ∧
    Json.Member.get? record.members "audit_id" = some record.auditId ∧
    ∀ field, Json.Member.get? record.members (FindingField.name field) = some (record.get field) := by
  refine ⟨rfl, rfl, fun field => ?_⟩
  cases field <;> rfl

/-- A record that takes all fields of another is the other one, apart from what no field holds. -/
lemma change_all (blank record : FindingRecord) (id : blank.id = record.id)
    (auditId : blank.auditId = record.auditId) :
    blank.change (FindingField.all.map fun field => (field, record.get field)) = record := by
  cases record
  cases blank
  cases id
  cases auditId
  rfl

/-- A record as it is read where it was written. -/
def settled (record : FindingRecord) : FindingRecord :=
  { record with auditId := record.auditId.settled }.change
    (FindingField.all.map fun field => (field, (record.get field).settled))

@[simp] lemma id_settled (record : FindingRecord) : record.settled.id = record.id := change_id _ _

@[simp] lemma auditId_settled (record : FindingRecord) : record.settled.auditId = record.auditId.settled :=
  change_auditId _ _

@[simp] lemma get_settled (record : FindingRecord) (field : FindingField) :
    record.settled.get field = (record.get field).settled := by
  cases field <;> rfl

/-- A finding is read back from its record. -/
lemma ofJson?_toJson_settled (record : FindingRecord) :
    ofJson? record.id record.toJson.settled = some record.settled := by
  obtain ⟨ofId, ofAudit, ofField⟩ := get?_members record
  have found := Json.get?_settled record.names_nodup
  rw [toJson, Json.settled]
  generalize Json.collected (Json.inOrder (Json.settled.settledMembers record.members)) = read at found
  have field (f : FindingField) : Json.Member.get? read f.name = some (record.settled.get f) := by
    rw [found, ofField, Option.map_some, get_settled]
  have all : (FindingField.all.filterMap fun field => (Json.Member.get? read field.name).map (field, ·)) =
      FindingField.all.map fun field => (field, record.settled.get field) := by
    rw [← List.filterMap_eq_map]
    exact List.filterMap_congr fun f _ => by rw [field]; rfl
  have id : (Json.Member.get? read "id").getD .null = .text record.id := by
    rw [found, ofId]
    rfl
  have audit : (Json.Member.get? read "audit_id").getD .null = record.auditId.settled := by
    rw [found, ofAudit]
    rfl
  simp only [ofJson?, all, id, audit]
  rw [if_pos (by simp [field]), if_pos (by simp [Json.isText]), change_all]
  · exact (id_settled record).symm
  · exact (auditId_settled record).symm

/-- A finding whose values are neither arrays nor objects is read back as it was. -/
lemma ofJson?_settled {record : FindingRecord} (auditId : record.auditId.isPlain 0 = true)
    (fields : ∀ field, (record.get field).isPlain 0 = true) :
    ofJson? record.id record.toJson.settled = some record := by
  have same : record.settled = record := by
    simp only [settled, Json.settled_of_isPlain_zero auditId, Json.settled_of_isPlain_zero (fields _)]
    exact change_all _ _ rfl rfl
  rw [ofJson?_toJson_settled, same]

end FindingRecord

namespace AuditRecord

/-- A change by plain values keeps a record plain. -/
lemma isPlain_change {record : AuditRecord} {changes : List (AuditField × Json)} {bound : Nat}
    (fields : ∀ field, (record.get field).isPlain bound = true)
    (plain : ∀ change ∈ changes, change.2.isPlain bound = true) (field : AuditField) :
    ((record.change changes).get field).isPlain bound = true := by
  obtain kept | ⟨value, named, is⟩ := get_change record changes field
  · exact kept ▸ fields field
  · exact is ▸ plain _ named

lemma isPlain_toJson {record : AuditRecord} {bound : Nat}
    (fields : ∀ field, (record.get field).isPlain bound = true) :
    record.toJson.isPlain (bound + 1) = true := by
  simp [toJson, members, fields]

/-- A list that fits is as plain as its items and the defaults are. -/
lemma isPlain_listOf? {shape : Shape} {value result : Json} {bound : Nat}
    (standards : ∀ member ∈ shape, ∀ standard ∈ member.2, standard.isPlain bound = true)
    (plain : value.isPlain (bound + 2) = true) (is : listOf? shape value = some result) :
    result.isPlain (bound + 2) = true := by
  unfold listOf? at is
  split at is
  · cases is
    rfl
  · split at is
    · obtain ⟨results, filled, rfl⟩ := Option.map_eq_some_iff.mp is
      exact Shape.isPlain_mapM_fill standards plain filled
    · cases is

/-- The value of a field that fits is as plain as what was kept. -/
lemma isPlain_fieldOf? {field : AuditField} {value result : Json} (plain : value.isPlain 3 = true)
    (is : fieldOf? field value = some result) : result.isPlain 3 = true := by
  unfold fieldOf? at is
  split at is
  · exact Shape.isPlain_fill (by decide) plain is
  · exact Shape.isPlain_fill (by decide) plain is
  · obtain ⟨results, filled, rfl⟩ := Option.map_eq_some_iff.mp is
    exact Shape.isPlain_mapM_fill (by decide) plain filled
  · exact isPlain_listOf? (by decide) plain is
  · exact isPlain_listOf? (by decide) plain is
  · exact Option.some.inj is ▸ plain

/-- A record that is read has its defaults, and in their place what is kept of the members of its fields. -/
lemma exists_changes_of_ofJson? {id : String} {members : List (String × Json)} {record : AuditRecord}
    (is : ofJson? id (.object members) = some record) : ∃ changes,
      change { id, ownerName := .null, repoName := .null } changes = record ∧
      (∀ change ∈ changes, ∃ value, Json.Member.get? members change.1.name = some value ∧
        fieldOf? change.1 value = some change.2) ∧
      ∀ field value, Json.Member.get? members field.name = some value → ∃ kept, (field, kept) ∈ changes := by
  simp only [ofJson?] at is
  split at is
  · simp only [Option.bind_eq_bind, Option.bind_eq_some_iff] at is
    obtain ⟨changes, fits, made⟩ := is
    refine ⟨changes, Option.some.inj made, fun change stored => ?_, fun field value found => ?_⟩
    · obtain ⟨item, given, of⟩ := exists_of_mem_mapM fits change stored
      obtain ⟨field, -, there⟩ := List.mem_filterMap.mp given
      obtain ⟨value, found, rfl⟩ := Option.map_eq_some_iff.mp there
      obtain ⟨kept, fits, rfl⟩ := Option.map_eq_some_iff.mp of
      exact ⟨value, found, fits⟩
    · obtain ⟨are, all⟩ := filterMap_of_mapM fits
      have given : (field, value) ∈ AuditField.all.filterMap fun field =>
          (Json.Member.get? members field.name).map (field, ·) :=
        List.mem_filterMap.mpr ⟨field, by cases field <;> decide, by rw [found]; rfl⟩
      obtain ⟨change, of⟩ := Option.isSome_iff_exists.mp (all _ given)
      obtain ⟨kept, -, rfl⟩ := Option.map_eq_some_iff.mp of
      exact ⟨kept, are ▸ List.mem_filterMap.mpr ⟨_, given, of⟩⟩
  · cases is

/-- What is read as an audit stands under its id, and is plain where the value is. -/
lemma of_ofJson? {id : String} {value : Json} {audit : AuditRecord} (is : ofJson? id value = some audit) :
    audit.id = id ∧ (value.isPlain 4 = true → ∀ field, (audit.get field).isPlain 3 = true) := by
  cases value with
  | object members =>
    obtain ⟨changes, rfl, kept, -⟩ := exists_changes_of_ofJson? is
    refine ⟨change_id _ _, fun plain => ?_⟩
    rw [Json.isPlain_object, List.all_eq_true] at plain
    refine isPlain_change (fun field => by cases field <;> rfl) ?_
    intro change member
    obtain ⟨value, found, fits⟩ := kept change member
    obtain ⟨before, after, split, -⟩ := List.lookup_eq_some_iff.mp found
    exact isPlain_fieldOf? (plain (change.1.name, value) (by simp [split])) fits
  | _ => cases is

end AuditRecord

namespace Store

/-- What a store that was read has in common with the one that was written: it has the same findings, and no
audits but those that were there. -/
structure Recalls (kept store : Store) : Prop where
  path : kept.path = store.path
  findings : kept.findings.Perm store.findings
  audits : ∀ audit ∈ kept.audits, ∃ old ∈ store.audits, old.id = audit.id
  plain : kept.Plain

/-- A plain store has a plain document. -/
lemma Plain.document {store : Store} (plain : store.Plain) :
    store.document.isPlain Json.nestingLimit = true := by
  have audits : ∀ audit ∈ store.audits, audit.toJson.isPlain 4 = true := fun audit stored =>
    AuditRecord.isPlain_toJson (plain.audits audit stored)
  have findings : ∀ finding ∈ store.findings, finding.toJson.isPlain 1 = true := by
    intro finding stored
    obtain ⟨auditId, fields⟩ := plain.findings finding stored
    simp [FindingRecord.toJson, FindingRecord.members, auditId, fields]
  have whole : store.document.isPlain 6 = true := by
    simp only [Store.document, Json.isPlain_object, List.all_cons, List.all_nil, List.all_map,
      Json.isPlain_integer, Bool.true_and, Bool.and_true, Bool.and_eq_true, List.all_eq_true,
      Function.comp_apply]
    exact ⟨audits, fun finding stored => Json.isPlain_mono (findings finding stored) (by decide)⟩
  exact Json.isPlain_mono whole (by decide)

/-- The members of a document where it was written. -/
lemma getD_document_settled (store : Store) :
    store.document.settled.getD "version" = .integer version ∧
    store.document.settled.getD "audits" =
      (Json.object (store.audits.map fun audit => (audit.id, audit.toJson))).settled ∧
    store.document.settled.getD "findings" =
      (Json.object (store.findings.map fun finding => (finding.id, finding.toJson))).settled := by
  have found (name : String) : store.document.settled.get? name =
      (Json.Member.get? [
        ("version", .integer version),
        ("audits", .object (store.audits.map fun audit => (audit.id, audit.toJson))),
        ("findings", .object (store.findings.map fun finding => (finding.id, finding.toJson)))]
        name).map Json.settled := by
    rw [document, Json.settled]
    exact Json.get?_settled (by simp) name
  simp only [Json.getD, found]
  exact ⟨rfl, rfl, rfl⟩

/-- Records under ids of their own are read back, each as it is read, in some order. -/
lemma recordsOf_settled {α : Type} {id : α → String} {write : α → Json} {record? : String → Json → Option α}
    (back : α → α) {records : List α} (keyed : (records.map id).Nodup)
    (reads : ∀ record ∈ records, record? (id record) (write record).settled = some (back record)) :
    (recordsOf record? (Json.object (records.map fun record => (id record, write record))).settled).Perm
      (records.map back) := by
  have members : Json.settled.settledMembers (records.map fun record => (id record, write record)) =
      records.map fun record => (id record, (write record).settled) := by
    rw [Json.settledMembers_eq, List.map_map]
    rfl
  have names : ((Json.inOrder (records.map fun record => (id record, (write record).settled))).map
      (·.1)).Nodup := by
    refine ((Json.inOrder_perm _).map _).nodup_iff.mpr ?_
    rw [List.map_map]
    exact keyed
  rw [Json.settled, members, Json.collected_of_nodup names, recordsOf]
  refine ((Json.inOrder_perm _).filterMap _).trans (List.Perm.of_eq ?_)
  rw [List.filterMap_map, ← List.filterMap_eq_map]
  exact List.filterMap_congr fun record stored => reads record stored

/-- The findings that are read back are the findings that there were. -/
lemma recordsOf_findings {findings : List FindingRecord} (keyed : (findings.map (·.id)).Nodup)
    (plain : ∀ finding ∈ findings,
      finding.auditId.isPlain 0 = true ∧ ∀ field, (finding.get field).isPlain 0 = true) :
    (recordsOf FindingRecord.ofJson?
      (Json.object (findings.map fun finding => (finding.id, finding.toJson))).settled).Perm findings := by
  have same := recordsOf_settled (fun finding => finding) keyed fun finding stored =>
    FindingRecord.ofJson?_settled (plain finding stored).1 (plain finding stored).2
  rwa [List.map_id'] at same

/-- A store is read back from its document. -/
theorem ofDocument_settled {store : Store} (plain : store.Plain) (keyed : store.Keyed) :
    (ofDocument store.path store.document.settled).Recalls store := by
  obtain ⟨ofVersion, ofAudits, ofFindings⟩ := getD_document_settled store
  have current : (Json.integer version).equalsInteger version = true := beq_self_eq_true _
  rw [ofDocument, ofVersion, current, if_pos rfl, ofAudits, ofFindings]
  have findings := recordsOf_findings keyed plain.findings
  have audits : ∀ audit ∈ recordsOf AuditRecord.ofJson?
      (Json.object (store.audits.map fun audit => (audit.id, audit.toJson))).settled,
      ∃ old ∈ store.audits, old.id = audit.id ∧ ∀ field, (audit.get field).isPlain 3 = true := by
    intro audit stored
    rw [Json.settled, recordsOf] at stored
    obtain ⟨⟨id, value⟩, member, is⟩ := List.mem_filterMap.mp stored
    have written := Json.mem_inOrder.mp (Json.mem_collected member)
    rw [Json.settledMembers_eq, List.map_map] at written
    obtain ⟨old, present, same⟩ := List.mem_map.mp written
    cases same
    obtain ⟨under, fields⟩ := AuditRecord.of_ofJson? is
    refine ⟨old, present, under.symm, fields (Json.isPlain_settled ?_)⟩
    exact AuditRecord.isPlain_toJson (plain.audits old present)
  refine ⟨rfl, findings, fun audit stored => ?_, fun audit stored => ?_, fun finding stored =>
    plain.findings finding (findings.mem_iff.mp stored)⟩
  · obtain ⟨old, present, same, -⟩ := audits audit stored
    exact ⟨old, present, same⟩
  · obtain ⟨-, -, -, fields⟩ := audits audit stored
    exact fields

end Store

end RepoAudit
