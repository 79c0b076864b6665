import RepoAudit.Proofs.Store.Document

/-!
# Typed records

Scans and requests keep values of fixed kinds: texts, scores, snapshots, plans, trees and logs
(`AuditField.Admits`). Written and read again, such a value is what it was, except that the languages of a snapshot
come in the order of their names (`AuditField.Alike`), so an audit of such values is always read back.
-/

namespace RepoAudit

namespace Shape

/-- Members that are found by name, in the order of a shape, are its values. -/
lemma values_of_found {read : List (String × Json)} {shape : Shape} {members : List (String × Json)}
    (names : members.map (·.1) = shape.map (·.1))
    (found : ∀ member ∈ members, Json.Member.get? read member.1 = some member.2.settled) :
    shape.values read = some (members.map fun member => (member.1, member.2.settled)) := by
  induction shape generalizing members with
  | nil =>
    rw [List.map_eq_nil_iff.mp names]
    rfl
  | cons item shape ih =>
    cases members with
    | nil => cases names
    | cons member members =>
      obtain ⟨same, others⟩ := List.cons.inj names
      have same : member.1 = item.1 := same
      obtain ⟨first, rest⟩ := List.forall_mem_cons.mp found
      simp only [values, ← same, first, ih others rest, Option.bind_eq_bind, Option.bind_some, Option.some_or,
        List.map_cons]

/-- What is read of an object has the names of the object. -/
lemma has_settled {shape : Shape} {members : List (String × Json)} (names : members.map (·.1) = shape.map (·.1)) :
    (Json.collected (Json.inOrder (Json.settled.settledMembers members))).all (fun member =>
      shape.has member.1) = true := by
  rw [List.all_eq_true]
  intro member stored
  have written := Json.mem_inOrder.mp (Json.mem_collected stored)
  rw [Json.settledMembers_eq] at written
  obtain ⟨old, present, rfl⟩ := List.mem_map.mp written
  have named : old.1 ∈ shape.map (·.1) := names ▸ List.mem_map_of_mem present
  obtain ⟨item, there, same⟩ := List.mem_map.mp named
  exact List.any_eq_true.mpr ⟨item, there, by simp [same]⟩

/-- An object with the members of a shape, in its order, fits the shape where it is read. -/
lemma fill_settled {shape : Shape} {members : List (String × Json)} (names : members.map (·.1) = shape.map (·.1))
    (distinct : (shape.map (·.1)).Nodup) : shape.fill (Json.object members).settled =
      some (.object (members.map fun member => (member.1, member.2.settled))) := by
  rw [← names] at distinct
  simp only [Json.settled, fill]
  rw [if_pos (has_settled names), values_of_found names fun member stored => ?_]
  · rfl
  · rw [Json.get?_settled distinct, (Json.get?_of_mem distinct).mpr stored, Option.map_some]

/-- An object of scalars with the members of a shape, in its order, is read as it was. -/
lemma fill_settled_scalars {shape : Shape} {members : List (String × Json)}
    (names : members.map (·.1) = shape.map (·.1)) (distinct : (shape.map (·.1)).Nodup)
    (scalars : ∀ member ∈ members, member.2.settled = member.2) :
    shape.fill (Json.object members).settled = some (.object members) := by
  rw [fill_settled names distinct, List.map_congr_left (g := id), List.map_id]
  intro member stored
  rw [scalars member stored]
  rfl

end Shape

/-- A list whose items are read as they were is read as it was. -/
lemma mapM_settled {shape : Shape} {α : Type} {write : α → Json}
    (fits : ∀ item, shape.fill (write item).settled = some (write item)) (items : List α) :
    ((items.map write).map Json.settled).mapM shape.fill = some (items.map write) := by
  rw [List.mapM_map, List.mapM_map]
  exact mapM_of_forall fun item _ => fits item

lemma Scores.fill_settled (scores : Scores) : Shape.scores.fill scores.toJson.settled = some scores.toJson := by
  refine Shape.fill_settled_scalars rfl (by decide) fun member stored => ?_
  obtain ⟨category, -, rfl⟩ := List.mem_map.mp stored
  rfl

lemma LogEntry.fill_settled (entry : LogEntry) :
    Shape.logEntry.fill entry.toJson.settled = some entry.toJson := by
  refine Shape.fill_settled_scalars rfl (by decide) fun member stored => ?_
  simp only [List.mem_cons, List.not_mem_nil, or_false] at stored
  obtain rfl | rfl | rfl | rfl := stored <;> rfl

lemma TreeEntry.fill_settled (entry : TreeEntry) :
    Shape.treeEntry.fill entry.toJson.settled = some entry.toJson := by
  refine Shape.fill_settled_scalars rfl (by decide) fun member stored => ?_
  simp only [List.mem_cons, List.not_mem_nil, or_false] at stored
  obtain rfl | rfl | rfl := stored
  · rfl
  · rfl
  · rcases entry.size with _ | (_ | _) <;> rfl

lemma Phase.fill_settled (phase : Phase) : Shape.phase.fill phase.toJson.settled = some phase.toJson := by
  refine Shape.fill_settled_scalars rfl (by decide) fun member stored => ?_
  simp only [List.mem_cons, List.not_mem_nil, or_false] at stored
  obtain rfl | rfl | rfl := stored
  · rfl
  · rfl
  · simp [Json.settled, Json.settledItems_eq, Function.comp_def]

/-- A snapshot is read with its languages in the order of their names. -/
lemma Snapshot.fill_settled {snapshot : Snapshot} (distinct : (snapshot.languages.map (·.1)).Nodup) :
    Shape.snapshot.fill snapshot.toJson.settled =
      some { snapshot with languages := Json.inOrder snapshot.languages }.toJson := by
  rw [Snapshot.toJson, Shape.fill_settled rfl (by decide)]
  have description : (Json.ofText? snapshot.description).settled = Json.ofText? snapshot.description := by
    cases snapshot.description <;> rfl
  -- Languages are written as members of an object, so they are read in the order of their names.
  have languages : (Json.object (snapshot.languages.map fun language => (language.1, .integer language.2))).settled =
      .object ((Json.inOrder snapshot.languages).map fun language => (language.1, .integer language.2)) := by
    rw [Json.settled, Json.settledMembers_eq, List.map_map]
    have settled : (fun member : String × Json => (member.1, member.2.settled)) ∘
        (fun language : String × Int => (language.1, .integer language.2)) =
        fun language => (language.1, Json.integer language.2) := rfl
    rw [settled, Json.inOrder_map Json.integer, Json.collected_of_nodup]
    rw [List.map_map]
    exact ((Json.inOrder_perm _).map _).nodup_iff.mpr distinct
  simp only [List.map_cons, List.map_nil, languages, description]
  rfl

/-- The values that a field of an audit is given. -/
def AuditField.Admits : AuditField → Json → Prop
  | .scores, value => value = .null ∨ ∃ scores : Scores, value = scores.toJson
  | .executiveSummary, value | .scannedAt, value => value = .null ∨ ∃ text, value = .text text
  | .remediationPlan, value => value = .null ∨ ∃ plan, value = Json.ofList Phase.toJson plan
  | .repoMeta, value => value = .null ∨ ∃ snapshot : Snapshot,
    (snapshot.languages.map (·.1)).Nodup ∧ value = snapshot.toJson
  | .fileTree, value => ∃ tree, value = Json.ofList TreeEntry.toJson tree
  | .scanLog, value => ∃ entries, value = Json.ofList LogEntry.toJson entries
  | .ownerName, value | .repoName, value | .repoUrl, value | .status, value | .createdAt, value =>
    ∃ text, value = .text text

/-- The same value of a field, but for the order of the languages of a snapshot, which have different names. -/
def AuditField.Alike : AuditField → Json → Json → Prop
  | .repoMeta, value, other => other = value ∨ ∃ (snapshot : Snapshot) (languages : List (String × Int)),
    (languages.map (·.1)).Nodup ∧ languages.Perm snapshot.languages ∧ value = snapshot.toJson ∧
    other = { snapshot with languages }.toJson
  | _, value, other => other = value

namespace AuditField

variable {field : AuditField} {value : Json}

lemma Alike.refl (field : AuditField) (value : Json) : field.Alike value value := by
  cases field <;> first | exact rfl | exact .inl rfl

lemma Admits.isPlain (admits : field.Admits value) : value.isPlain 3 = true := by
  cases field with
  | scores | remediationPlan =>
    obtain rfl | ⟨_, rfl⟩ := admits
    · rfl
    · simp [Json.isPlain_ofList]
  | executiveSummary | scannedAt => obtain rfl | ⟨_, rfl⟩ := admits <;> rfl
  | repoMeta =>
    obtain rfl | ⟨_, -, rfl⟩ := admits
    · rfl
    · simp
  | fileTree | scanLog =>
    obtain ⟨_, rfl⟩ := admits
    simp [Json.isPlain_ofList]
  | ownerName | repoName | repoUrl | status | createdAt =>
    obtain ⟨_, rfl⟩ := admits
    rfl

lemma Alike.admits {other : Json} (alike : field.Alike value other) (admits : field.Admits value) :
    field.Admits other := by
  cases field with
  | repoMeta =>
    obtain rfl | ⟨snapshot, languages, distinct, -, -, rfl⟩ := alike
    · exact admits
    · exact .inr ⟨{ snapshot with languages }, distinct, rfl⟩
  | _ => exact alike ▸ admits

/-- A list that is read as it was is kept as it was. -/
lemma listOf?_settled {shape : Shape} {α : Type} {write : α → Json}
    (fits : ∀ item, shape.fill (write item).settled = some (write item)) (items : List α) :
    AuditRecord.listOf? shape (Json.ofList write items).settled = some (Json.ofList write items) := by
  rw [Json.ofList, Json.settled, Json.settledItems_eq]
  cases items with
  | nil => rfl
  | cons item items =>
    show Json.array <$> (((item :: items).map write).map Json.settled).mapM shape.fill = _
    rw [mapM_settled fits]
    rfl

/-- A value of a field is read back as it was, but for the order of languages. -/
lemma Admits.fieldOf?_settled (admits : field.Admits value) :
    ∃ kept, AuditRecord.fieldOf? field value.settled = some kept ∧ field.Alike value kept := by
  cases field with
  | scores =>
    obtain rfl | ⟨scores, rfl⟩ := admits
    · exact ⟨.null, rfl, rfl⟩
    · exact ⟨_, scores.fill_settled, rfl⟩
  | remediationPlan =>
    obtain rfl | ⟨plan, rfl⟩ := admits
    · exact ⟨.null, rfl, rfl⟩
    · refine ⟨_, ?_, rfl⟩
      rw [Json.ofList, Json.settled, Json.settledItems_eq]
      simp only [AuditRecord.fieldOf?]
      rw [mapM_settled Phase.fill_settled]
      rfl
  | repoMeta =>
    obtain rfl | ⟨snapshot, distinct, rfl⟩ := admits
    · exact ⟨.null, rfl, .inl rfl⟩
    · have ordered := ((Json.inOrder_perm snapshot.languages).map (·.1)).nodup_iff.mpr distinct
      exact ⟨_, Snapshot.fill_settled distinct, .inr ⟨snapshot, _, ordered, Json.inOrder_perm _, rfl, rfl⟩⟩
  | fileTree =>
    obtain ⟨tree, rfl⟩ := admits
    exact ⟨_, listOf?_settled TreeEntry.fill_settled tree, rfl⟩
  | scanLog =>
    obtain ⟨entries, rfl⟩ := admits
    exact ⟨_, listOf?_settled LogEntry.fill_settled entries, rfl⟩
  | executiveSummary | scannedAt => obtain rfl | ⟨text, rfl⟩ := admits <;> exact ⟨_, rfl, rfl⟩
  | ownerName | repoName | repoUrl | status | createdAt =>
    obtain ⟨text, rfl⟩ := admits
    exact ⟨_, rfl, rfl⟩

end AuditField

namespace AuditRecord

/-- An audit in whose fields are values that they are given. -/
def Typed (record : AuditRecord) : Prop := ∀ field : AuditField, field.Admits (record.get field)

/-- An audit is found again, apart from some fields, as it was. -/
structure Agrees (apart : List AuditField) (record other : AuditRecord) : Prop where
  id : other.id = record.id
  fields : ∀ field, field ∉ apart → field.Alike (record.get field) (other.get field)

variable {record other : AuditRecord}

lemma Agrees.refl (apart : List AuditField) (record : AuditRecord) : record.Agrees apart record :=
  ⟨rfl, fun field _ => .refl field _⟩

lemma Typed.change {changes : List (AuditField × Json)} (typed : record.Typed)
    (admitted : ∀ change ∈ changes, change.1.Admits change.2) : (record.change changes).Typed := by
  intro field
  obtain kept | ⟨value, named, is⟩ := get_change record changes field
  · exact kept ▸ typed field
  · exact is ▸ admitted _ named

lemma names_nodup (record : AuditRecord) : (record.members.map (·.1)).Nodup := by
  have names : record.members.map (·.1) = "id" :: AuditField.all.map AuditField.name := by
    simp [members]
  rw [names]
  decide

lemma get?_members (record : AuditRecord) : Json.Member.get? record.members "id" = some (.text record.id) ∧
    ∀ field, Json.Member.get? record.members (AuditField.name field) = some (record.get field) := by
  refine ⟨rfl, fun field => ?_⟩
  cases field <;> rfl

@[simp] lemma get_change_all (blank : AuditRecord) (value : AuditField → Json) (field : AuditField) :
    (blank.change (AuditField.all.map fun field => (field, value field))).get field = value field := by
  cases field <;> rfl

/-- An audit is read back from its record with what is read for each field. -/
lemma ofJson?_toJson_settled {kept : AuditField → Json}
    (reads : ∀ field, fieldOf? field (record.get field).settled = some (kept field))
    (owner : ∃ text, record.get .ownerName = .text text) (name : ∃ text, record.get .repoName = .text text) :
    ∃ other, ofJson? record.id record.toJson.settled = some other ∧ other.id = record.id ∧
      ∀ field, other.get field = kept field := by
  obtain ⟨ofId, ofField⟩ := get?_members record
  have found := Json.get?_settled record.names_nodup
  rw [toJson, Json.settled]
  generalize Json.collected (Json.inOrder (Json.settled.settledMembers record.members)) = read at found
  have field (field : AuditField) : Json.Member.get? read field.name = some (record.get field).settled := by
    rw [found, ofField, Option.map_some]
  have given : (AuditField.all.filterMap fun field => (Json.Member.get? read field.name).map (field, ·)) =
      AuditField.all.map fun field => (field, (record.get field).settled) := by
    rw [← List.filterMap_eq_map]
    exact List.filterMap_congr fun f _ => by rw [field]; rfl
  have fits : (AuditField.all.map fun field => (field, (record.get field).settled)).mapM
      (fun change => (fieldOf? change.1 change.2).map (change.1, ·)) =
      some (AuditField.all.map fun field => (field, kept field)) := by
    rw [List.mapM_map]
    exact mapM_of_forall fun field _ => by simp [reads]
  have texts {f : AuditField} {text : String} (is : record.get f = .text text) :
      ((Json.Member.get? read f.name).bind Json.text?).isSome = true := by
    rw [field, is]
    rfl
  obtain ⟨owner, ofOwner⟩ := owner
  obtain ⟨name, ofName⟩ := name
  have isOwner : ((Json.Member.get? read "owner_name").bind Json.text?).isSome = true := texts ofOwner
  have isName : ((Json.Member.get? read "repo_name").bind Json.text?).isSome = true := texts ofName
  have under : ((Json.Member.get? read "id").getD .null).isText record.id = true := by
    rw [found, ofId]
    exact beq_self_eq_true _
  simp only [ofJson?, given, fits, under, isOwner, isName, Bool.and_self, if_true]
  exact ⟨_, rfl, change_id _ _, get_change_all _ kept⟩

/-- A typed audit is read back from its record. -/
lemma ofJson?_settled (typed : record.Typed) :
    ∃ other, ofJson? record.id record.toJson.settled = some other ∧ record.Agrees [] other ∧ other.Typed := by
  choose kept reads alike using fun field => (typed field).fieldOf?_settled
  obtain ⟨other, is, id, fields⟩ := ofJson?_toJson_settled reads (typed .ownerName) (typed .repoName)
  refine ⟨other, is, ⟨id, fun field _ => ?_⟩, fun field => ?_⟩
  · rw [fields]
    exact alike field
  · rw [fields]
    exact (alike field).admits (typed field)

end AuditRecord

/-- A store of typed audits, and of findings in whose fields are neither arrays nor objects. -/
structure Store.Typed (store : Store) : Prop where
  audits : ∀ audit ∈ store.audits, audit.Typed
  findings : ∀ finding ∈ store.findings,
    finding.auditId.isPlain 0 = true ∧ ∀ field, (finding.get field).isPlain 0 = true

lemma Store.Typed.plain {store : Store} (typed : store.Typed) : store.Plain :=
  ⟨fun audit stored field => (typed.audits audit stored field).isPlain, typed.findings⟩

end RepoAudit
