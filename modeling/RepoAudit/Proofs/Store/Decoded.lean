import RepoAudit.Proofs.Json.Legible
import RepoAudit.Proofs.Store.Arranged

/-!
# Decoded records

What is decoded of a file is more than what scans and requests keep: a field may have any value that is read, of any
kind and to any depth. Decoding fills in what is missing and drops what does not fit, and it does so once
(`Redecodes`): what was decoded, written and decoded again is the same record, apart from the order of the members of
its objects (`AuditRecord.settled`). So a store that comes from a file is found again in the file that it writes.
-/

namespace RepoAudit

open Json (Legible)

/-- A value that is decoded again where it was written, as what it was but for the order of members. -/
def Redecodes (decode : Json → Option Json) (value : Json) : Prop :=
  ∃ again, decode value.settled = some again ∧ again.settled = value.settled

/-- The levels of nesting that a field of a record may have in a document that is read. -/
def fieldDepth : Nat := Json.nestingLimit - 3

namespace Shape

/-- True of values that may stand for a member that is missing. -/
def isStandard : Json → Bool
  | .null | .bool _ | .text _ | .array [] | .object [] => true
  | .integer n => decide (n.natAbs ≤ 10)
  | _ => false

lemma legible_of_isStandard {value : Json} (standard : isStandard value = true) (depth : Nat) :
    Legible (depth + 1) value := by
  unfold isStandard at standard
  split at standard
  · exact .null
  · exact .bool _
  · exact .text _
  · exact .array (by simp)
  · exact .object List.nodup_nil (by simp)
  · refine .integer ((of_decide_eq_true standard).trans_lt ?_)
    exact (show 10 < 10 ^ 2 by decide).trans_le (Nat.pow_le_pow_right (by decide) (by decide))
  · cases standard

lemma names_values {members : List (String × Json)} : ∀ {shape : Shape} {result : List (String × Json)},
    shape.values members = some result → result.map (·.1) = shape.map (·.1) := by
  intro shape
  induction shape with
  | nil =>
    intro result is
    simp [values] at is
    simp [is]
  | cons first shape ih =>
    intro result is
    obtain ⟨name, standard⟩ := first
    simp only [values, Option.bind_eq_bind, Option.bind_eq_some_iff, Option.some.injEq] at is
    obtain ⟨value, -, others, rest, rfl⟩ := is
    rw [List.map_cons, List.map_cons, ih rest]

section Fill

variable {shape : Shape} (distinct : (shape.map (·.1)).Nodup)
variable (standards : ∀ member ∈ shape, ∀ standard ∈ member.2, isStandard standard = true)
variable {depth : Nat} {value kept : Json} {items results : List Json}
include distinct standards

/-- What fits a shape is an object, which is legible and fits the shape again. -/
lemma fill_decoded (legible : Legible (depth + 2) value) (is : shape.fill value = some kept) :
    (∃ members, kept = .object members) ∧ Legible (depth + 2) kept ∧ Redecodes shape.fill kept := by
  cases value with
  | object members =>
    simp only [fill] at is
    split at is
    · obtain ⟨filled, values, rfl⟩ := Option.map_eq_some_iff.mp is
      have names := names_values values
      have all : ∀ member ∈ filled, Legible (depth + 1) member.2 := values_all legible.of_member.2
        (fun member present standard is => legible_of_isStandard (standards member present standard is) depth) values
      exact ⟨⟨filled, rfl⟩, .object (names ▸ distinct) all, _, fill_settled names distinct,
        Legible.settled_members all⟩
    · cases is
  | _ => cases is

/-- What a list of objects that fit a shape becomes is a legible list, which fits again. -/
lemma mapM_fill_decoded (legible : Legible (depth + 3) (.array items)) (is : items.mapM shape.fill = some results) :
    Legible (depth + 3) (.array results) ∧ ∃ again, (results.map Json.settled).mapM shape.fill = some again ∧
      (Json.array again).settled = (Json.array results).settled := by
  have each : ∀ result ∈ results, Legible (depth + 2) result ∧ Redecodes shape.fill result := by
    intro result stored
    obtain ⟨item, present, of⟩ := exists_of_mem_mapM is result stored
    exact (fill_decoded distinct standards (legible.of_item item present) of).2
  have gives : ∀ result ∈ results, shape.fill result.settled = some ((shape.fill result.settled).getD .null) ∧
      ((shape.fill result.settled).getD .null).settled = result.settled := by
    intro result stored
    obtain ⟨-, again, of, same⟩ := each result stored
    rw [of, Option.getD_some]
    exact ⟨rfl, same⟩
  refine ⟨.array fun result stored => (each result stored).1,
    results.map fun result => (shape.fill result.settled).getD .null, ?_, ?_⟩
  · rw [List.mapM_map]
    exact mapM_of_forall fun result stored => (gives result stored).1
  · simp only [Json.settled, Json.settledItems_eq, List.map_map, Json.array.injEq]
    exact List.map_congr_left fun result stored => (gives result stored).2

lemma listOf?_decoded (legible : Legible (depth + 3) value) (is : AuditRecord.listOf? shape value = some kept) :
    Legible (depth + 3) kept ∧ Redecodes (AuditRecord.listOf? shape) kept := by
  unfold AuditRecord.listOf? at is
  split at is
  · cases is
    exact ⟨.array (by simp), .array [], rfl, rfl⟩
  · next truthy =>
    split at is
    · next items =>
      obtain ⟨results, filled, rfl⟩ := Option.map_eq_some_iff.mp is
      obtain ⟨legible, again, filled', same⟩ := mapM_fill_decoded distinct standards legible filled
      refine ⟨legible, .array again, ?_, same⟩
      rw [Json.settled, Json.settledItems_eq]
      cases results with
      | nil =>
        obtain rfl : [] = again := Option.some.inj filled'
        rfl
      | cons result results =>
        show Json.array <$> _ = _
        rw [filled']
        rfl
    · cases is

end Fill

end Shape

/-- What a field is kept as is legible, and is kept again where it was written. -/
lemma AuditField.fieldOf?_decoded {field : AuditField} {depth : Nat} {value kept : Json}
    (legible : Legible (depth + 3) value) (is : AuditRecord.fieldOf? field value = some kept) :
    Legible (depth + 3) kept ∧ Redecodes (AuditRecord.fieldOf? field) kept := by
  have asIs (same : AuditRecord.fieldOf? field value.settled = some value.settled) (still : some value = some kept) :
      Legible (depth + 3) kept ∧ Redecodes (AuditRecord.fieldOf? field) kept := by
    cases still
    exact ⟨legible, _, same, legible.settled_settled⟩
  cases field with
  | scores =>
    cases value with
    | object members =>
      obtain ⟨⟨filled, rfl⟩, legible, again⟩ := Shape.fill_decoded (by decide) (by decide) legible is
      exact ⟨legible, again⟩
    | _ => exact asIs rfl is
  | repoMeta =>
    cases value with
    | object members =>
      obtain ⟨⟨filled, rfl⟩, legible, again⟩ := Shape.fill_decoded (by decide) (by decide) legible is
      exact ⟨legible, again⟩
    | _ => exact asIs rfl is
  | remediationPlan =>
    cases value with
    | array items =>
      obtain ⟨results, filled, rfl⟩ := Option.map_eq_some_iff.mp is
      obtain ⟨legible, again, filled', same⟩ := Shape.mapM_fill_decoded (by decide) (by decide) legible filled
      refine ⟨legible, .array again, ?_, same⟩
      rw [Json.settled, Json.settledItems_eq]
      show Json.array <$> _ = _
      rw [filled']
      rfl
    | _ => exact asIs rfl is
  | fileTree => exact Shape.listOf?_decoded (by decide) (by decide) legible is
  | scanLog => exact Shape.listOf?_decoded (by decide) (by decide) legible is
  | ownerName | repoName | repoUrl | status | executiveSummary | scannedAt | createdAt => exact asIs rfl is

/-! ## Audits -/

namespace AuditRecord

/-- A record as it is read where it was written, when its fields are kept as they are. -/
def settled (record : AuditRecord) : AuditRecord :=
  record.change (AuditField.all.map fun field => (field, (record.get field).settled))

@[simp] lemma id_settled (record : AuditRecord) : record.settled.id = record.id := change_id _ _

@[simp] lemma get_settled (record : AuditRecord) (field : AuditField) :
    record.settled.get field = (record.get field).settled := get_change_all _ _ field

/-- Settling leaves whether a scan is running. -/
@[simp] lemma isRunning_settled (record : AuditRecord) : record.settled.isRunning = record.isRunning := by
  have status : record.settled.status = record.status.settled := record.get_settled .status
  rw [isRunning, isRunning, status]
  cases record.status <;> rfl

/-- The record of an id that has no fields but its defaults. -/
def blank (id : String) : AuditRecord := { id, ownerName := .null, repoName := .null }

/-- Each field of a record that is decoded is kept of a member, or it has its default where there is none. -/
lemma get_ofJson? {id : String} {members : List (String × Json)} {record : AuditRecord}
    (is : ofJson? id (.object members) = some record) (field : AuditField) :
    (Json.Member.get? members field.name = none ∧ record.get field = (blank id).get field) ∨
      ∃ value, Json.Member.get? members field.name = some value ∧ fieldOf? field value = some (record.get field) := by
  obtain ⟨changes, made, kept, named⟩ := exists_changes_of_ofJson? is
  obtain rfl : (blank id).change changes = record := made
  cases found : Json.Member.get? members field.name with
  | none =>
    refine .inl ⟨rfl, AuditRecord.get_change_of_notMem (fun change stored same => ?_) _⟩
    obtain ⟨value, other, -⟩ := kept change stored
    rw [same, found] at other
    cases other
  | some value =>
    obtain ⟨result, stored⟩ := named field value found
    obtain ⟨last, stored, is⟩ := get_change_of_mem ⟨_, stored, rfl⟩ (blank id)
    obtain ⟨other, found', fits⟩ := kept _ stored
    obtain rfl : value = other := Option.some.inj (found.symm.trans found')
    exact .inr ⟨value, rfl, is ▸ fits⟩

lemma texts_ofJson? {id : String} {value : Json} {record : AuditRecord} (is : ofJson? id value = some record) :
    (∃ text, record.get .ownerName = .text text) ∧ ∃ text, record.get .repoName = .text text := by
  cases value with
  | object members =>
    have keeps {field : AuditField} (asIs : ∀ value, fieldOf? field value = some value)
        (text : ((Json.Member.get? members field.name).bind Json.text?).isSome = true) :
        ∃ text, record.get field = .text text := by
      obtain ⟨missing, -⟩ | ⟨value, found, kept⟩ := get_ofJson? is field
      · rw [missing] at text
        cases text
      · rw [asIs, Option.some.injEq] at kept
        rw [found, Option.bind_some] at text
        rw [← kept]
        cases value with
        | text s => exact ⟨s, rfl⟩
        | _ => cases text
    simp only [ofJson?] at is
    split at is
    · next texts =>
      simp only [Bool.and_eq_true] at texts
      exact ⟨keeps (fun _ => rfl) texts.1.2, keeps (fun _ => rfl) texts.2⟩
    · cases is
  | _ => cases is

/-- A record whose fields are legible and are kept again where it was written. -/
structure Decoded (record : AuditRecord) : Prop where
  legible : ∀ field, Legible fieldDepth (record.get field)
  again : ∀ field, Redecodes (fieldOf? field) (record.get field)
  owner : ∃ text, record.get .ownerName = .text text
  name : ∃ text, record.get .repoName = .text text

/-- What is decoded of a legible value is decoded again. -/
lemma decoded_ofJson? {id : String} {value : Json} {record : AuditRecord} (legible : Legible (fieldDepth + 1) value)
    (is : ofJson? id value = some record) : record.Decoded := by
  have fields (field : AuditField) : Legible fieldDepth (record.get field) ∧
      Redecodes (fieldOf? field) (record.get field) := by
    cases value with
    | object members =>
      obtain ⟨distinct, all⟩ := legible.of_member
      obtain ⟨-, default⟩ | ⟨value, found, kept⟩ := get_ofJson? is field
      · rw [default]
        cases field with
        | fileTree | scanLog => exact ⟨.array (by simp), _, rfl, rfl⟩
        | repoUrl | status | createdAt => exact ⟨.text _, _, rfl, rfl⟩
        | _ => exact ⟨.null, _, rfl, rfl⟩
      · exact AuditField.fieldOf?_decoded (all _ ((Json.get?_of_mem distinct).mp found)) kept
    | _ => cases is
  exact ⟨fun field => (fields field).1, fun field => (fields field).2, (texts_ofJson? is).1, (texts_ofJson? is).2⟩

/-- A record as it is decoded where it was written. -/
def readBack (record : AuditRecord) : AuditRecord := (ofJson? record.id record.toJson.settled).getD record

section Decoded

variable {record : AuditRecord} (decoded : record.Decoded)
include decoded

/-- A record that was decoded is decoded again where it was written. -/
lemma Decoded.ofJson?_settled :
    ofJson? record.id record.toJson.settled = some record.readBack ∧ record.readBack.settled = record.settled := by
  choose kept reads same using decoded.again
  obtain ⟨other, is, id, fields⟩ := ofJson?_toJson_settled reads decoded.owner decoded.name
  rw [readBack, is, Option.getD_some]
  refine ⟨rfl, ext_get (by simpa using id) fun field => ?_⟩
  rw [get_settled, get_settled, fields, same]

lemma Decoded.legible_toJson : Legible (fieldDepth + 1) record.toJson := by
  refine .object record.names_nodup ?_
  rw [members, List.forall_mem_cons, List.forall_mem_map]
  exact ⟨.text _, fun field _ => decoded.legible field⟩

lemma Decoded.closed (now : Instant) : (Ledger.closed now record).Decoded := by
  have fields (field : AuditField) : Legible fieldDepth ((Ledger.closed now record).get field) ∧
      Redecodes (fieldOf? field) ((Ledger.closed now record).get field) := by
    obtain same | ⟨-, named, text, is⟩ := Ledger.get_closed now record field
    · exact same ▸ ⟨decoded.legible field, decoded.again field⟩
    · rw [is]
      refine ⟨.text _, .text text, ?_, rfl⟩
      simp only [Ledger.closingFields, List.mem_cons, List.not_mem_nil, or_false] at named
      obtain rfl | rfl | rfl := named <;> rfl
  have texts {field : AuditField} (apart : field ∉ Ledger.closingFields)
      (text : ∃ text, record.get field = .text text) : ∃ text, (Ledger.closed now record).get field = .text text := by
    obtain same | ⟨-, named, -⟩ := Ledger.get_closed now record field
    · exact same ▸ text
    · exact absurd named apart
  exact ⟨fun field => (fields field).1, fun field => (fields field).2, texts (by decide) decoded.owner,
    texts (by decide) decoded.name⟩

end Decoded

end AuditRecord

/-! ## Findings -/

namespace FindingRecord

/-- A record whose values are legible. -/
structure Decoded (record : FindingRecord) : Prop where
  auditId : Legible fieldDepth record.auditId
  legible : ∀ field, Legible fieldDepth (record.get field)

/-- What is decoded of a legible value is legible. -/
lemma decoded_ofJson? {id : String} {value : Json} {record : FindingRecord} (legible : Legible (fieldDepth + 1) value)
    (is : ofJson? id value = some record) : record.Decoded := by
  cases value with
  | object members =>
    obtain ⟨distinct, all⟩ := legible.of_member
    have found {name : String} {value : Json} (found : Json.Member.get? members name = some value) :
        Legible fieldDepth value := all _ ((Json.get?_of_mem distinct).mp found)
    simp only [ofJson?] at is
    split at is
    · split at is
      · cases is
        refine ⟨?_, fun field => ?_⟩
        · rw [change_auditId]
          cases given : Json.Member.get? members "audit_id" with
          | none => exact .null
          | some value => exact found given
        · obtain kept | ⟨value, named, is⟩ := get_change _ _ field
          · rw [kept]
            cases field with
            | effort | status => exact .text _
            | autoDetected => exact .bool _
            | _ => exact .null
          · obtain ⟨other, -, there⟩ := List.mem_filterMap.mp named
            obtain ⟨value', given, same⟩ := Option.map_eq_some_iff.mp there
            obtain ⟨rfl, rfl⟩ := Prod.mk.inj same
            rw [is]
            exact found given
      · cases is
    · cases is
  | _ => cases is

section Decoded

variable {record : FindingRecord} (decoded : record.Decoded)
include decoded

lemma Decoded.settled_settled : record.settled.settled = record.settled := by
  have fields (field : FindingField) : (record.settled.get field).settled = record.settled.get field := by
    rw [get_settled, (decoded.legible field).settled_settled]
  have audit : record.settled.auditId.settled = record.settled.auditId := by
    rw [auditId_settled, decoded.auditId.settled_settled]
  rw [settled.eq_def record.settled, audit]
  simp only [fields]
  exact change_all _ _ rfl rfl

lemma Decoded.legible_toJson : Legible (fieldDepth + 1) record.toJson := by
  refine .object record.names_nodup ?_
  rw [members, List.forall_mem_cons, List.forall_mem_cons, List.forall_mem_map]
  exact ⟨.text _, decoded.auditId, fun field _ => decoded.legible field⟩

end Decoded

end FindingRecord

/-! ## Stores -/

namespace Store

/-- A store of decoded records, each under an id of its own. -/
structure Decoded (store : Store) : Prop where
  audits : ∀ audit ∈ store.audits, audit.Decoded
  findings : ∀ finding ∈ store.findings, finding.Decoded
  auditIds : (store.audits.map (·.id)).Nodup
  findingIds : (store.findings.map (·.id)).Nodup

/-- Two stores have the same records, apart from their order and that of the members of objects. -/
structure Same (store other : Store) : Prop where
  audits : (other.audits.map (·.settled)).Perm (store.audits.map (·.settled))
  findings : (other.findings.map (·.settled)).Perm (store.findings.map (·.settled))

lemma decoded_empty (path : Option Path) : Decoded { path } :=
  ⟨nofun, nofun, List.nodup_nil, List.nodup_nil⟩

/-- The records of a legible object come of legible values, and no two of them share an id. -/
lemma recordsOf_legible {α : Type} (id : α → String) (record? : String → Json → Option α)
    (under : ∀ name value record, record? name value = some record → id record = name) {depth : Nat} {value : Json}
    (legible : Legible (depth + 1) value) :
    (∀ record ∈ recordsOf record? value, ∃ name value, Legible depth value ∧ record? name value = some record) ∧
      ((recordsOf record? value).map id).Nodup := by
  cases value with
  | object members =>
    obtain ⟨distinct, all⟩ := legible.of_member
    refine ⟨fun record stored => ?_, pairwise_recordsOf under distinct⟩
    obtain ⟨member, present, is⟩ := List.mem_filterMap.mp stored
    exact ⟨member.1, member.2, all member present, is⟩
  | _ => exact ⟨nofun, List.nodup_nil⟩

lemma decoded_ofDocument {document : Json} (legible : Legible Json.nestingLimit document) (path : Option Path) :
    (ofDocument path document).Decoded := by
  have part (name : String) : Legible (fieldDepth + 2) (document.getD name) := legible.getD name
  unfold ofDocument
  split
  · obtain ⟨audits, auditIds⟩ := recordsOf_legible AuditRecord.id AuditRecord.ofJson?
      (fun name value record is => (AuditRecord.of_ofJson? is).1) (part "audits")
    obtain ⟨findings, findingIds⟩ := recordsOf_legible FindingRecord.id FindingRecord.ofJson?
      (fun name value record is => FindingRecord.of_ofJson? is) (part "findings")
    refine ⟨fun audit stored => ?_, fun finding stored => ?_, auditIds, findingIds⟩
    · obtain ⟨name, value, legible, is⟩ := audits audit stored
      exact AuditRecord.decoded_ofJson? legible is
    · obtain ⟨name, value, legible, is⟩ := findings finding stored
      exact FindingRecord.decoded_ofJson? legible is
  · exact decoded_empty path

section Decoded

variable {store : Store} (decoded : store.Decoded)
include decoded

lemma Decoded.legible_document : Legible Json.nestingLimit store.document := by
  have audits : Legible (fieldDepth + 2) (.object (store.audits.map fun audit => (audit.id, audit.toJson))) := by
    refine .object ?_ (List.forall_mem_map.mpr fun audit stored => (decoded.audits audit stored).legible_toJson)
    rw [List.map_map]
    exact decoded.auditIds
  have findings : Legible (fieldDepth + 2)
      (.object (store.findings.map fun finding => (finding.id, finding.toJson))) := by
    refine .object ?_ (List.forall_mem_map.mpr fun finding stored => (decoded.findings finding stored).legible_toJson)
    rw [List.map_map]
    exact decoded.findingIds
  have current : Legible (fieldDepth + 2) (.integer version) :=
    .integer (show 1 < 10 ^ Number.digitLimit from Nat.one_lt_pow (by decide) (by decide))
  have deep : Json.nestingLimit = fieldDepth + 3 := rfl
  rw [deep]
  refine .object (by simp) ?_
  simp only [List.forall_mem_cons]
  exact ⟨current, audits, findings, nofun⟩

/-- The store that is read of the document of a decoded store is the same. -/
lemma Decoded.ofDocument_settled (path : Option Path) : store.Same (ofDocument path store.document.settled) := by
  obtain ⟨ofVersion, ofAudits, ofFindings⟩ := getD_document_settled store
  have current : (Json.integer version).equalsInteger version = true := beq_self_eq_true _
  rw [ofDocument, ofVersion, current, if_pos rfl, ofAudits, ofFindings]
  constructor
  · have found := recordsOf_settled AuditRecord.readBack decoded.auditIds fun audit stored =>
      (decoded.audits audit stored).ofJson?_settled.1
    refine (found.map _).trans (List.Perm.of_eq ?_)
    rw [List.map_map]
    exact List.map_congr_left fun audit stored => (decoded.audits audit stored).ofJson?_settled.2
  · have found := recordsOf_settled FindingRecord.settled decoded.findingIds fun finding _ =>
      finding.ofJson?_toJson_settled
    refine (found.map _).trans (List.Perm.of_eq ?_)
    rw [List.map_map]
    refine List.map_congr_left fun finding stored => ?_
    rw [Function.comp_apply, (decoded.findings finding stored).settled_settled]

end Decoded

end Store

namespace Ledger

lemma decoded_readStore {disk : Disk} {path : Path} {kept : Store} (reads : readStore disk path = .ok kept) :
    kept.path = some path ∧ kept.Decoded := by
  unfold readStore at reads
  split at reads
  · cases reads
    exact ⟨rfl, Store.decoded_empty _⟩
  · split at reads
    · cases reads
    · split at reads
      · next document is =>
        cases reads
        refine ⟨?_, Store.decoded_ofDocument (Json.legible_read is) _⟩
        unfold Store.ofDocument
        split <;> rfl
      · cases reads
        exact ⟨rfl, Store.decoded_empty _⟩
      · cases reads

lemma decoded_closeRunning {now : Instant} {store : Store} (decoded : store.Decoded) :
    (closeRunning now store).Decoded := by
  refine ⟨fun audit stored => ?_, decoded.findings, ?_, decoded.findingIds⟩
  · obtain ⟨old, present, rfl⟩ := mem_audits_closeRunning now store stored
    exact (decoded.audits old present).closed now
  · rw [ids_closeRunning]
    exact decoded.auditIds

/-- The file that a decoded store has written is read as the same store. -/
lemma readStore_decoded {disk : Disk} {path : Path} {store : Store} (decoded : store.Decoded)
    (reads : disk.read path = .ok (octetsOf store)) : ∃ kept, readStore disk path = .ok kept ∧ store.Same kept :=
  ⟨_, readStore_of_octetsOf reads decoded.legible_document.read_write, decoded.ofDocument_settled (some path)⟩

end Ledger

end RepoAudit
