import RepoAudit.Proofs.Store.File
import RepoAudit.Proofs.Store.Intact

/-!
# Stores that are restored

A store of typed records is read back from its document whole: `Store.Restores` says that the findings are those
that there were, and that each audit is found again as it was. Nothing that is read has more digits than what was
written, so it can be written once more.
-/

namespace RepoAudit

/-- A store that was read has the findings of the one that was written, and its audits as they are found again. -/
structure Store.Restores (kept store : Store) : Prop where
  path : kept.path = store.path
  findings : kept.findings.Perm store.findings
  audits : ∃ back : AuditRecord → AuditRecord, kept.audits.Perm (store.audits.map back) ∧
    ∀ audit ∈ store.audits, audit.Agrees [] (back audit) ∧ (back audit).Typed

namespace Store

variable {kept store : Store}

/-- A store is restored from its document. -/
theorem ofDocument_restores (intact : store.Intact) :
    (ofDocument store.path store.document.settled).Restores store := by
  obtain ⟨ofVersion, ofAudits, ofFindings⟩ := getD_document_settled store
  have current : (Json.integer version).equalsInteger version = true := beq_self_eq_true _
  rw [ofDocument, ofVersion, current, if_pos rfl, ofAudits, ofFindings]
  have reads (audit : AuditRecord) (stored : audit ∈ store.audits) :=
    AuditRecord.ofJson?_settled (intact.typed.audits audit stored)
  refine ⟨rfl, recordsOf_findings intact.findings intact.typed.findings,
    fun audit => (AuditRecord.ofJson? audit.id audit.toJson.settled).getD audit, ?_, ?_⟩
  · refine recordsOf_settled _ intact.audits fun audit stored => ?_
    obtain ⟨other, is, -⟩ := reads audit stored
    rw [is, Option.getD_some]
  · intro audit stored
    obtain ⟨other, is, agrees, typed'⟩ := reads audit stored
    simp only [is, Option.getD_some]
    exact ⟨agrees, typed'⟩

/-- A typed store restores itself. -/
lemma Restores.refl (intact : store.Intact) : store.Restores store :=
  ⟨rfl, .refl _, id, by rw [List.map_id],
    fun audit stored => ⟨.refl _ audit, intact.typed.audits audit stored⟩⟩

section Restored

variable (restores : kept.Restores store)
include restores

/-- The ids of the audits are those that there were. -/
lemma Restores.ids : (kept.audits.map (·.id)).Perm (store.audits.map (·.id)) := by
  obtain ⟨-, -, back, audits, found⟩ := restores
  refine (audits.map _).trans (List.Perm.of_eq ?_)
  rw [List.map_map]
  exact List.map_congr_left fun audit stored => (found audit stored).1.id

/-- No audit is found again that was not there. -/
lemma Restores.audit?_eq_none_iff {id : String} : kept.audit? id = none ↔ store.audit? id = none := by
  rw [Store.audit?, Store.audit?, find?_eq_none_iff AuditRecord.id, find?_eq_none_iff AuditRecord.id,
    restores.ids.mem_iff]

variable (whole : store.Intact)
include whole

lemma Restores.finding? (id : String) : kept.finding? id = store.finding? id :=
  find?_perm FindingRecord.id whole.findings restores.findings id

lemma Restores.audit? {id : String} {audit : AuditRecord} (found : store.audit? id = some audit) :
    ∃ other, kept.audit? id = some other ∧ audit.Agrees [] other := by
  obtain ⟨stored, rfl⟩ := (find?_eq_some_iff_mem AuditRecord.id whole.audits).mp found
  have distinct : (kept.audits.map (·.id)).Nodup := restores.ids.nodup_iff.mpr whole.audits
  obtain ⟨-, -, back, audits, agrees⟩ := restores
  have present : back audit ∈ kept.audits := audits.mem_iff.mpr (List.mem_map_of_mem stored)
  have same := (agrees audit stored).1
  exact ⟨back audit, (find?_eq_some_iff_mem AuditRecord.id distinct).mpr ⟨present, same.id⟩, same⟩

lemma Restores.intact : kept.Intact := by
  refine ⟨restores.ids.nodup_iff.mpr whole.audits, (restores.findings.map _).nodup_iff.mpr whole.findings,
    fun finding stored => ?_, fun audit stored => ?_, fun finding stored => ?_⟩
  · obtain ⟨auditId, ofAudit, there⟩ := whole.owned finding (restores.findings.mem_iff.mp stored)
    obtain ⟨audit, found⟩ := Option.isSome_iff_exists.mp there
    obtain ⟨other, found', -⟩ := restores.audit? whole found
    exact ⟨auditId, ofAudit, Option.isSome_iff_exists.mpr ⟨other, found'⟩⟩
  · obtain ⟨-, -, back, audits, agrees⟩ := restores
    obtain ⟨old, present, rfl⟩ := List.mem_map.mp (audits.mem_iff.mp stored)
    exact (agrees old present).2
  · exact whole.typed.findings finding (restores.findings.mem_iff.mp stored)

end Restored

end Store

/-! ## What can be written again -/

lemma AuditRecord.isWritable_toJson (record : AuditRecord) :
    record.toJson.isWritable = true ↔ ∀ field, (record.get field).isWritable = true := by
  have all (field : AuditField) : field ∈ AuditField.all := by cases field <;> decide
  rw [toJson, Json.isWritable, Json.membersWritable_iff, members]
  simp [Json.isWritable, all]

lemma Store.isWritable_document (store : Store) : store.document.isWritable = true ↔
    (∀ audit ∈ store.audits, audit.toJson.isWritable = true) ∧
    ∀ finding ∈ store.findings, finding.toJson.isWritable = true := by
  have version : version.natAbs < 10 ^ Number.digitLimit := Nat.one_lt_pow (by decide) (by decide)
  simp [document, Json.isWritable, Json.isWritable.membersWritable, Json.membersWritable_iff, version]

/-- A value that is found again has the digits that it had. -/
lemma AuditField.Alike.isWritable {field : AuditField} {value other : Json} (alike : field.Alike value other)
    (writable : value.isWritable = true) : other.isWritable = true := by
  cases field with
  | repoMeta =>
    obtain rfl | ⟨snapshot, languages, -, same, rfl, rfl⟩ := alike
    · exact writable
    · have sizes : ∀ language, language ∈ languages ↔ language ∈ snapshot.languages := fun _ => same.mem_iff
      simpa [Snapshot.toJson, Json.isWritable, Json.isWritable.membersWritable, Json.membersWritable_iff, sizes]
        using writable
  | _ => exact alike ▸ writable

/-- What was read can be written when what there was can be. -/
lemma Store.Restores.isWritable {kept store : Store} (restores : kept.Restores store)
    (writable : store.document.isWritable = true) : kept.document.isWritable = true := by
  rw [isWritable_document] at writable ⊢
  obtain ⟨audits, findings⟩ := writable
  obtain ⟨-, same, back, kept', agrees⟩ := restores
  refine ⟨fun audit stored => ?_, fun finding stored => findings finding (same.mem_iff.mp stored)⟩
  obtain ⟨old, present, rfl⟩ := List.mem_map.mp (kept'.mem_iff.mp stored)
  have writable := (AuditRecord.isWritable_toJson old).mp (audits old present)
  refine (AuditRecord.isWritable_toJson _).mpr fun field => ?_
  exact ((agrees old present).1.fields field List.not_mem_nil).isWritable (writable field)

/-! ## Running scans that are ended -/

namespace Ledger

/-- The fields that the end of a running scan changes. -/
def closingFields : List AuditField := [.status, .scannedAt, .executiveSummary]

section Closed

variable (now : Instant) (audit : AuditRecord)

lemma get_closed (field : AuditField) : (closed now audit).get field = audit.get field ∨
    audit.isRunning = true ∧ field ∈ closingFields ∧ ∃ text, (closed now audit).get field = .text text := by
  unfold closed
  split
  · next running =>
    obtain kept | ⟨value, named, is⟩ := audit.get_change (closingChanges now) field
    · exact .inl kept
    · refine .inr ⟨running, ?_⟩
      simp only [closingChanges, List.mem_cons, Prod.mk.injEq, List.not_mem_nil, or_false] at named
      obtain ⟨rfl, rfl⟩ | ⟨rfl, rfl⟩ | ⟨rfl, rfl⟩ := named <;> exact ⟨by decide, _, is⟩
  · exact .inl rfl

variable {audit}

lemma typed_closed (typed : audit.Typed) : (closed now audit).Typed := by
  intro field
  obtain same | ⟨-, named, text, is⟩ := get_closed now audit field
  · exact same ▸ typed field
  · rw [is]
    simp only [closingFields, List.mem_cons, List.not_mem_nil, or_false] at named
    obtain rfl | rfl | rfl := named
    · exact ⟨text, rfl⟩
    · exact .inr ⟨text, rfl⟩
    · exact .inr ⟨text, rfl⟩

/-- An audit that is found again and ended, if its scan was running, is as it was, apart from what tells so. -/
lemma agrees_closed {other : AuditRecord} (agrees : audit.Agrees [] other) :
    audit.Agrees (if audit.isRunning then closingFields else []) (closed now other) := by
  have status : other.status = audit.status := agrees.fields .status List.not_mem_nil
  have running : other.isRunning = audit.isRunning := by rw [AuditRecord.isRunning, status]; rfl
  refine ⟨(id_closed now other).trans agrees.id, fun field apart => ?_⟩
  obtain same | ⟨open', named, -⟩ := get_closed now other field
  · exact same ▸ agrees.fields field List.not_mem_nil
  · rw [← running, if_pos open'] at apart
    exact absurd named apart

end Closed

section Close

variable {now : Instant} {store : Store}

@[simp] lemma ids_closeRunning : (closeRunning now store).audits.map (·.id) = store.audits.map (·.id) := by
  rw [audits_closeRunning, List.map_map]
  exact List.map_congr_left fun audit _ => id_closed now audit

lemma audit?_closeRunning (id : String) :
    (closeRunning now store).audit? id = (store.audit? id).map (closed now) := by
  have same : (fun audit : AuditRecord => audit.id == id) ∘ closed now = fun audit => audit.id == id :=
    funext fun audit => congrArg (· == id) (id_closed now audit)
  rw [Store.audit?, audits_closeRunning, List.find?_map, same, Store.audit?]

lemma intact_closeRunning (intact : store.Intact) : (closeRunning now store).Intact := by
  refine ⟨?_, intact.findings, fun finding stored => ?_, fun audit stored => ?_, intact.typed.findings⟩
  · rw [ids_closeRunning]
    exact intact.audits
  · obtain ⟨auditId, ofAudit, there⟩ := intact.owned finding stored
    refine ⟨auditId, ofAudit, ?_⟩
    rw [audit?_closeRunning, Option.isSome_map]
    exact there
  · obtain ⟨old, present, rfl⟩ := mem_audits_closeRunning now store stored
    exact typed_closed now (intact.typed.audits old present)

lemma isWritable_closeRunning (writable : store.document.isWritable = true) :
    (closeRunning now store).document.isWritable = true := by
  rw [Store.isWritable_document] at writable ⊢
  refine ⟨fun audit stored => ?_, writable.2⟩
  obtain ⟨old, present, rfl⟩ := mem_audits_closeRunning now store stored
  have writable := (AuditRecord.isWritable_toJson old).mp (writable.1 old present)
  refine (AuditRecord.isWritable_toJson _).mpr fun field => ?_
  obtain same | ⟨-, -, text, is⟩ := get_closed now old field
  · exact same ▸ writable field
  · rw [is]
    rfl

end Close

/-! ## Files that restore their stores -/

/-- The file of the store, if it has one, is read as a store that restores it. Where an audit is read, the file can
be written with what is read. -/
def Restorable (ledger : Ledger) : Prop :=
  ∀ path, ledger.store.path = some path →
    ∃ kept, readStore ledger.disk path = .ok kept ∧ kept.Restores ledger.store ∧
      (kept.audits ≠ [] → Ready ledger.disk path ∧ kept.document.isWritable = true)

/-- The octets of a store's file are read as a store that restores it. -/
lemma readStore_octetsOf {disk : Disk} {path : Path} {store : Store} (reads : disk.read path = .ok (octetsOf store))
    (located : store.path = some path) (writable : store.document.isWritable = true) (intact : store.Intact) :
    ∃ kept, readStore disk path = .ok kept ∧ kept.Restores store :=
  ⟨_, readStore_of_octetsOf reads (Json.read_write intact.typed.plain.document writable),
    located ▸ Store.ofDocument_restores intact⟩

/-- A document that was written is read as a store that restores the one that there was. -/
lemma Written.restorable {ledger : Ledger} (written : ledger.Written) (intact : ledger.store.Intact) :
    ledger.Restorable := by
  intro path located
  obtain ⟨holds, writable, ready⟩ := written path located
  obtain ⟨kept, reads, restores⟩ := readStore_octetsOf holds located writable intact
  exact ⟨kept, reads, restores, fun _ => ⟨ready, restores.isWritable writable⟩⟩

/-- A store whose file restores it is opened again: from the file comes a store that restores it, in which running
scans are ended, and the file restores that one. -/
lemma Restorable.opens {ledger fresh : Ledger} {path : Path} (restorable : ledger.Restorable)
    (intact : ledger.store.Intact) (located : ledger.store.path = some path) (same : fresh.disk = ledger.disk) :
    ∃ kept disk, kept.Restores ledger.store ∧ Action.on (openStore (some path)) fresh =
        (.ok (), { fresh with store := closeRunning fresh.now kept, disk }) ∧
      Restorable { fresh with store := closeRunning fresh.now kept, disk } := by
  obtain ⟨kept, reads, restores, ready⟩ := restorable path located
  rw [← same] at reads ready
  have intact : (closeRunning fresh.now kept).Intact := intact_closeRunning (restores.intact intact)
  -- Only where a scan is running the store is written, so there is an audit, and the file can be written.
  have saved : Saved (Action.on (openStore (some path)) fresh).1 := by
    rw [openStore_reads reads]
    split
    · next running =>
      have present : kept.audits ≠ [] := by
        rintro none
        simp [none] at running
      obtain ⟨ready, writable⟩ := ready present
      have there : (closeRunning fresh.now kept).path = some path := restores.path.trans located
      rw [commit_of_ready there ready (isWritable_closeRunning writable)]
      exact fun error same => nomatch same
    · exact fun error same => nomatch same
  -- The file is left where nothing was running; otherwise it has the document of the new store.
  obtain ⟨disk, opens, ⟨rfl, closed⟩ | written⟩ := openStore_on reads saved
  · refine ⟨kept, _, restores, opens, fun path' there => ?_⟩
    obtain rfl : path' = path := Option.some.inj (there.symm.trans (restores.path.trans located))
    refine ⟨kept, reads, ?_, ready⟩
    rw [closed] at intact ⊢
    exact .refl intact
  · exact ⟨kept, disk, restores, opens, written.restorable intact⟩

/-- Ids are apart and stay so, the store is intact, and its file restores it. -/
structure Consistent (ledger : Ledger) : Prop where
  injective : Function.Injective ledger.ids
  unused : ∀ n, ledger.drawn < n → ledger.store.audit? (ledger.ids n) = none
  intact : ledger.store.Intact
  restorable : ledger.Restorable

/-- Operations with typed values, whose writes do not fail, keep a store and its file as they are to be. -/
lemma Consistent.leads {ledger after : Ledger} (consistent : ledger.Consistent) (leads : ledger.Leads after)
    (files : (after.store = ledger.store ∧ after.disk = ledger.disk) ∨ after.Written) : after.Consistent := by
  have intact := leads.changed.intact consistent.intact
  refine ⟨leads.ids ▸ consistent.injective, leads.unused consistent.injective consistent.unused, intact, ?_⟩
  obtain ⟨store, disk⟩ | written := files
  · intro path located
    rw [store, disk] at *
    exact consistent.restorable path located
  · exact written.restorable intact

/-- A store that is opened again is as it is to be. -/
lemma Consistent.opened {ledger fresh after : Ledger} {path : Path} (consistent : ledger.Consistent)
    (located : ledger.store.path = some path) (opens : Action.on (openStore (some path)) fresh = (.ok (), after))
    (same : fresh.disk = ledger.disk) (ids : fresh.ids = ledger.ids) (drawn : fresh.drawn = ledger.drawn) :
    after.ids = ledger.ids ∧ after.drawn = ledger.drawn ∧
    (∀ id, ledger.store.audit? id = none → after.store.audit? id = none) ∧ after.Consistent := by
  obtain ⟨kept, disk, restores, does, restorable⟩ :=
    consistent.restorable.opens consistent.intact located same
  obtain rfl := congrArg Prod.snd (opens.symm.trans does)
  have missing (id : String) (absent : ledger.store.audit? id = none) :
      (closeRunning fresh.now kept).audit? id = none := by
    rw [audit?_closeRunning, Option.map_eq_none_iff, restores.audit?_eq_none_iff]
    exact absent
  refine ⟨ids, drawn, missing, ids ▸ consistent.injective, fun n later => ?_,
    intact_closeRunning (restores.intact consistent.intact), restorable⟩
  refine missing _ ?_
  rw [ids]
  exact consistent.unused n (drawn ▸ later)

end Ledger

end RepoAudit
