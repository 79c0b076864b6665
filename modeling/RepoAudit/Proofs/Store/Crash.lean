import RepoAudit.Proofs.Store.Restored
import RepoAudit.Proofs.Store.Writing

/-!
# Stores whose programs crash

A program can crash at any point of an operation, and so can one that opens its store again. What is on the disk then
is read as what was last written of the store, or as what was being written, and never as anything else
(`Ledger.Holds`). A store that is opened after that has these records, with the scans ended that were running
(`Store.Resumes`).
-/

namespace RepoAudit

/-! ## Records that are taken up again -/

lemma Snapshot.toJson_injective : Function.Injective Snapshot.toJson := by
  intro first second same
  have languages : Function.Injective fun language : String × Int => (language.1, Json.integer language.2) := by
    rintro ⟨name, size⟩ ⟨name', size'⟩ same
    simpa using same
  obtain ⟨stars, forks, openIssues, defaultBranch, lastPush, isPrivate, description, size, sizes⟩ := first
  obtain ⟨stars', forks', openIssues', defaultBranch', lastPush', isPrivate', description', size', sizes'⟩ := second
  have described : Json.ofText? description = Json.ofText? description' → description = description' := by
    cases description <;> cases description' <;> simp [Json.ofText?]
  simp only [toJson, Json.object.injEq, List.cons.injEq, Prod.mk.injEq, Json.integer.injEq, Json.text.injEq,
    Json.bool.injEq, true_and, and_true] at same
  obtain ⟨rfl, rfl, rfl, rfl, rfl, rfl, is, rfl, sizes⟩ := same
  obtain rfl := described is
  obtain rfl := languages.list_map sizes
  rfl

lemma AuditField.Alike.trans {field : AuditField} {value other third : Json} (first : field.Alike value other)
    (second : field.Alike other third) : field.Alike value third := by
  cases field with
  | repoMeta =>
    obtain rfl | ⟨snapshot, languages, distinct, same, rfl, rfl⟩ := first
    · exact second
    · obtain rfl | ⟨snapshot', languages', distinct', same', is, rfl⟩ := second
      · exact .inr ⟨snapshot, languages, distinct, same, rfl, rfl⟩
      · obtain rfl := Snapshot.toJson_injective is
        exact .inr ⟨snapshot, languages', distinct', same'.trans same, rfl, rfl⟩
  | _ => exact Eq.trans second first

lemma AuditRecord.Agrees.trans {apart : List AuditField} {record other third : AuditRecord}
    (first : record.Agrees apart other) (second : other.Agrees [] third) : record.Agrees apart third :=
  ⟨second.id.trans first.id, fun field kept => (first.fields field kept).trans (second.fields field List.not_mem_nil)⟩

/-- A store has the records of another one, with the scans ended that were running. -/
structure Store.Resumes (again store : Store) : Prop where
  audits : (again.audits.map (·.id)).Perm (store.audits.map (·.id))
  findings : again.findings.Perm store.findings
  agrees : ∀ id audit, store.audit? id = some audit → ∃ other, again.audit? id = some other ∧
    audit.Agrees (if audit.isRunning then Ledger.closingFields else []) other

namespace Store

variable {again kept store : Store}

lemma Resumes.refl (store : Store) : store.Resumes store :=
  ⟨.refl _, .refl _, fun _ audit found => ⟨audit, found, .refl _ audit⟩⟩

/-- What is read back of records that are taken up again has these records. -/
lemma Resumes.restored (resumes : kept.Resumes store) (restores : again.Restores kept) (intact : kept.Intact) :
    again.Resumes store := by
  refine ⟨restores.ids.trans resumes.audits, restores.findings.trans resumes.findings, fun id audit found => ?_⟩
  obtain ⟨other, found', agrees⟩ := resumes.agrees id audit found
  obtain ⟨third, found'', agrees'⟩ := restores.audit? intact found'
  exact ⟨third, found'', agrees.trans agrees'⟩

/-- Scans that are ended leave records that are taken up again. -/
lemma Resumes.closed (resumes : kept.Resumes store) (now : Instant) :
    (Ledger.closeRunning now kept).Resumes store := by
  refine ⟨?_, resumes.findings, fun id audit found => ?_⟩
  · rw [Ledger.ids_closeRunning]
    exact resumes.audits
  obtain ⟨other, found', agrees⟩ := resumes.agrees id audit found
  refine ⟨Ledger.closed now other, by rw [Ledger.audit?_closeRunning, found', Option.map_some], ?_⟩
  cases running : audit.isRunning with
  | true =>
    rw [running, if_pos rfl] at agrees
    refine ⟨(Ledger.id_closed now other).trans agrees.id, fun field apart => ?_⟩
    obtain same | ⟨-, named, -⟩ := Ledger.get_closed now other field
    · exact same ▸ agrees.fields field apart
    · exact absurd named apart
  | false =>
    rw [running, if_neg Bool.false_ne_true] at agrees
    have agrees := Ledger.agrees_closed now agrees
    rwa [running] at agrees

end Store

/-! ## What is on the disk -/

namespace Ledger

/-- The file at the path is read as the records of the store, whatever directories are made for it. Where a scan was
running, the file can be written again. -/
structure Holds (disk : Disk) (path : Path) (store : Store) : Prop where
  intact : store.Intact
  steady : disk.Steady path
  reads : ∃ kept, readStore disk path = .ok kept ∧ kept.Restores store ∧
    (store.audits.any (·.isRunning) = true → Ready disk path ∧ kept.document.isWritable = true)

section Holds

variable {disk : Disk} {path : Path} {store : Store} {ledger : Ledger}

lemma readStore_congr {other : Disk}
    (same : ∀ octets, other.read path = .ok octets ↔ disk.read path = .ok octets) :
    readStore other path = readStore disk path := by
  cases reads : disk.read path with
  | ok octets => rw [readStore, readStore, reads, (same octets).mpr reads]
  | error error =>
    cases reads' : other.read path with
    | ok octets =>
      rw [(same octets).mp reads'] at reads
      cases reads
    | error error' => rw [readStore, readStore, reads, reads']

lemma path_of_readStore {kept : Store} (reads : readStore disk path = .ok kept) : kept.path = some path := by
  unfold readStore at reads
  split at reads
  · cases reads
    rfl
  · split at reads
    · cases reads
    · split at reads
      · obtain rfl := Except.ok.inj reads
        unfold Store.ofDocument
        split <;> rfl
      · cases reads
        rfl
      · cases reads

lemma Holds.located (holds : Holds disk path store) : store.path = some path := by
  obtain ⟨kept, reads, restores, -⟩ := holds.reads
  exact restores.path.symm.trans (path_of_readStore reads)

/-- A store that is read restores only what has a running scan where it has one. -/
lemma running_of_restores {kept : Store} (restores : kept.Restores store)
    (running : kept.audits.any (·.isRunning) = true) : store.audits.any (·.isRunning) = true := by
  obtain ⟨-, -, back, audits, agrees⟩ := restores
  obtain ⟨audit, stored, running⟩ := List.any_eq_true.mp running
  obtain ⟨old, present, rfl⟩ := List.mem_map.mp (audits.mem_iff.mp stored)
  have status : (back old).status = old.status := (agrees old present).1.fields .status List.not_mem_nil
  refine List.any_eq_true.mpr ⟨old, present, ?_⟩
  rwa [AuditRecord.isRunning, status] at running

/-- Where the file of a store can be written, it can be at every point of a write. -/
lemma Underway.ready (underway : Underway ledger disk) (located : ledger.store.path = some path)
    (ready : Ready ledger.disk path) : Ready disk path := by
  obtain ⟨place, leads, stands⟩ := ready.there.parent (named_parts ready.named)
  cases underway with
  | begun => exact ready
  | parents located' stage =>
    obtain rfl := Option.some.inj (located.symm.trans located')
    rw [Disk.stages_of_present leads stands] at stage
    cases stage
  | beside located' made named _ _ writes =>
    obtain rfl := Option.some.inj (located.symm.trans located')
    rw [Disk.makeDirectories_of_directory leads stands] at made
    obtain ⟨rfl, -⟩ := Prod.mk.inj made
    exact ⟨named, ready.beside.write writes, ready.there.write writes⟩

/-- At every point of a write the file holds what it held before. -/
lemma Underway.holds (underway : Underway ledger disk) (located : ledger.store.path = some path)
    (holds : Holds ledger.disk path store) : Holds disk path store := by
  obtain ⟨steady, back⟩ := underway.steady located holds.steady
  obtain ⟨kept, reads, restores, ready⟩ := holds.reads
  have same : readStore disk path = readStore ledger.disk path :=
    readStore_congr fun octets => ⟨back octets, underway.read located⟩
  refine ⟨holds.intact, steady, kept, same.trans reads, restores, fun running => ?_⟩
  obtain ⟨ready, writable⟩ := ready running
  exact ⟨underway.ready located ready, writable⟩

/-- A file that was written holds the store. -/
lemma Written.holds (written : ledger.Written) (located : ledger.store.path = some path)
    (intact : ledger.store.Intact) : Holds ledger.disk path ledger.store := by
  obtain ⟨reads, -, ready⟩ := written path located
  obtain ⟨kept, reads', restores, -⟩ := written.restorable intact path located
  exact ⟨intact, Disk.steady_of_read reads, kept, reads', restores, fun _ =>
    ⟨ready, restores.isWritable (written path located).2.1⟩⟩

/-- A store that was opened has what was read, with the running scans ended, and the file holds that. -/
lemma holds_opened {fresh again : Ledger} {kept : Store} (reads : readStore fresh.disk path = .ok kept)
    (intact : kept.Intact) (steady : fresh.disk.Steady path)
    (opens : Action.on (openStore (some path)) fresh = (.ok (), again)) :
    again.store = closeRunning fresh.now kept ∧ Holds again.disk path again.store := by
  have located : (closeRunning fresh.now kept).path = some path :=
    (path_closeRunning fresh.now kept).trans (path_of_readStore reads)
  have saved : Saved (Action.on (openStore (some path)) fresh).1 := by
    rw [opens]
    exact fun error same => nomatch same
  -- The file is left where nothing was running; otherwise it has the document of the new store.
  obtain ⟨disk, opens', files⟩ := openStore_on reads saved
  obtain ⟨-, rfl⟩ := Prod.mk.inj (opens.symm.trans opens')
  refine ⟨rfl, ?_⟩
  obtain ⟨rfl, closed⟩ | written := files
  · have same : kept.Restores (closeRunning fresh.now kept) := by
      rw [closed]
      exact .refl intact
    refine ⟨intact_closeRunning intact, steady, kept, reads, same, fun running => ?_⟩
    obtain ⟨audit, stored, running⟩ := List.any_eq_true.mp running
    rw [isRunning_closeRunning fresh.now kept stored] at running
    cases running
  · exact written.holds located (intact_closeRunning intact)

/-- A store whose records the file holds can be opened. -/
lemma Holds.opens {fresh : Ledger} (holds : Holds fresh.disk path store) : ∃ kept again,
    readStore fresh.disk path = .ok kept ∧ kept.Restores store ∧
    Action.on (openStore (some path)) fresh = (.ok (), again) ∧
    again.store = closeRunning fresh.now kept ∧ Holds again.disk path again.store := by
  obtain ⟨kept, reads, restores, ready⟩ := holds.reads
  have intact := restores.intact holds.intact
  have located : (closeRunning fresh.now kept).path = some path :=
    (path_closeRunning fresh.now kept).trans (path_of_readStore reads)
  have opened : (Action.on (openStore (some path)) fresh).1 = .ok () := by
    rw [openStore_reads reads]
    split
    · next running =>
      obtain ⟨ready, writable⟩ := ready (running_of_restores restores running)
      exact commit_of_ready located ready (isWritable_closeRunning writable)
    · rfl
  have opens : Action.on (openStore (some path)) fresh = (.ok (), (Action.on (openStore (some path)) fresh).2) :=
    Prod.ext opened rfl
  exact ⟨kept, _, reads, restores, opens, holds_opened reads intact holds.steady opens⟩

end Holds

end Ledger

end RepoAudit
