import RepoAudit.Proofs.Bytes.Utf8
import RepoAudit.Proofs.Disk.Replace
import RepoAudit.Proofs.Store.Document
import RepoAudit.Proofs.Store.Effect

/-!
# Files of stores

Where no write fails, the file of a store holds what the store holds: an operation leaves both, or the file has
the document of the new store. So a store that is opened again has the findings that it had
(`Ledger.Mirrored`).
-/

namespace RepoAudit.Ledger

/-- A file can be written at the path: beside it, and then in its place. -/
structure Ready (disk : Disk) (path : Path) : Prop where
  named : path.name.isEmpty = false
  beside : disk.Takes (besidePath path)
  there : disk.Takes path

/-- The file of a store, if it has one, holds the store's document, and it can be written again. -/
def Written (ledger : Ledger) : Prop :=
  ∀ path, ledger.store.path = some path →
    ledger.disk.read path = .ok (octetsOf ledger.store) ∧ ledger.store.document.isWritable = true ∧
      Ready ledger.disk path

lemma onDisk_ok {operation : Disk → Except DiskError Disk} {ledger after : Ledger}
    (done : Action.on (onDisk operation) ledger = (.ok (), after)) :
    ∃ disk, operation ledger.disk = .ok disk ∧ after = { ledger with disk } := by
  cases result : operation ledger.disk with
  | ok disk =>
    simp only [onDisk, Action.on_bind, Action.on_get, result, setDisk_on, Prod.mk.injEq, true_and] at done
    exact ⟨disk, rfl, done.symm⟩
  | error error =>
    simp [onDisk, result] at done

/-- One operation after another that succeeds. -/
lemma bind_ok {α β : Type} {action : Action α} {next : α → Action β} {ledger after : Ledger} {value : β}
    (done : Action.on (action >>= next) ledger = (.ok value, after)) :
    ∃ first between, Action.on action ledger = (.ok first, between) ∧
      Action.on (next first) between = (.ok value, after) := by
  rw [Action.on_bind] at done
  rcases first : Action.on action ledger with ⟨error | value, between⟩
  · rw [first] at done
    cases done
  · rw [first] at done
    exact ⟨value, between, rfl, done⟩

/-- Saving without a failure writes the document. -/
lemma written_of_save {ledger after : Ledger} (done : Action.on save ledger = (.ok (), after)) :
    after.Written := by
  obtain ⟨reply, disk, -, does⟩ := onlyDisk_save ledger
  have store : after.store = ledger.store := by
    rw [does] at done
    cases done
    rfl
  intro path located
  rw [store] at located ⊢
  rw [save_on located] at done
  obtain ⟨_, made, makes, rest⟩ := bind_ok done
  have disk_only : ∃ disk, made = { ledger with disk } := by
    obtain ⟨reply, disk, -, does⟩ := onlyDisk_makeParents path ledger
    rw [does] at makes
    cases makes
    exact ⟨disk, rfl⟩
  obtain ⟨parents, rfl⟩ := disk_only
  split at rest
  · cases rest
  next named =>
  split at rest
  · cases rest
  next writable =>
  obtain ⟨_, written, writes, moves⟩ := bind_ok rest
  -- The document is written beside the file first, and then moved there.
  obtain ⟨beside, wrote, rfl⟩ := onDisk_ok writes
  obtain ⟨moved, replaced, rfl⟩ := onDisk_ok moves
  obtain ⟨takes, goal, leads, found⟩ := Disk.replaced wrote replaced
  have there : moved.Takes path := ⟨goal, leads, by simp [found]⟩
  exact ⟨Disk.read_of_replaced wrote replaced, by simpa using writable, by simpa using named, takes, there⟩

/-- Where its file can be written, a store whose document can be written is saved. -/
lemma save_of_ready {ledger : Ledger} {path : Path} (located : ledger.store.path = some path)
    (ready : Ready ledger.disk path) (writable : ledger.store.document.isWritable = true) :
    (Action.on save ledger).1 = .ok () := by
  have parts : path.parts ≠ [] := by
    intro none
    have named := ready.named
    simp [Path.name, none] at named
  obtain ⟨place, leads, stands⟩ := ready.there.parent parts
  obtain ⟨written, moved, writes, moves⟩ :=
    Disk.exists_replaced ready.beside ready.there (octetsOf ledger.store)
  rw [save_on located]
  simp [makeParents, Disk.makeDirectories_of_directory leads stands, ready.named, writable, onDisk, writes,
    moves]

/-- A commit without a failure takes the store and writes its document. -/
lemma commit_saved {store : Store} {ledger : Ledger} (saved : Saved (Action.on (commit store) ledger).1) :
    ∃ disk, Action.on (commit store) ledger = (.ok (), { ledger with store, disk }) ∧
      Written { ledger with store, disk } := by
  obtain ⟨reply, disk, tried, does⟩ := onlyDisk_save { ledger with store }
  -- The store is taken before it is saved, whether saving succeeds or not.
  have commits : Action.on (commit store) ledger = Action.on save { ledger with store } := by
    simp only [commit, Action.on_bind, setStore_on]
  rw [commits, does] at saved
  rw [tried.eq_ok saved] at does
  exact ⟨disk, commits.trans does, written_of_save does⟩

/-- Where its file can be written, a store whose document can be written is taken. -/
lemma commit_of_ready {ledger : Ledger} {store : Store} {path : Path} (located : store.path = some path)
    (ready : Ready ledger.disk path) (writable : store.document.isWritable = true) :
    (Action.on (commit store) ledger).1 = .ok () := by
  simp only [commit, Action.on_bind, setStore_on]
  have saved : (Action.on save { ledger with store }).1 = .ok () := save_of_ready located ready writable
  exact saved

/-- True of the operations that write the document of the store whenever they change it. -/
def Files {α : Type} (action : Action α) : Prop :=
  ∀ ledger, Saved (Action.on action ledger).1 →
    ((Action.on action ledger).2.store = ledger.store ∧ (Action.on action ledger).2.disk = ledger.disk) ∨
      (Action.on action ledger).2.Written

section Parts

variable {α β : Type}

lemma Files.pure (value : α) : Files (pure value : Action α) := fun _ _ => .inl ⟨rfl, rfl⟩

lemma Files.throw (error : StoreError) : Files (throw error : Action α) := fun _ _ => .inl ⟨rfl, rfl⟩

lemma Files.get : Files (get : Action Ledger) := fun _ _ => .inl ⟨rfl, rfl⟩

lemma files_drawId : Files drawId := fun _ _ => .inl ⟨rfl, rfl⟩

lemma Files.bind {action : Action α} {next : α → Action β} (first : Files action)
    (second : ∀ value, Files (next value)) : Files (action >>= next) := by
  intro ledger saved
  rw [Action.on_bind] at saved ⊢
  have before := first ledger
  rcases done : Action.on action ledger with ⟨error | value, between⟩
  · rw [done] at before saved
    exact before fun e same => saved e (by cases same; rfl)
  · rw [done] at before saved
    obtain ⟨store, disk⟩ | written := second value between saved
    · obtain ⟨store', disk'⟩ | written := before fun e same => nomatch same
      · exact .inl ⟨store.trans store', disk.trans disk'⟩
      · refine .inr fun path located => ?_
        rw [store] at located ⊢
        rw [disk]
        exact written path located
    · exact .inr written

lemma files_commit (store : Store) : Files (commit store) := by
  intro ledger saved
  obtain ⟨disk, commits, written⟩ := commit_saved saved
  exact .inr (by rw [commits]; exact written)

end Parts

lemma files_createAudit (owner name address : String) : Files (createAudit owner name address) :=
  .bind files_drawId fun _ => .bind .get fun _ => .bind (files_commit _) fun _ => .pure _

lemma files_updateAudit (id : String) (changes : List (AuditField × Json)) :
    Files (updateAudit id changes) := by
  refine .bind .get fun ledger => ?_
  dsimp only
  split
  · exact .pure _
  · exact .bind (files_commit _) fun _ => .pure _

lemma files_deleteAudit (id : String) : Files (deleteAudit id) := by
  refine .bind .get fun ledger => ?_
  dsimp only
  split
  · exact .pure _
  split
  · exact .throw _
  · exact .bind (files_commit _) fun _ => .pure _

lemma files_createFinding (auditId : String) (draft : FindingRecord) :
    Files (createFinding auditId draft) := by
  refine .bind files_drawId fun _ => .bind .get fun ledger => ?_
  dsimp only
  split
  · exact .throw _
  · exact .bind (files_commit _) fun _ => .pure _

lemma files_updateFinding (id : String) (changes : List (FindingField × Json)) :
    Files (updateFinding id changes) := by
  refine .bind .get fun ledger => ?_
  dsimp only
  split
  · exact .pure _
  · exact .bind (files_commit _) fun _ => .pure _

lemma files_deleteFinding (id : String) : Files (deleteFinding id) := by
  refine .bind .get fun ledger => ?_
  dsimp only
  split
  · exact .pure _
  · exact .bind (files_commit _) fun _ => .pure _

lemma files_updateAuditByName (id : String) (changes : List (String × Json)) :
    Files (updateAuditByName id changes) := by
  intro ledger
  obtain ⟨error, does⟩ | does := updateAuditByName_on id changes ledger
  · rw [does]
    exact fun _ => .inl ⟨rfl, rfl⟩
  · rw [does]
    exact files_updateAudit id _ ledger

lemma files_updateFindingByName (id : String) (changes : List (String × Json)) :
    Files (updateFindingByName id changes) := by
  intro ledger
  obtain ⟨error, does⟩ | does := updateFindingByName_on id changes ledger
  · rw [does]
    exact fun _ => .inl ⟨rfl, rfl⟩
  · rw [does]
    exact files_updateFinding id _ ledger

/-- The file of the store, if it has one, is read as a store that recalls it. -/
def Mirrored (ledger : Ledger) : Prop :=
  ∀ path, ledger.store.path = some path →
    ∃ kept, readStore ledger.disk path = .ok kept ∧ kept.Recalls ledger.store

/-- The octets of a store's file are read as the store of the document that their text is. -/
lemma readStore_of_octetsOf {disk : Disk} {path : Path} {store : Store} {document : Json}
    (holds : disk.read path = .ok (octetsOf store)) (reads : Json.read store.document.write = .ok document) :
    readStore disk path = .ok (Store.ofDocument (some path) document) := by
  rw [readStore, holds]
  simp only [octetsOf, Utf8.encodeText_eq, Utf8.decode_encode, String.ofList_toList, reads]

/-- A document that was written is read as a store that recalls the one that there was. -/
lemma Written.mirrored {ledger : Ledger} (written : ledger.Written) (plain : ledger.store.Plain)
    (keyed : ledger.store.Keyed) : ledger.Mirrored := by
  intro path located
  obtain ⟨holds, writable, -⟩ := written path located
  exact ⟨_, readStore_of_octetsOf holds (Json.read_write plain.document writable),
    located ▸ Store.ofDocument_settled plain keyed⟩

/-! ## Opening a store again -/

/-- A record whose scan was ended, if it was running. -/
def closed (now : Instant) (audit : AuditRecord) : AuditRecord :=
  if audit.isRunning then audit.change (closingChanges now) else audit

section Close

variable (now : Instant) (store : Store)

@[simp] lemma id_closed (audit : AuditRecord) : (closed now audit).id = audit.id := by
  unfold closed
  split
  · exact AuditRecord.change_id _ _
  · rfl

lemma closed_of_idle {audit : AuditRecord} (idle : audit.isRunning = false) : closed now audit = audit :=
  if_neg (by simp [idle])

lemma isRunning_closed (audit : AuditRecord) : (closed now audit).isRunning = false := by
  unfold closed
  split
  · rfl
  · next idle => simpa using idle

@[simp] lemma findings_closeRunning : (closeRunning now store).findings = store.findings := rfl

@[simp] lemma path_closeRunning : (closeRunning now store).path = store.path := rfl

lemma audits_closeRunning : (closeRunning now store).audits = store.audits.map (closed now) := rfl

/-- An audit of a store whose running scans were ended is one that was there, ended if it was running. -/
lemma mem_audits_closeRunning {audit : AuditRecord} (stored : audit ∈ (closeRunning now store).audits) :
    ∃ old ∈ store.audits, audit = closed now old := by
  obtain ⟨old, present, same⟩ := List.mem_map.mp stored
  exact ⟨old, present, same.symm⟩

/-- No scan is running after the running ones were ended. -/
lemma isRunning_closeRunning {audit : AuditRecord} (stored : audit ∈ (closeRunning now store).audits) :
    audit.isRunning = false := by
  obtain ⟨old, -, rfl⟩ := mem_audits_closeRunning now store stored
  exact isRunning_closed now old

/-- A store without running scans stays as it is. -/
lemma closeRunning_of_idle (idle : store.audits.any (·.isRunning) = false) :
    closeRunning now store = store := by
  have same : store.audits.map (closed now) = store.audits := by
    rw [List.any_eq_false] at idle
    refine (List.map_congr_left fun audit stored => ?_).trans (List.map_id _)
    exact closed_of_idle now (by simpa using idle audit stored)
  exact congrArg (fun audits => { store with audits }) same

lemma plain_closeRunning (plain : store.Plain) : (closeRunning now store).Plain := by
  refine ⟨fun audit stored => ?_, plain.findings⟩
  obtain ⟨old, present, rfl⟩ := mem_audits_closeRunning now store stored
  unfold closed
  split
  · exact AuditRecord.isPlain_change (plain.audits old present) (by simp [closingChanges])
  · exact plain.audits old present

end Close

lemma recalls_self {store : Store} (plain : store.Plain) : store.Recalls store :=
  ⟨rfl, .refl _, fun audit stored => ⟨audit, stored, rfl⟩, plain⟩

/-- Opening the store of a file that can be read takes what was read, or commits it with its running scans
ended. -/
lemma openStore_reads {ledger : Ledger} {path : Path} {kept : Store}
    (reads : readStore ledger.disk path = .ok kept) : Action.on (openStore (some path)) ledger =
      if kept.audits.any (·.isRunning) then Action.on (commit (closeRunning ledger.now kept)) ledger
      else (.ok (), { ledger with store := kept }) := by
  simp only [openStore, Action.on_bind, Action.on_get, reads]
  split <;> rfl

/-- Opening the store of a file that can be read takes what was read, with its running scans ended. The file
is as it was, or it was written again. -/
lemma openStore_on {ledger : Ledger} {path : Path} {kept : Store}
    (reads : readStore ledger.disk path = .ok kept)
    (saved : Saved (Action.on (openStore (some path)) ledger).1) :
    ∃ disk, Action.on (openStore (some path)) ledger =
        (.ok (), { ledger with store := closeRunning ledger.now kept, disk }) ∧
      ((disk = ledger.disk ∧ closeRunning ledger.now kept = kept) ∨
        Written { ledger with store := closeRunning ledger.now kept, disk }) := by
  rw [openStore_reads reads] at saved ⊢
  split at saved
  · next running =>
    rw [if_pos running]
    obtain ⟨disk, commits, written⟩ := commit_saved saved
    exact ⟨disk, commits, .inr written⟩
  · next idle =>
    rw [if_neg idle]
    have same := closeRunning_of_idle ledger.now kept (by simpa using idle)
    exact ⟨ledger.disk, by rw [same], .inl ⟨rfl, same⟩⟩

end RepoAudit.Ledger
