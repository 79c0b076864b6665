import Mathlib.Tactic.Common
import RepoAudit.Store.Ledger

/-!
# Effects of store operations

Every operation on a store changes its records in memory and then writes its file. Here each operation gets
one lemma that lists all it can do: which records it leaves, what it answers, and that the clock and the
source of ids stay. A write that fails changes nothing but the answer and the disk, so the lemmas leave it
open whether the write succeeds (`Ledger.Tried`); `Saved` tells that it did.
-/

namespace RepoAudit

/-- True of the failures that writing the store's file can have. -/
def StoreError.isWriteFailure : StoreError → Bool
  | .disk _ => true
  | .noName _ => true
  | .unwritable => true
  | _ => false

/-- An answer of the store that is not the failure of a write. -/
def Saved {α : Type} (reply : Except StoreError α) : Prop :=
  ∀ error, reply = .error error → error.isWriteFailure = false

instance {α : Type} (reply : Except StoreError α) : Decidable (Saved reply) :=
  match reply with
  | .ok _ => .isTrue fun _ same => nomatch same
  | .error error =>
    decidable_of_iff (error.isWriteFailure = false) ⟨fun other _ same => Except.error.inj same ▸ other,
      fun saved => saved error rfl⟩

namespace Ledger

/-- An answer that is the given value, unless the write failed. -/
def Tried {α : Type} (reply : Except StoreError α) (value : α) : Prop :=
  reply = .ok value ∨ ∃ error, error.isWriteFailure = true ∧ reply = .error error

/-- An answer without a failed write is the value. -/
lemma Tried.eq_ok {α : Type} {reply : Except StoreError α} {value : α}
    (tried : Tried reply value) (saved : Saved reply) : reply = .ok value := by
  obtain ok | ⟨error, failed, rfl⟩ := tried
  · exact ok
  · exact absurd (saved error rfl) (by simp [failed])

/-- What an operation answers and leaves. -/
def Action.on {α : Type} (action : Action α) (ledger : Ledger) : Except StoreError α × Ledger :=
  action.run.run ledger

section On

variable {α β : Type} (ledger : Ledger)

/-- One operation after another. -/
@[simp] lemma Action.on_bind (action : Action α) (next : α → Action β) :
    Action.on (action >>= next) ledger =
      match Action.on action ledger with
      | (.ok value, after) => Action.on (next value) after
      | (.error error, after) => (.error error, after) := by
  simp only [Action.on, ExceptT.run_bind, StateT.run_bind]
  rcases action.run.run ledger with ⟨_ | _, after⟩ <;> rfl

@[simp] lemma Action.on_pure (value : α) :
    Action.on (pure value) ledger = (.ok value, ledger) := rfl

@[simp] lemma Action.on_throw (error : StoreError) :
    Action.on (throw error : Action α) ledger = (.error error, ledger) := rfl

@[simp] lemma Action.on_get : Action.on get ledger = (.ok ledger, ledger) := rfl

@[simp] lemma setStore_on (store : Store) :
    Action.on (setStore store) ledger = (.ok (), { ledger with store }) := rfl

@[simp] lemma setDisk_on (disk : Disk) :
    Action.on (setDisk disk) ledger = (.ok (), { ledger with disk }) := rfl

@[simp] lemma drawId_on :
    Action.on drawId ledger =
      (.ok (ledger.ids (ledger.drawn + 1)), { ledger with drawn := ledger.drawn + 1 }) := rfl

end On

/-- True of an operation that changes nothing but the disk and fails only where a write fails. -/
def OnlyDisk (action : Action Unit) : Prop :=
  ∀ ledger : Ledger, ∃ reply disk, Tried reply () ∧
    Action.on action ledger = (reply, { ledger with disk })

/-- Failing to write leaves all but the disk. -/
lemma OnlyDisk.throw {error : StoreError} (failed : error.isWriteFailure = true) :
    OnlyDisk (throw error) :=
  fun ledger => ⟨.error error, ledger.disk, .inr ⟨error, failed, rfl⟩, rfl⟩

/-- Two operations that leave all but the disk, one after the other. -/
lemma OnlyDisk.seq {first second : Action Unit} (ofFirst : OnlyDisk first)
    (ofSecond : OnlyDisk second) : OnlyDisk (do first; second) := by
  intro ledger
  obtain ⟨reply, disk, tried, does⟩ := ofFirst ledger
  obtain rfl | ⟨error, failed, rfl⟩ := tried
  · obtain ⟨reply, later, tried, continues⟩ := ofSecond { ledger with disk }
    exact ⟨reply, later, tried, by simpa [does] using continues⟩
  · exact ⟨.error error, disk, .inr ⟨error, failed, rfl⟩, by simp [does]⟩

/-- An operation on the disk leaves the rest. -/
lemma onlyDisk_onDisk (operation : Disk → Except DiskError Disk) : OnlyDisk (onDisk operation) := by
  intro ledger
  cases done : operation ledger.disk with
  | ok disk => exact ⟨.ok (), disk, .inl rfl, by simp [onDisk, done]⟩
  | error error =>
    refine ⟨.error (.disk error), ledger.disk, .inr ⟨.disk error, rfl, rfl⟩, ?_⟩
    simp [onDisk, done]

/-- Making directories leaves the rest. -/
lemma onlyDisk_makeParents (path : Path) : OnlyDisk (makeParents path) := by
  intro ledger
  rcases made : ledger.disk.makeDirectories path.parent with ⟨disk, _ | error⟩
  · exact ⟨.ok (), disk, .inl rfl, by simp [makeParents, made]⟩
  · exact ⟨.error (.disk error), disk, .inr ⟨.disk error, rfl, rfl⟩, by simp [makeParents, made]⟩

/-- Writing the file of a store with a path. -/
lemma save_on {ledger : Ledger} {path : Path} (located : ledger.store.path = some path) :
    Action.on save ledger = Action.on (do
      makeParents path
      if path.name.isEmpty then throw (.noName path)
      else if !ledger.store.document.isWritable then throw .unwritable
      else
        onDisk (·.write (besidePath path) (octetsOf ledger.store))
        onDisk (·.replace (besidePath path) path)) ledger := by
  simp only [save, Action.on_bind, Action.on_get, located]
  split_ifs <;> rfl

/-- Writing the file leaves all but the disk. -/
lemma onlyDisk_save : OnlyDisk save := by
  intro ledger
  cases located : ledger.store.path with
  | none => exact ⟨.ok (), ledger.disk, .inl rfl, by simp [save, located]⟩
  | some path =>
    rw [save_on located]
    refine OnlyDisk.seq (onlyDisk_makeParents path) ?_ ledger
    split
    · exact .throw (show (StoreError.noName path).isWriteFailure = true from rfl)
    split
    · exact .throw (show StoreError.unwritable.isWriteFailure = true from rfl)
    · exact .seq (onlyDisk_onDisk _) (onlyDisk_onDisk _)

/-- A commit takes the store, whether its file is written or not. -/
lemma commit_on (store : Store) (ledger : Ledger) :
    ∃ reply disk, Tried reply () ∧
      Action.on (commit store) ledger = (reply, { ledger with store, disk }) := by
  obtain ⟨reply, disk, tried, saves⟩ := onlyDisk_save { ledger with store }
  exact ⟨reply, disk, tried, by simp [commit, saves]⟩

/-- An operation that commits a store and then answers. -/
lemma commit_answer_on {α : Type} (store : Store) (value : α) (ledger : Ledger) :
    ∃ reply disk, Tried reply value ∧
      Action.on (do commit store; return value) ledger = (reply, { ledger with store, disk }) := by
  obtain ⟨reply, disk, tried, commits⟩ := commit_on store ledger
  obtain rfl | ⟨error, failed, rfl⟩ := tried
  · exact ⟨.ok value, disk, .inl rfl, by simp only [Action.on_bind, commits, Action.on_pure]⟩
  · exact ⟨.error error, disk, .inr ⟨error, failed, rfl⟩, by simp only [Action.on_bind, commits]⟩

/-- A new audit stands under the id that was drawn for it. -/
lemma createAudit_on (owner name address : String) (ledger : Ledger) :
    ∃ reply disk,
      Tried reply (newAudit (ledger.ids (ledger.drawn + 1)) owner name address ledger.now) ∧
      Action.on (createAudit owner name address) ledger =
        (reply, { ledger with
          store := ledger.store.putAudit
            (newAudit (ledger.ids (ledger.drawn + 1)) owner name address ledger.now)
          disk
          drawn := ledger.drawn + 1 }) := by
  obtain ⟨reply, disk, tried, commits⟩ := commit_answer_on
    (ledger.store.putAudit (newAudit (ledger.ids (ledger.drawn + 1)) owner name address ledger.now))
    (newAudit (ledger.ids (ledger.drawn + 1)) owner name address ledger.now)
    { ledger with drawn := ledger.drawn + 1 }
  refine ⟨reply, disk, tried, ?_⟩
  simpa only [createAudit, Action.on_bind, drawId_on, Action.on_get] using commits

/-- A change of an audit: it is missing, or the changed record takes its place. -/
lemma updateAudit_on (id : String) (changes : List (AuditField × Json)) (ledger : Ledger) :
    (ledger.store.audit? id = none ∧
      Action.on (updateAudit id changes) ledger = (.ok none, ledger)) ∨
    ∃ audit reply disk, ledger.store.audit? id = some audit ∧
      Tried reply (some (audit.change changes)) ∧
      Action.on (updateAudit id changes) ledger =
        (reply, { ledger with store := ledger.store.putAudit (audit.change changes), disk }) := by
  cases found : ledger.store.audit? id with
  | none => exact .inl ⟨rfl, by simp [updateAudit, found]⟩
  | some audit =>
    obtain ⟨reply, disk, tried, commits⟩ := commit_answer_on
      (ledger.store.putAudit (audit.change changes)) (some (audit.change changes)) ledger
    refine .inr ⟨audit, reply, disk, rfl, tried, ?_⟩
    simpa only [updateAudit, Action.on_bind, Action.on_get, found] using commits

/-- A deletion of an audit: it is missing, its scan is running, or it goes with its findings. -/
lemma deleteAudit_on (id : String) (ledger : Ledger) :
    (ledger.store.audit? id = none ∧ Action.on (deleteAudit id) ledger = (.ok false, ledger)) ∨
    (∃ audit, ledger.store.audit? id = some audit ∧ audit.isRunning = true ∧
      Action.on (deleteAudit id) ledger = (.error (.scanInProgress id), ledger)) ∨
    ∃ audit reply disk, ledger.store.audit? id = some audit ∧ audit.isRunning = false ∧
      Tried reply true ∧
      Action.on (deleteAudit id) ledger =
        (reply, { ledger with store := ledger.store.dropAudit id, disk }) := by
  cases found : ledger.store.audit? id with
  | none => exact .inl ⟨rfl, by simp [deleteAudit, found]⟩
  | some audit =>
    cases running : audit.isRunning with
    | true => exact .inr (.inl ⟨audit, rfl, running, by simp [deleteAudit, found, running]⟩)
    | false =>
      obtain ⟨reply, disk, tried, commits⟩ :=
        commit_answer_on (ledger.store.dropAudit id) true ledger
      refine .inr (.inr ⟨audit, reply, disk, rfl, running, tried, ?_⟩)
      simpa only [deleteAudit, Action.on_bind, Action.on_get, found, running, Bool.false_eq_true,
        if_false] using commits

/-- A new finding: its audit is missing, or it stands under the id that was drawn for it. The id is
drawn in any case. -/
lemma createFinding_on (auditId : String) (draft : FindingRecord) (ledger : Ledger) :
    (ledger.store.audit? auditId = none ∧
      Action.on (createFinding auditId draft) ledger =
        (.error (.noAudit auditId), { ledger with drawn := ledger.drawn + 1 })) ∨
    ∃ audit reply disk, ledger.store.audit? auditId = some audit ∧
      Tried reply (filed draft (ledger.ids (ledger.drawn + 1)) auditId) ∧
      Action.on (createFinding auditId draft) ledger =
        (reply, { ledger with
          store := ledger.store.putFinding (filed draft (ledger.ids (ledger.drawn + 1)) auditId)
          disk
          drawn := ledger.drawn + 1 }) := by
  cases found : ledger.store.audit? auditId with
  | none => exact .inl ⟨rfl, by simp [createFinding, found]⟩
  | some audit =>
    obtain ⟨reply, disk, tried, commits⟩ := commit_answer_on
      (ledger.store.putFinding (filed draft (ledger.ids (ledger.drawn + 1)) auditId))
      (filed draft (ledger.ids (ledger.drawn + 1)) auditId)
      { ledger with drawn := ledger.drawn + 1 }
    refine .inr ⟨audit, reply, disk, rfl, tried, ?_⟩
    simpa only [createFinding, Action.on_bind, drawId_on, Action.on_get, found, Option.isNone_some,
      Bool.false_eq_true, if_false] using commits

/-- A change of a finding: it is missing, or the changed record takes its place. -/
lemma updateFinding_on (id : String) (changes : List (FindingField × Json)) (ledger : Ledger) :
    (ledger.store.finding? id = none ∧
      Action.on (updateFinding id changes) ledger = (.ok none, ledger)) ∨
    ∃ finding reply disk, ledger.store.finding? id = some finding ∧
      Tried reply (some (finding.change changes)) ∧
      Action.on (updateFinding id changes) ledger =
        (reply, { ledger with
          store := ledger.store.putFinding (finding.change changes), disk }) := by
  cases found : ledger.store.finding? id with
  | none => exact .inl ⟨rfl, by simp [updateFinding, found]⟩
  | some finding =>
    obtain ⟨reply, disk, tried, commits⟩ := commit_answer_on
      (ledger.store.putFinding (finding.change changes)) (some (finding.change changes)) ledger
    refine .inr ⟨finding, reply, disk, rfl, tried, ?_⟩
    simpa only [updateFinding, Action.on_bind, Action.on_get, found] using commits

/-- A change by names fails and leaves all, or it is a change of the fields that are named. -/
lemma updateAuditByName_on (id : String) (changes : List (String × Json)) (ledger : Ledger) :
    (∃ error, Action.on (updateAuditByName id changes) ledger = (.error error, ledger)) ∨
    Action.on (updateAuditByName id changes) ledger = Action.on (updateAudit id
      (changes.filterMap fun (name, value) => (AuditField.ofName? name).map (·, value))) ledger := by
  simp only [updateAuditByName]
  split
  · exact .inl ⟨_, rfl⟩
  split
  · exact .inl ⟨_, rfl⟩
  · exact .inr rfl

/-- A change of a finding by names fails and leaves all, or it is a change of the fields that are named. -/
lemma updateFindingByName_on (id : String) (changes : List (String × Json)) (ledger : Ledger) :
    (∃ error, Action.on (updateFindingByName id changes) ledger = (.error error, ledger)) ∨
    Action.on (updateFindingByName id changes) ledger = Action.on (updateFinding id
      (changes.filterMap fun (name, value) => (FindingField.ofName? name).map (·, value))) ledger := by
  simp only [updateFindingByName]
  split
  · exact .inl ⟨_, rfl⟩
  split
  · exact .inl ⟨_, rfl⟩
  split
  · exact .inl ⟨_, rfl⟩
  · exact .inr rfl

/-- A deletion of a finding: it is missing, or it goes. -/
lemma deleteFinding_on (id : String) (ledger : Ledger) :
    (ledger.store.finding? id = none ∧
      Action.on (deleteFinding id) ledger = (.ok false, ledger)) ∨
    ∃ finding reply disk, ledger.store.finding? id = some finding ∧ Tried reply true ∧
      Action.on (deleteFinding id) ledger =
        (reply, { ledger with store := ledger.store.dropFinding id, disk }) := by
  cases found : ledger.store.finding? id with
  | none => exact .inl ⟨rfl, by simp [deleteFinding, found]⟩
  | some finding =>
    obtain ⟨reply, disk, tried, commits⟩ :=
      commit_answer_on (ledger.store.dropFinding id) true ledger
    refine .inr ⟨finding, reply, disk, rfl, tried, ?_⟩
    simpa only [deleteFinding, Action.on_bind, Action.on_get, found, Option.isNone_some,
      Bool.false_eq_true, if_false] using commits

end Ledger

end RepoAudit
