import RepoAudit.Proofs.Disk.Making
import RepoAudit.Proofs.Store.File
import RepoAudit.Proofs.Store.Operation

/-!
# Files that are being written

While the file of a store is written, directories are made for it, and its octets come into a file beside it, one
after the other (`Ledger.Underway`). Nothing of this is read as the store's file: that is read as before until the
other one takes its place in one step. So an operation is refused, or its store is taken and its file is written, or
its store is taken and the file is left on the way (`Operation.outcome`).
-/

namespace RepoAudit

namespace Ledger

/-- What the disk can be while the file of the store is written, until it takes its place. -/
inductive Underway (ledger : Ledger) : Disk → Prop
  | begun : Underway ledger ledger.disk
  | parents {path : Path} {stage : Disk} : ledger.store.path = some path →
    stage ∈ ledger.disk.stages path.parent (path.parent.parts.length + 1) → Underway ledger stage
  | beside {path : Path} {made written : Disk} {octets : List UInt8} : ledger.store.path = some path →
    ledger.disk.makeDirectories path.parent = (made, none) → path.name.isEmpty = false →
    ledger.store.document.isWritable = true → octets <+: octetsOf ledger.store →
    made.write (besidePath path) octets = .ok written → Underway ledger written

/-- Making directories leaves a disk of those that writing goes through. -/
lemma underway_makeDirectories {ledger : Ledger} {path : Path} (located : ledger.store.path = some path) :
    Underway ledger (ledger.disk.makeDirectories path.parent).1 := by
  have last : (ledger.disk.makeDirectories path.parent).1 ∈ ledger.disk :: ledger.disk.stages path.parent
      (path.parent.parts.length + 1) :=
    Disk.ensureAll_fst path.parent _ ledger.disk ▸ List.getLastD_mem_cons
  obtain same | stage := List.mem_cons.mp last
  · rw [same]
    exact .begun
  · exact .parents located stage

lemma onDisk_on (operation : Disk → Except DiskError Disk) (ledger : Ledger) :
    Action.on (onDisk operation) ledger = match operation ledger.disk with
      | .ok disk => (.ok (), { ledger with disk })
      | .error error => (.error (.disk error), ledger) := by
  cases done : operation ledger.disk <;> simp [onDisk, done]

/-- Writing the file ends on the way, with a failure, or the file has the store's document. -/
lemma save_outcome (ledger : Ledger) :
    (∃ error disk, error.isWriteFailure = true ∧ Underway ledger disk ∧
      Action.on save ledger = (.error error, { ledger with disk })) ∨
    ∃ disk, Action.on save ledger = (.ok (), { ledger with disk }) ∧ Written { ledger with disk } := by
  have saved {disk : Disk} (done : Action.on save ledger = (.ok (), { ledger with disk })) :
      Action.on save ledger = (.ok (), { ledger with disk }) ∧ Written { ledger with disk } :=
    ⟨done, written_of_save done⟩
  cases located : ledger.store.path with
  | none => exact .inr ⟨ledger.disk, saved (by simp [save, located])⟩
  | some path =>
    have parents := underway_makeDirectories located
    have does := save_on located
    rcases made : ledger.disk.makeDirectories path.parent with ⟨disk, _ | error⟩
    · rw [made] at parents
      simp only [makeParents, Action.on_bind, Action.on_get, made, setDisk_on, Action.on_pure] at does
      split at does
      · exact .inl ⟨_, disk, rfl, parents, does⟩
      next named =>
      split at does
      · exact .inl ⟨_, disk, rfl, parents, does⟩
      next writable =>
      rw [Action.on_bind, onDisk_on] at does
      cases writes : disk.write (besidePath path) (octetsOf ledger.store) with
      | error error =>
        simp only [writes] at does
        exact .inl ⟨_, disk, rfl, parents, does⟩
      | ok written =>
        simp only [writes, onDisk_on] at does
        have beside : Underway ledger written :=
          .beside located made (by simpa using named) (by simpa using writable) List.prefix_rfl writes
        cases moves : written.replace (besidePath path) path with
        | error error =>
          simp only [moves] at does
          exact .inl ⟨_, written, rfl, beside, does⟩
        | ok moved =>
          simp only [moves] at does
          exact .inr ⟨moved, saved does⟩
    · rw [made] at parents
      simp only [makeParents, Action.on_bind, Action.on_get, made, setDisk_on, Action.on_throw] at does
      exact .inl ⟨_, disk, rfl, parents, does⟩

section Beside

variable {made written : Disk} {path : Path} {octets : List UInt8}

lemma named_parts (named : path.name.isEmpty = false) : path.parts ≠ [] := by
  rintro none
  simp [Path.name, none] at named

/-- What is written beside the file of a store is not read as that file. -/
lemma beside_on (named : path.name.isEmpty = false) (writes : made.write (besidePath path) octets = .ok written) :
    written.locate path = made.locate path ∧
    (∀ goal, made.locate path = .ok goal → written.find? goal = made.find? goal) ∧ written.Steady path := by
  have length (other : String) (same : path.name ++ ".tmp" = other) : path.name.length + 4 = other.length := by
    rw [← same, String.length_append]
    rfl
  refine Disk.written_beside (named_parts named) (fun up => ?_) (fun same => ?_) writes
  · have short : path.name.length + 4 = 2 := length ".." up
    omega
  · have short := length path.name same
    omega

lemma read_beside (named : path.name.isEmpty = false)
    (writes : made.write (besidePath path) octets = .ok written) (other : List UInt8) :
    written.read path = .ok other ↔ made.read path = .ok other := by
  obtain ⟨same, found, -⟩ := beside_on named writes
  rw [Disk.read_eq_ok_iff, Disk.read_eq_ok_iff, same]
  constructor
  · rintro ⟨goal, leads, stands⟩
    exact ⟨goal, leads, found goal leads ▸ stands⟩
  · rintro ⟨goal, leads, stands⟩
    exact ⟨goal, leads, (found goal leads).symm ▸ stands⟩

end Beside

section Underway

variable {ledger : Ledger} {disk : Disk} {path : Path}

/-- The file of a store is read as before while it is written. -/
lemma Underway.read {octets : List UInt8} (underway : Underway ledger disk)
    (located : ledger.store.path = some path) (reads : ledger.disk.read path = .ok octets) :
    disk.read path = .ok octets := by
  cases underway with
  | begun => exact reads
  | parents located' stage =>
    obtain rfl := Option.some.inj (located.symm.trans located')
    exact (Disk.grows_of_mem_stages stage).read reads
  | beside located' made named _ _ writes =>
    obtain rfl := Option.some.inj (located.symm.trans located')
    have grows := Disk.grows_of_makeDirectories made
    exact (read_beside named writes octets).mpr (grows.read reads)

/-- Where no file comes to light as directories are made, none does while the file is written. -/
lemma Underway.steady (underway : Underway ledger disk) (located : ledger.store.path = some path)
    (steady : ledger.disk.Steady path) :
    disk.Steady path ∧ ∀ octets, disk.read path = .ok octets → ledger.disk.read path = .ok octets := by
  cases underway with
  | begun => exact ⟨steady, fun _ reads => reads⟩
  | parents located' stage =>
    obtain rfl := Option.some.inj (located.symm.trans located')
    have grows := Disk.grows_of_mem_stages stage
    exact ⟨steady.grows grows, fun octets => steady _ octets grows⟩
  | beside located' made named _ _ writes =>
    obtain rfl := Option.some.inj (located.symm.trans located')
    have grows := Disk.grows_of_makeDirectories made
    exact ⟨(beside_on named writes).2.2, fun octets reads =>
      steady _ octets grows ((read_beside named writes octets).mp reads)⟩

end Underway

end Ledger

/-- An operation is refused, or it takes its target, whose writing fails on the way or is done. -/
lemma Operation.outcome (op : Operation) (ledger : Ledger) :
    (op.target ledger = none ∧ ∃ reply, Saved reply ∧
      Ledger.Action.on op.action ledger = (reply, { ledger with drawn := ledger.drawn + op.draws })) ∨
    (∃ store disk error, op.target ledger = some store ∧ error.isWriteFailure = true ∧
      Ledger.Underway { ledger with store, drawn := ledger.drawn + op.draws } disk ∧
      Ledger.Action.on op.action ledger =
        (.error error, { ledger with store, disk, drawn := ledger.drawn + op.draws })) ∨
    ∃ store disk answer, op.target ledger = some store ∧
      Ledger.Written { ledger with store, disk, drawn := ledger.drawn + op.draws } ∧
      Ledger.Action.on op.action ledger =
        (.ok answer, { ledger with store, disk, drawn := ledger.drawn + op.draws }) := by
  cases is : op.target ledger with
  | none => exact .inl ⟨rfl, on_of_refused is⟩
  | some store =>
    obtain ⟨answer, takes⟩ := on_of_target is
    simp only [Ledger.commit, Ledger.Action.on_bind, Ledger.setStore_on] at takes
    obtain ⟨error, disk, failed, underway, saves⟩ | ⟨disk, saves, written⟩ :=
      Ledger.save_outcome { ledger with store, drawn := ledger.drawn + op.draws }
    · simp only [saves] at takes
      exact .inr (.inl ⟨store, disk, error, rfl, failed, underway, takes⟩)
    · simp only [saves, Ledger.Action.on_pure] at takes
      exact .inr (.inr ⟨store, disk, answer, rfl, written, takes⟩)

/-- All that an operation leaves but the disk, whether its store is written or not. -/
lemma Operation.leaves (op : Operation) (ledger : Ledger) : ∃ disk,
    (Ledger.Action.on op.action ledger).2 =
      { ledger with store := (op.target ledger).getD ledger.store, disk, drawn := ledger.drawn + op.draws } := by
  obtain ⟨is, reply, -, does⟩ | ⟨store, disk, error, is, -, -, does⟩ | ⟨store, disk, answer, is, -, does⟩ :=
    op.outcome ledger
  · exact ⟨ledger.disk, by rw [does, is]; rfl⟩
  · exact ⟨disk, by rw [does, is]; rfl⟩
  · exact ⟨disk, by rw [does, is]; rfl⟩

end RepoAudit
