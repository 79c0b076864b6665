import RepoAudit.Proofs.Store.Crash

/-!
# Crashes and what is found after them

A store is used, its program crashes in an operation, and the store is opened again, which may crash in turn
(`Ledger.InUse`). What is found then is what was last written before the operation, or what the operation leads to
(`Ledger.crashes_leave_one_version`). There is one way around this: under a path that leads up again from a directory
that is missing, another file comes to light when the directory is made (`Ledger.crash_brings_other_records`).
-/

namespace RepoAudit

namespace Ledger

/-- What is left of the disk by a crash while the file of the store is written: before the file has taken its place,
or after that. -/
inductive Cut (ledger : Ledger) : Disk → Prop
  | before {disk : Disk} : Underway ledger disk → Cut ledger disk
  | after {after : Ledger} : Action.on save ledger = (.ok (), after) → Cut ledger after.disk

end Ledger

/-- What is left of the disk by a crash in an operation. -/
inductive Operation.Cut (op : Operation) (ledger : Ledger) : Disk → Prop
  | outside : Cut op ledger ledger.disk
  | writing {store : Store} {disk : Disk} : op.target ledger = some store →
    Ledger.Cut { ledger with store, drawn := ledger.drawn + op.draws } disk → Cut op ledger disk

/-- What was last written of a store after an operation, before which it was another store. -/
def Operation.written {α : Type} (op : Operation) (ledger : Ledger) (last : Store) (reply : Except StoreError α) :
    Store :=
  match reply, op.target ledger with
  | .ok _, some store => store
  | _, _ => last

namespace Ledger

/-- What is left of the disk by a crash while the store of a path is opened. -/
inductive CutOpening (path : Path) (fresh : Ledger) : Disk → Prop
  | outside : CutOpening path fresh fresh.disk
  | writing {kept : Store} {disk : Disk} : readStore fresh.disk path = .ok kept →
    kept.audits.any (·.isRunning) = true → Cut { fresh with store := closeRunning fresh.now kept } disk →
    CutOpening path fresh disk

/-- Openings of the store of a path that crash, one after the other. -/
inductive Crashes (path : Path) : Disk → Disk → Prop
  | none {disk : Disk} : Crashes path disk disk
  | more {disk later : Disk} {fresh : Ledger} : Crashes path disk fresh.disk → CutOpening path fresh later →
    Crashes path disk later

/-- A store in use, with what was last written of it. It is opened over a file that holds what a store may hold, or
that holds nothing; time passes; operations are done, and fail; and in any of them the program may crash, whereupon
the store is opened again. -/
inductive InUse (path : Path) : Ledger → Store → Prop
  | opened {fresh ledger : Ledger} {kept : Store} : readStore fresh.disk path = .ok kept → kept.Intact →
    fresh.disk.Steady path → Action.on (openStore (some path)) fresh = (.ok (), ledger) →
    InUse path ledger ledger.store
  | passed {ledger : Ledger} {last : Store} (now : Instant) (ids : Nat → String) (drawn : Nat) :
    InUse path ledger last → InUse path { ledger with now, ids, drawn } last
  | did {ledger after : Ledger} {last : Store} {op : Operation} {reply : Except StoreError op.Answer} :
    InUse path ledger last → op.Typed → Action.on op.action ledger = (reply, after) →
    InUse path after (op.written ledger last reply)
  | recovered {ledger fresh again : Ledger} {last : Store} {op : Operation} {disk : Disk} : InUse path ledger last →
    op.Typed → op.Cut ledger disk → Crashes path disk fresh.disk →
    Action.on (openStore (some path)) fresh = (.ok (), again) → InUse path again again.store

lemma Cut.holds {path : Path} {ledger : Ledger} {disk : Disk} {last : Store} (cut : Cut ledger disk)
    (holds : Holds ledger.disk path last) (located : ledger.store.path = some path)
    (intact : ledger.store.Intact) : Holds disk path last ∨ Holds disk path ledger.store := by
  cases cut with
  | before underway => exact .inl (underway.holds located holds)
  | after saves =>
    obtain ⟨reply, disk, -, does⟩ := onlyDisk_save ledger
    obtain ⟨-, rfl⟩ := Prod.mk.inj (does.symm.trans saves)
    exact .inr ((written_of_save saves).holds located intact)

end Ledger

/-- A store that was opened, and whose file holds what was last written. -/
structure Ledger.Safe (path : Path) (ledger : Ledger) (last : Store) : Prop where
  located : ledger.store.path = some path
  intact : ledger.store.Intact
  holds : Holds ledger.disk path last

namespace Operation

open Ledger (Action Safe Holds)

variable {path : Path} {ledger after : Ledger} {disk : Disk} {last store : Store} {op : Operation}

lemma written_of_refused {α : Type} (refused : op.target ledger = none) (reply : Except StoreError α) :
    op.written ledger last reply = last := by
  unfold written
  rw [refused]
  cases reply <;> rfl

lemma written_of_target {α : Type} (is : op.target ledger = some store) (answer : α) :
    op.written ledger last (.ok answer) = store := by
  unfold written
  rw [is]

/-- A crash in an operation leaves what was last written, or what the operation leads to. -/
lemma Cut.holds (cut : op.Cut ledger disk) (safe : Safe path ledger last) (typed : op.Typed) :
    ∃ store, (store = last ∨ op.target ledger = some store) ∧ Holds disk path store := by
  cases cut with
  | outside => exact ⟨last, .inl rfl, safe.holds⟩
  | @writing store _ is cut =>
    have located := (path_target is).trans safe.located
    obtain holds | holds := cut.holds safe.holds located ((changed typed is).intact safe.intact)
    · exact ⟨last, .inl rfl, holds⟩
    · exact ⟨store, .inr is, holds⟩

/-- An operation leaves the file with what was last written, which is what it led to, if it was written. -/
lemma safe_after {reply : Except StoreError op.Answer} (safe : Safe path ledger last) (typed : op.Typed)
    (does : Action.on op.action ledger = (reply, after)) : Safe path after (op.written ledger last reply) := by
  obtain ⟨is, reply, -, does'⟩ | ⟨store, disk, error, is, -, underway, does'⟩ |
    ⟨store, disk, answer, is, written, does'⟩ := op.outcome ledger
  all_goals obtain ⟨rfl, rfl⟩ := Prod.mk.inj (does'.symm.trans does)
  · rw [written_of_refused is]
    exact ⟨safe.located, safe.intact, safe.holds⟩
  · have located := (path_target is).trans safe.located
    exact ⟨located, (changed typed is).intact safe.intact, underway.holds located safe.holds⟩
  · have located := (path_target is).trans safe.located
    have intact := (changed typed is).intact safe.intact
    rw [written_of_target is]
    exact ⟨located, intact, written.holds located intact⟩

/-- What was last written is what the store has, if it was so before and no write has failed. -/
lemma written_of_saved {reply : Except StoreError op.Answer} (saved : Saved reply)
    (does : Action.on op.action ledger = (reply, after)) : op.written ledger ledger.store reply = after.store := by
  obtain ⟨is, reply, -, does'⟩ | ⟨store, disk, error, is, failed, -, does'⟩ | ⟨store, disk, answer, is, -, does'⟩ :=
    op.outcome ledger
  all_goals obtain ⟨rfl, rfl⟩ := Prod.mk.inj (does'.symm.trans does)
  · exact written_of_refused is reply
  · rw [saved error rfl] at failed
    cases failed
  · exact written_of_target is answer

end Operation

namespace Ledger

section Recovery

variable {path : Path} {ledger fresh after : Ledger} {disk later : Disk} {last store held : Store} {op : Operation}

/-- An opening that crashes leaves what the file held, or that with its running scans ended. -/
lemma CutOpening.holds (cut : CutOpening path fresh disk) (holds : Holds fresh.disk path held)
    (resumes : held.Resumes store) : ∃ held, Holds disk path held ∧ held.Resumes store := by
  cases cut with
  | outside => exact ⟨held, holds, resumes⟩
  | @writing kept _ reads _ cut =>
    obtain ⟨kept', reads', restores, -⟩ := holds.reads
    obtain rfl := Except.ok.inj (reads.symm.trans reads')
    have whole := holds.intact
    have located : (closeRunning fresh.now kept).path = some path :=
      (path_closeRunning fresh.now kept).trans (path_of_readStore reads)
    obtain holds | holds := cut.holds holds located (intact_closeRunning (restores.intact whole))
    · exact ⟨held, holds, resumes⟩
    · exact ⟨_, holds, (resumes.restored restores whole).closed fresh.now⟩

lemma Crashes.holds (crashes : Crashes path disk later) (holds : Holds disk path store) :
    ∃ held, Holds later path held ∧ held.Resumes store := by
  induction crashes with
  | none => exact ⟨store, holds, .refl store⟩
  | more _ cut ih =>
    obtain ⟨held, holds, resumes⟩ := ih
    exact cut.holds holds resumes

/-- A store whose file holds records is opened, and has these records. -/
lemma Holds.recovers (holds : Holds fresh.disk path held) (resumes : held.Resumes store) :
    ∃ again, Action.on (openStore (some path)) fresh = (.ok (), again) ∧
      (∀ audit ∈ again.store.audits, audit.isRunning = false) ∧ again.store.Resumes store ∧
      Safe path again again.store := by
  obtain ⟨kept, again, -, restores, opens, is, holds'⟩ := holds.opens
  refine ⟨again, opens, fun audit stored => ?_, ?_, holds'.located, holds'.intact, holds'⟩
  · rw [is] at stored
    exact isRunning_closeRunning fresh.now kept stored
  · rw [is]
    exact (resumes.restored restores holds.intact).closed fresh.now

/-- What is found after a crash in an operation and any number of crashes of openings. -/
lemma Safe.recovers (safe : Safe path ledger last) (typed : op.Typed) (cut : op.Cut ledger disk)
    (crashes : Crashes path disk fresh.disk) :
    ∃ again store, (store = last ∨ op.target ledger = some store) ∧
      Action.on (openStore (some path)) fresh = (.ok (), again) ∧
      (∀ audit ∈ again.store.audits, audit.isRunning = false) ∧ again.store.Resumes store ∧
      Safe path again again.store := by
  obtain ⟨store, is, holds⟩ := cut.holds safe typed
  obtain ⟨held, holds, resumes⟩ := crashes.holds holds
  obtain ⟨again, found⟩ := holds.recovers resumes
  exact ⟨again, store, is, found⟩

/-- The file of a store in use holds what was last written. -/
lemma InUse.safe (used : InUse path ledger last) : Safe path ledger last := by
  induction used with
  | @opened fresh ledger kept reads intact steady opens =>
    obtain ⟨-, holds⟩ := holds_opened reads intact steady opens
    exact ⟨holds.located, holds.intact, holds⟩
  | passed now ids drawn _ ih => exact ⟨ih.located, ih.intact, ih.holds⟩
  | did _ typed does ih => exact Operation.safe_after ih typed does
  | recovered _ typed cut crashes opens ih =>
    obtain ⟨again, store, -, opens', -, -, safe⟩ := ih.recovers typed cut crashes
    obtain ⟨-, rfl⟩ := Prod.mk.inj (opens'.symm.trans opens)
    exact safe

/-- Where no write fails, what was last written is what the store has. -/
lemma InUse.saved {reply : Except StoreError op.Answer} (used : InUse path ledger ledger.store) (typed : op.Typed)
    (does : Action.on op.action ledger = (reply, after)) (saved : Saved reply) : InUse path after after.store :=
  Operation.written_of_saved saved does ▸ used.did typed does

/-- A program crashes in an operation on a store in use, at any point, and then any number of times as the store is
opened again. The next time that it is opened it can be, and it has the records that were last written before the
operation, or those that the operation leads to, with the scans ended that were running. -/
theorem crashes_leave_one_version (used : InUse path ledger last) (typed : op.Typed) (cut : op.Cut ledger disk)
    (crashes : Crashes path disk fresh.disk) :
    ∃ again, Action.on (openStore (some path)) fresh = (.ok (), again) ∧
      (∀ audit ∈ again.store.audits, audit.isRunning = false) ∧
      (again.store.Resumes last ∨ ∃ store, op.target ledger = some store ∧ again.store.Resumes store) := by
  obtain ⟨again, store, rfl | is, opens, ended, resumes, -⟩ := used.safe.recovers typed cut crashes
  · exact ⟨again, opens, ended, .inl resumes⟩
  · exact ⟨again, opens, ended, .inr ⟨store, is, resumes⟩⟩

end Recovery

section Sample

/-- A path in the root. -/
def plainPath : Path := ⟨true, ["store.json"]⟩

/-- Nothing but what a crash left beside the file of a store. -/
def leftover : Ledger where
  disk := { entries := [(["store.json.tmp"], .file [123])] }
  now := ⟨2024, 1, 1, 0, 0, 0, 0⟩
  ids := fun n => String.ofList (List.replicate n 'i')

/-- A store with a path and without records. -/
lemma intact_empty (path : Path) : Store.Intact { path := some path } where
  audits := List.nodup_nil
  findings := List.nodup_nil
  owned := nofun
  typed := ⟨nofun, nofun⟩

/-- The store that is opened over what a crash left. -/
def leftoverOpened : Ledger := { leftover with store := { path := some plainPath } }

lemma leftover_used : InUse plainPath leftoverOpened leftoverOpened.store := by
  have reads : readStore leftover.disk plainPath = .ok leftoverOpened.store := rfl
  have steady : leftover.disk.Steady plainPath := Disk.steady_of_parent (List.cons_ne_nil _ _) rfl rfl
  exact .opened reads (intact_empty plainPath) steady rfl

/-- The program crashes when some octets of the store's first file are written over what an earlier crash left. -/
theorem crashes_leave_one_version_torn : ∃ disk again,
    (Operation.createAudit "acme" "shop" "").Cut leftoverOpened disk ∧
    Action.on (openStore (some plainPath)) { leftover with disk } = (.ok (), again) ∧
    (∀ audit ∈ again.store.audits, audit.isRunning = false) ∧
    (again.store.Resumes leftoverOpened.store ∨
      ∃ store, (Operation.createAudit "acme" "shop" "").target leftoverOpened = some store ∧
        again.store.Resumes store) := by
  have is : (Operation.createAudit "acme" "shop" "").target leftoverOpened =
      some (leftoverOpened.store.putAudit (newAudit "i" "acme" "shop" "" leftover.now)) := rfl
  have typed : (Operation.createAudit "acme" "shop" "").Typed := trivial
  let written := leftoverOpened.store.putAudit (newAudit "i" "acme" "shop" "" leftover.now)
  let torn := leftover.disk.put ["store.json.tmp"] (.file ((octetsOf written).take 5))
  have beside : leftover.disk.write (besidePath plainPath) ((octetsOf written).take 5) = .ok torn := rfl
  have cut : (Operation.createAudit "acme" "shop" "").Cut leftoverOpened torn :=
    .writing is (.before (.beside rfl rfl rfl (by decide +kernel) (List.take_prefix 5 _) beside))
  obtain ⟨again, found⟩ := crashes_leave_one_version leftover_used typed cut
    (show Crashes plainPath torn ({ leftover with disk := torn } : Ledger).disk from .none)
  exact ⟨torn, again, cut, found⟩

/-- A path that leads up again from a directory that is missing. -/
def roundPath : Path := ⟨true, ["x", "..", "store.json"]⟩

/-- A store that was written at another time. -/
def olderStore : Store where
  path := some roundPath
  audits := [newAudit "a" "acme" "shop" "" ⟨2023, 1, 1, 0, 0, 0, 0⟩]

/-- The file of the older store, which the path does not lead to. -/
def hidden : Ledger where
  disk := { entries := [(["store.json"], .file (octetsOf olderStore))] }
  now := ⟨2024, 1, 1, 0, 0, 0, 0⟩
  ids := fun n => String.ofList (List.replicate n 'i')

lemma intact_older : olderStore.Intact := by
  have typed : (Operation.createAudit "acme" "shop" "").Typed := trivial
  have made : (Operation.createAudit "acme" "shop" "").target
      { store := { path := some roundPath }, now := ⟨2023, 1, 1, 0, 0, 0, 0⟩, ids := fun _ => "a" } =
      some olderStore := rfl
  exact (Operation.changed typed made).intact (intact_empty roundPath)

/-- Under a path that leads up again from a directory that is missing there are no records, so the store that is
opened is empty. A crash in its first operation leaves the directory, and when the store is opened again the path leads
to the records of another file: those were neither there before the operation, nor does it lead to them. -/
theorem crash_brings_other_records : ∃ opened disk again,
    Action.on (openStore (some roundPath)) hidden = (.ok (), opened) ∧
    opened.store.audits = [] ∧ opened.store.findings = [] ∧
    (Operation.createAudit "acme" "shop" "").Cut opened disk ∧
    Action.on (openStore (some roundPath)) { hidden with disk } = (.ok (), again) ∧
    ¬ again.store.Resumes opened.store ∧
    ∀ store, (Operation.createAudit "acme" "shop" "").target opened = some store → ¬ again.store.Resumes store := by
  let opened : Ledger := { hidden with store := { path := some roundPath } }
  let disk := hidden.disk.put ["x"] .directory
  have is : (Operation.createAudit "acme" "shop" "").target opened =
      some (opened.store.putAudit (newAudit "i" "acme" "shop" "" hidden.now)) := rfl
  -- The crash comes when the directory is made.
  have stages : opened.disk.stages roundPath.parent (roundPath.parent.parts.length + 1) = [disk] := rfl
  have cut := Operation.Cut.writing is (.before (.parents rfl (stages ▸ List.mem_singleton_self disk)))
  have reads : disk.read roundPath = .ok (octetsOf olderStore) := rfl
  obtain ⟨kept, reads', restores⟩ := readStore_octetsOf reads rfl (by decide +kernel) intact_older
  have holds : Holds disk roundPath olderStore :=
    ⟨intact_older, Disk.steady_of_read reads, kept, reads', restores, nofun⟩
  obtain ⟨again, opens, -, resumes, -⟩ :=
    (show Holds ({ hidden with disk } : Ledger).disk roundPath olderStore from holds).recovers (.refl _)
  refine ⟨opened, disk, again, rfl, rfl, rfl, cut, opens, fun same => ?_, fun store is' same => ?_⟩
  · have ids : ["a"].Perm [] := resumes.audits.symm.trans same.audits
    cases ids.length_eq
  · obtain rfl := Option.some.inj (is.symm.trans is')
    have ids : ["a"].Perm ["i"] := resumes.audits.symm.trans same.audits
    exact absurd (List.perm_singleton.mp ids) (by decide)

end Sample

end Ledger

end RepoAudit
