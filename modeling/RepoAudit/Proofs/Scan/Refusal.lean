import RepoAudit.Proofs.Scan.Effect
import RepoAudit.Proofs.Scan.Pool
import RepoAudit.Proofs.Scan.Rescan
import RepoAudit.Scan.Start

/-!
# Requests that are refused

A request for a scan is refused for one of three reasons. When the audit is missing or is being scanned, the request
has only looked at it. An executor that is shut down is asked last, though, when the findings of earlier scans are
dropped and the results are reset; then the audit is completed with what happened, and all other audits, the findings
of theirs and the findings that people entered are as they were.
-/

namespace RepoAudit

namespace Store

/-- The store without the findings that scans made for an audit. -/
def withoutDetected (store : Store) (auditId : String) : Store :=
  { store with findings := store.findings.filter fun f => !(f.isOf auditId && f.autoDetected.isTruthy) }

/-- The store without the findings of the ids. -/
def without (store : Store) (ids : List String) : Store :=
  { store with findings := store.findings.filter fun f => !ids.contains f.id }

variable {store : Store}

@[simp] lemma without_nil : store.without [] = store := by
  simp [without]

lemma without_cons (id : String) (ids : List String) :
    store.without (id :: ids) = (store.dropFinding id).without ids := by
  simp only [without, dropFinding, List.filter_filter, mk.injEq, true_and]
  refine List.filter_congr fun finding _ => ?_
  by_cases same : finding.id = id
  · simp [same]
  · simp [same]

lemma dropFinding_of_missing {id : String} (missing : store.finding? id = none) : store.dropFinding id = store := by
  have others := List.find?_eq_none.mp missing
  have all : store.findings.filter (·.id != id) = store.findings :=
    List.filter_eq_self.mpr fun finding stored => by simpa using others finding stored
  rw [dropFinding, all]

/-- Where findings do not share ids, dropping the detected ones by their ids drops no other. -/
lemma without_eq (keyed : store.Keyed) (auditId : String) :
    store.without (((store.findingsOf auditId).filter (·.autoDetected.isTruthy)).map (·.id)) =
      store.withoutDetected auditId := by
  simp only [without, withoutDetected, mk.injEq, true_and]
  refine List.filter_congr fun finding stored => ?_
  rw [Bool.eq_iff_iff]
  simp only [Bool.not_eq_true', ← Bool.not_eq_true, not_iff_not, List.contains_iff_mem, List.mem_map, List.mem_filter,
    findingsOf, Bool.and_eq_true]
  constructor
  · rintro ⟨other, ⟨⟨stored', ofAudit⟩, detected⟩, same⟩
    obtain rfl := List.inj_on_of_nodup_map keyed stored' stored same
    exact ⟨ofAudit, detected⟩
  · rintro ⟨ofAudit, detected⟩
    exact ⟨finding, ⟨⟨stored, ofAudit⟩, detected⟩, rfl⟩

lemma putAudit_putAudit {audit other : AuditRecord} (same : other.id = audit.id)
    (present : (store.audit? audit.id).isSome) : (store.putAudit audit).putAudit other = store.putAudit other := by
  have present' : ((store.putAudit audit).audit? other.id).isSome := by
    rw [audit?_putAudit, if_pos same]
    rfl
  rw [putAudit, if_pos present', putAudit, if_pos present, putAudit, same, if_pos present, List.map_map]
  congr 1
  refine List.map_congr_left fun old _ => ?_
  by_cases replaced : old.id = audit.id
  · simp [replaced]
  · simp [replaced]

end Store

/-- The world with another store, of which the disk may tell. -/
def World.withStore (world : World) (store : Store) (disk : Disk) : World :=
  { world with ledger := { world.ledger with store, disk } }

namespace Scan

/-- What a part of a request answers and leaves. -/
def Starting.on {α : Type} (part : Starting α) (world : World) : Except StoreError α × World := part.run.run world

section On

variable {α β : Type} {world after : World} {auditId : String}

/-- One part after another that has come to its end. -/
lemma exists_of_bind_on {part : Starting α} {next : α → Starting β} {value : β}
    (ran : (part >>= next).on world = (.ok value, after)) :
    ∃ between middle, part.on world = (.ok between, middle) ∧ (next between).on middle = (.ok value, after) := by
  have steps : (part >>= next).on world = (ExceptT.bindCont next (part.on world).1).run (part.on world).2 :=
    run_bind part.run (ExceptT.bindCont next) world
  rw [steps] at ran
  cases does : part.on world with
  | mk result middle =>
    rw [does] at ran
    cases result with
    | error error => cases ran
    | ok between => exact ⟨between, middle, rfl, ran⟩

/-- A call, and what comes after it. -/
lemma call_bind_on (c : Call) (next : c.Reply → Starting β) :
    (call c >>= next).on world = (next (world.perform c).1).on (world.perform c).2 :=
  rfl

/-- A reply that is no failure, and what comes after it. -/
lemma exists_of_accomplish_on {reply : Except StoreError α} {next : Unit → Starting β} {value : β}
    (ran : (accomplish reply >>= next).on world = (.ok value, after)) :
    ∃ done, reply = .ok done ∧ (next ()).on world = (.ok value, after) := by
  cases reply with
  | error error => cases ran
  | ok done => exact ⟨done, rfl, ran⟩

/-- A finding that is dropped, whether it was there or not. -/
lemma deleteFinding_on {id : String} {dropped : Bool}
    (ok : (world.perform (.deleteFinding id)).1 = .ok dropped) :
    ∃ disk, (world.perform (.deleteFinding id)).2 = world.withStore (world.ledger.store.dropFinding id) disk := by
  have saved : Saved (world.perform (.deleteFinding id)).1 := by
    rw [ok]
    exact fun error is => nomatch is
  obtain ⟨missing, does⟩ | ⟨finding, disk, -, does⟩ := World.perform_deleteFinding saved
  · exact ⟨world.ledger.disk, by rw [does, Store.dropFinding_of_missing missing]; rfl⟩
  · exact ⟨disk, by rw [does]; rfl⟩

/-- An audit that is there is changed. -/
lemma updateAudit_on {audit : AuditRecord} {changes : List (AuditField × Json)} {changed : Option AuditRecord}
    (found : world.ledger.store.audit? auditId = some audit)
    (ok : (world.perform (.updateAudit auditId changes)).1 = .ok changed) :
    ∃ disk, (world.perform (.updateAudit auditId changes)).2 =
      world.withStore (world.ledger.store.putAudit (audit.change changes)) disk := by
  have saved : Saved (world.perform (.updateAudit auditId changes)).1 := by
    rw [ok]
    exact fun error is => nomatch is
  obtain ⟨missing, -⟩ | ⟨other, disk, found', does⟩ := World.perform_updateAudit saved
  · rw [found] at missing
    cases missing
  · obtain rfl := Option.some.inj (found.symm.trans found')
    exact ⟨disk, by rw [does]; rfl⟩

/-- The detected ones among some findings are dropped one after the other. -/
lemma drops_on {findings : List FindingRecord}
    (ran : Starting.on (forIn findings PUnit.unit fun finding _ =>
      if finding.autoDetected.isTruthy = true then do
        let reply ← call (.deleteFinding finding.id)
        accomplish reply
        pure (ForInStep.yield PUnit.unit)
      else pure (ForInStep.yield PUnit.unit)) world = (.ok ⟨⟩, after)) :
    ∃ disk, after = world.withStore
      (world.ledger.store.without ((findings.filter (·.autoDetected.isTruthy)).map (·.id))) disk := by
  induction findings generalizing world with
  | nil =>
    cases ran
    exact ⟨after.ledger.disk, by rw [List.filter_nil, List.map_nil, Store.without_nil]; rfl⟩
  | cons finding rest ih =>
    rw [List.forIn_cons] at ran
    obtain ⟨between, middle, first, ran⟩ := exists_of_bind_on ran
    by_cases detected : finding.autoDetected.isTruthy = true
    · rw [if_pos detected] at first
      rw [call_bind_on] at first
      obtain ⟨dropped, ok, first⟩ := exists_of_accomplish_on first
      cases first
      obtain ⟨disk, dropping⟩ := deleteFinding_on ok
      obtain ⟨disk', rfl⟩ := ih ran
      refine ⟨disk', ?_⟩
      rw [dropping, List.filter_cons, if_pos detected, List.map_cons, Store.without_cons]
      rfl
    · rw [if_neg detected] at first
      cases first
      obtain ⟨disk, rfl⟩ := ih ran
      exact ⟨disk, by simp [detected]⟩

/-- The findings of earlier scans are dropped, and nothing else is. -/
lemma clear_on (keyed : world.ledger.store.Keyed) (ran : (clear auditId).on world = (.ok (), after)) :
    ∃ disk, after = world.withStore (world.ledger.store.withoutDetected auditId) disk := by
  rw [clear, call_bind_on] at ran
  obtain ⟨⟨⟩, dropped, drops, ran⟩ := exists_of_bind_on ran
  cases ran
  obtain ⟨disk, rfl⟩ := drops_on drops
  exact ⟨disk, by rw [← Store.without_eq keyed]; rfl⟩

/-- The audit is marked and the executor is asked. When it takes no scans, the audit is completed at once. -/
lemma closes_on {audit : AuditRecord} {acceptance : Acceptance}
    (found : world.ledger.store.audit? auditId = some audit)
    (ran : Starting.on (do
      accomplish (← call (.updateAudit auditId beginning))
      match ← call (.submit auditId) with
      | none =>
        let now ← call .now
        accomplish (← call (.updateAudit auditId (refusal now)))
        return closing
      | some number =>
        call (.register auditId number)
        call (.watch number)
        return started) world = (.ok acceptance, after))
    (refused : acceptance.accepted = false) :
    acceptance = closing ∧ world.executor.accepting = false ∧ ∃ disk, after =
      world.withStore
        (world.ledger.store.putAudit ((audit.change beginning).change (refusal world.ledger.now))) disk := by
  rw [call_bind_on] at ran
  obtain ⟨changed, ok, ran⟩ := exists_of_accomplish_on ran
  obtain ⟨disk, marks⟩ := updateAudit_on found ok
  generalize (world.perform (.updateAudit auditId beginning)).2 = marked at marks ran
  rw [call_bind_on] at ran
  cases accepting : marked.executor.accepting with
  | true =>
    rw [World.perform_submit_of_accepting accepting] at ran
    cases ran
    cases refused
  | false =>
    have refuses : marked.perform (.submit auditId) = (none, marked) := by
      simp [World.perform, Executor.submit, accepting]
    rw [refuses] at ran
    replace ran : Starting.on (call .now >>= _) marked = _ := ran
    rw [call_bind_on, call_bind_on] at ran
    obtain ⟨completed, ok, ran⟩ := exists_of_accomplish_on ran
    cases ran
    have foundMarked : (marked.perform .now).2.ledger.store.audit? auditId = some (audit.change beginning) := by
      rw [marks]
      show Store.audit? (Store.putAudit _ _) auditId = _
      rw [Store.audit?_putAudit, AuditRecord.change_id, Store.id_of_audit? found, if_pos rfl]
    obtain ⟨disk, completes⟩ := updateAudit_on foundMarked ok
    have present : (world.ledger.store.audit? (audit.change beginning).id).isSome := by
      rw [AuditRecord.change_id, Store.id_of_audit? found]
      exact Option.isSome_of_eq_some found
    have same : ((audit.change beginning).change (refusal world.ledger.now)).id = (audit.change beginning).id :=
      AuditRecord.change_id _ _
    refine ⟨rfl, ?_, disk, completes.trans ?_⟩
    · rw [marks] at accepting
      exact accepting
    · rw [marks]
      exact congrArg (world.withStore · disk) (Store.putAudit_putAudit same present)

/-- What a request leaves that is refused. Where the audit is missing or is being scanned, nothing has changed. Where
the executor takes no scans, the audit has no detected findings any more and is completed with the reason, and every
other audit and every other finding is as it was. -/
theorem refused_scan_effect {acceptance : Acceptance} (keyed : world.ledger.store.Keyed)
    (ran : (start auditId).run.run world = (.ok acceptance, after)) (refused : acceptance.accepted = false) :
    (acceptance = missing ∧ world.ledger.store.audit? auditId = none ∧ after = world) ∨
    (acceptance = busy ∧ (∃ audit, world.ledger.store.audit? auditId = some audit ∧ audit.isRunning = true) ∧
      after = world) ∨
    (acceptance = closing ∧ world.executor.accepting = false ∧ ∃ audit disk,
      world.ledger.store.audit? auditId = some audit ∧ audit.isRunning = false ∧
      after = world.withStore ((world.ledger.store.withoutDetected auditId).putAudit
        ((audit.change beginning).change (refusal world.ledger.now))) disk ∧
      (∀ id, id ≠ auditId → after.ledger.store.audit? id = world.ledger.store.audit? id) ∧
      after.ledger.store.findings =
        world.ledger.store.findings.filter fun f => !(f.isOf auditId && f.autoDetected.isTruthy)) := by
  replace ran : (start auditId).on world = (.ok acceptance, after) := ran
  rw [start, call_bind_on] at ran
  cases found : world.ledger.store.audit? auditId with
  | none =>
    have asked : (world.perform (.getAudit auditId)).1 = none := found
    rw [asked] at ran
    cases ran
    exact .inl ⟨rfl, rfl, rfl⟩
  | some audit =>
    have asked : (world.perform (.getAudit auditId)).1 = some audit := found
    rw [asked] at ran
    replace ran : Starting.on (if audit.isRunning = true then _ else _) world = _ := ran
    cases running : audit.isRunning with
    | true =>
      rw [running, if_pos rfl] at ran
      cases ran
      exact .inr (.inl ⟨rfl, ⟨audit, rfl, running⟩, rfl⟩)
    | false =>
      rw [running, if_neg Bool.false_ne_true] at ran
      obtain ⟨⟨⟩, cleared, clears, ran⟩ := exists_of_bind_on ran
      obtain ⟨disk, rfl⟩ := clear_on keyed clears
      have kept : (world.withStore (world.ledger.store.withoutDetected auditId) disk).ledger.store.audit? auditId =
          some audit := found
      obtain ⟨rfl, accepting, disk, rfl⟩ := closes_on kept ran refused
      refine .inr (.inr ⟨rfl, accepting, audit, disk, rfl, running, rfl, fun id other => ?_, ?_⟩)
      · show Store.audit? (Store.putAudit _ _) id = _
        rw [Store.audit?_putAudit, AuditRecord.change_id, AuditRecord.change_id, Store.id_of_audit? found, if_neg other]
        rfl
      · exact Store.findings_putAudit _ _

end On

/-- A world with an audit that was scanned before, of which one finding was detected and one was entered, and with an
executor that is shut down. -/
def shutWorld : World := { usedWorld with executor := { accepting := false } }

theorem refused_scan_effect_closing : shutWorld.ledger.store.Keyed ∧ ∃ disk after,
    (start "ii").run.run shutWorld = (.ok closing, after) ∧ closing.accepted = false ∧
      after = shutWorld.withStore ((shutWorld.ledger.store.withoutDetected "ii").putAudit
        ((scannedBefore.change beginning).change (refusal shutWorld.ledger.now))) disk ∧
      after.ledger.store.findings.map (·.id) = ["iiii"] := by
  have keyed : shutWorld.ledger.store.Keyed := show List.Nodup _ by decide
  have ran : (start "ii").run.run shutWorld = (.ok closing, ((start "ii").run.run shutWorld).2) := rfl
  obtain ⟨is, -⟩ | ⟨is, -⟩ | ⟨-, -, audit, disk, found, -, leaves, -, findings⟩ := refused_scan_effect keyed ran rfl
  · exact absurd is (by decide)
  · exact absurd is (by decide)
  · obtain rfl : scannedBefore = audit := Option.some.inj found
    exact ⟨keyed, disk, _, ran, rfl, leaves, by rw [findings]; rfl⟩

/-- A request that is refused need not leave the audit and its findings. -/
theorem refused_scan_changes_audit : ¬ ∀ (auditId : String) (world after : World) (acceptance : Acceptance),
    (start auditId).run.run world = (.ok acceptance, after) → acceptance.accepted = false →
      after.ledger.store.audits = world.ledger.store.audits ∧
        after.ledger.store.findings = world.ledger.store.findings := by
  intro leaves
  obtain ⟨-, same⟩ := leaves "ii" shutWorld ((start "ii").run.run shutWorld).2 closing rfl rfl
  exact absurd (congrArg List.length same) (by decide)

end Scan

end RepoAudit
