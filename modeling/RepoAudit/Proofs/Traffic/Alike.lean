import RepoAudit.Proofs.Scan.Rescan
import RepoAudit.Proofs.Scan.Timeless
import RepoAudit.Proofs.Traffic.Concern

/-!
# An audit in two worlds

Two worlds can have an audit that is the same in both, with the same findings (`World.Same`), or one that is the same
but for times, with findings that are the same but for their ids (`World.Alike`). A request for a scan is replied the
same in both and leaves the audit the same (`Program.Requests.same`). Programs that go in step get replies that let them
go on in step, and leave the audit alike (`Program.InStep.call`).
-/

namespace RepoAudit

/-- The findings of an audit after one of it was filed. -/
lemma Store.findingsOf_putFinding {store : Store} {id : String} (missing : store.finding? id = none)
    (draft : FindingRecord) (auditId : String) :
    (store.putFinding (Ledger.filed draft id auditId)).findingsOf auditId =
      store.findingsOf auditId ++ [Ledger.filed draft id auditId] := by
  have put : (store.putFinding (Ledger.filed draft id auditId)).findings =
      store.findings ++ [Ledger.filed draft id auditId] := findings_putFinding_of_missing missing
  have ofAudit : (Ledger.filed draft id auditId).isOf auditId = true := beq_self_eq_true auditId
  rw [findingsOf, put, List.filter_append, List.filter_cons_of_pos ofAudit, List.filter_nil, findingsOf]

/-- Two worlds with the same host where the audit is the same but for times, and its findings are the same but for
their ids. -/
structure World.Alike (auditId : String) (one other : World) : Prop where
  host : one.host = other.host
  audit : (one.ledger.store.audit? auditId).map AuditRecord.timeless =
    (other.ledger.store.audit? auditId).map AuditRecord.timeless
  findings : (one.ledger.store.findingsOf auditId).map FindingRecord.unnamed =
    (other.ledger.store.findingsOf auditId).map FindingRecord.unnamed

namespace World

variable {auditId : String} {one other : World}

/-- What is done about other audits does not show. -/
lemma Alike.beside {after : World} (alike : one.Alike auditId other) (orderly : one.ledger.Orderly)
    (touches : one.ledger.Touches (· ≠ auditId) after.ledger) (host : after.host = one.host) :
    after.Alike auditId other := by
  refine ⟨host.trans alike.host, ?_, ?_⟩
  · rw [touches.audit?_eq (not_not.mpr rfl)]
    exact alike.audit
  · rw [touches.findingsOf_eq orderly (not_not.mpr rfl)]
    exact alike.findings

lemma perform_asks {c : Call} (asks : c.asksHost = true) (alike : one.Alike auditId other) :
    (one.perform c).1 = (other.perform c).1 ∧ (one.perform c).2.Alike auditId (other.perform c).2 := by
  cases c with
  | hostName => exact ⟨congrArg SourceHost.name alike.host, alike⟩
  | repository owner name => exact ⟨congrArg (·.repository owner name) alike.host, alike⟩
  | languages owner name => exact ⟨congrArg (·.languages owner name) alike.host, alike⟩
  | tree owner name ref => exact ⟨congrArg (·.tree owner name ref) alike.host, alike⟩
  | file owner name path => exact ⟨congrArg (·.file owner name path) alike.host, alike⟩
  | _ => cases asks

/-- Changes that are the same but for times change the audit alike in both worlds. -/
lemma Alike.updateAudit {changes changes' : List (AuditField × Json)} (alike : one.Alike auditId other)
    (same : AuditField.timelessly changes = AuditField.timelessly changes')
    (saved : Saved (one.perform (.updateAudit auditId changes)).1)
    (saved' : Saved (other.perform (.updateAudit auditId changes')).1) :
    ∃ x y, (one.perform (.updateAudit auditId changes)).1 = .ok x ∧
      (other.perform (.updateAudit auditId changes')).1 = .ok y ∧
      (one.perform (.updateAudit auditId changes)).2.Alike auditId
        (other.perform (.updateAudit auditId changes')).2 := by
  have audit := alike.audit
  obtain ⟨missing, does⟩ | ⟨record, disk, found, does⟩ := perform_updateAudit saved
  all_goals obtain ⟨missing', does'⟩ | ⟨record', disk', found', does'⟩ := perform_updateAudit saved'
  · rw [does, does']
    exact ⟨_, _, rfl, rfl, alike⟩
  · rw [missing, found'] at audit
    cases audit
  · rw [found, missing'] at audit
    cases audit
  · rw [found, found', Option.map_some, Option.map_some, Option.some.injEq] at audit
    rw [does, does']
    refine ⟨_, _, rfl, rfl, alike.host, ?_, ?_⟩
    · simp [Store.id_of_audit? found, Store.id_of_audit? found', AuditRecord.timeless_change, audit, same]
    · simpa [Store.findingsOf] using alike.findings

/-- A finding is filed alike in both worlds, though under ids of its own. -/
lemma Alike.createFinding {draft : FindingRecord} (alike : one.Alike auditId other) (orderly : one.ledger.Orderly)
    (orderly' : other.ledger.Orderly) (saved : Saved (one.perform (.createFinding auditId draft)).1)
    (saved' : Saved (other.perform (.createFinding auditId draft)).1) :
    ((∃ x y, (one.perform (.createFinding auditId draft)).1 = .ok x ∧
        (other.perform (.createFinding auditId draft)).1 = .ok y) ∨
      ∃ error, (one.perform (.createFinding auditId draft)).1 = .error error ∧
        (other.perform (.createFinding auditId draft)).1 = .error error) ∧
      (one.perform (.createFinding auditId draft)).2.Alike auditId
        (other.perform (.createFinding auditId draft)).2 := by
  have audit := alike.audit
  obtain ⟨missing, does⟩ | ⟨record, disk, found, does⟩ := perform_createFinding saved
  all_goals obtain ⟨missing', does'⟩ | ⟨record', disk', found', does'⟩ := perform_createFinding saved'
  · rw [does, does']
    exact ⟨.inr ⟨_, rfl, rfl⟩, alike.host, alike.audit, alike.findings⟩
  · rw [missing, found'] at audit
    cases audit
  · rw [found, missing'] at audit
    cases audit
  · rw [does, does']
    refine ⟨.inl ⟨_, _, rfl, rfl⟩, alike.host, ?_, ?_⟩
    · simpa using alike.audit
    · rw [Store.findingsOf_putFinding (orderly.drawsNew.unused _ (Nat.lt_succ_self _)),
        Store.findingsOf_putFinding (orderly'.drawsNew.unused _ (Nat.lt_succ_self _)), List.map_append,
        List.map_append, alike.findings]
      rfl

end World

/-- Programs that go in step make a call each, and go on in step when each is replied by its own world. -/
lemma Program.InStep.call {α β : Type} {auditId : String} {post : α → β → Prop} {c : Call} {p : c.Reply → Program α}
    {q : Program β} (inStep : (Program.call c p).InStep auditId post q) :
    ∃ c' q', q = .call c' q' ∧ c'.StaysWith auditId ∧
      ∀ one other : World, one.Alike auditId other → one.ledger.Orderly → other.ledger.Orderly →
        Exchange.Saved ⟨c, (one.perform c).1⟩ → Exchange.Saved ⟨c', (other.perform c').1⟩ →
        (p (one.perform c).1).InStep auditId post (q' (other.perform c').1) ∧
          (one.perform c).2.Alike auditId (other.perform c').2 := by
  cases inStep with
  | now goes => exact ⟨_, _, rfl, trivial, fun one other alike _ _ _ _ => ⟨goes _ _, alike⟩⟩
  | @asks _ _ q' asks goes =>
    refine ⟨c, q', rfl, ?_, fun one other alike _ _ _ _ => ?_⟩
    · cases c with
      | hostName | repository | languages | tree | file => trivial
      | _ => cases asks
    · obtain ⟨same, alike⟩ := World.perform_asks asks alike
      exact ⟨same ▸ goes _, alike⟩
  | looks goes => exact ⟨_, _, rfl, rfl, fun one other alike _ _ _ _ => ⟨goes _ _ alike.audit, alike⟩⟩
  | changes same goes =>
    refine ⟨_, _, rfl, rfl, fun one other alike _ _ saved saved' => ?_⟩
    obtain ⟨x, y, ok, ok', alike⟩ := alike.updateAudit same saved saved'
    rw [ok, ok']
    exact ⟨goes x y, alike⟩
  | adds goes fails =>
    refine ⟨_, _, rfl, rfl, fun one other alike orderly orderly' saved saved' => ?_⟩
    obtain ⟨⟨x, y, ok, ok'⟩ | ⟨error, failed, failed'⟩, alike⟩ := alike.createFinding orderly orderly' saved saved'
    · rw [ok, ok']
      exact ⟨goes x y, alike⟩
    · rw [failed, failed']
      exact ⟨fails error, alike⟩

/-! ## The same audit -/

/-- Two worlds with the same host where the audit is the same, and so are its findings. -/
structure World.Same (auditId : String) (one other : World) : Prop where
  host : one.host = other.host
  audit : one.ledger.store.audit? auditId = other.ledger.store.audit? auditId
  findings : one.ledger.store.findingsOf auditId = other.ledger.store.findingsOf auditId

section Same

variable {auditId id : String} {one other after : World}

lemma World.Same.refl (auditId : String) (world : World) : world.Same auditId world := ⟨rfl, rfl, rfl⟩

lemma World.Same.symm (same : one.Same auditId other) : other.Same auditId one :=
  ⟨same.host.symm, same.audit.symm, same.findings.symm⟩

/-- What is done about other audits does not show. -/
lemma World.Same.beside (same : one.Same auditId other) (orderly : one.ledger.Orderly)
    (touches : one.ledger.Touches (· ≠ auditId) after.ledger) (host : after.host = one.host) :
    after.Same auditId other :=
  ⟨host.trans same.host, (touches.audit?_eq (not_not.mpr rfl)).trans same.audit,
    (touches.findingsOf_eq orderly (not_not.mpr rfl)).trans same.findings⟩

lemma World.Same.reads (same : one.Same auditId other) (orderly : other.ledger.Orderly) (c : Call)
    (reads : c.writes = false) : one.Same auditId (other.perform c).2 :=
  (same.symm.beside orderly (other.touches_reads _ reads) (perform_host c)).symm

lemma World.Same.alike (same : one.Same auditId other) : one.Alike auditId other :=
  ⟨same.host, congrArg (Option.map AuditRecord.timeless) same.audit,
    congrArg (List.map FindingRecord.unnamed) same.findings⟩

/-- An id that is allotted to the audit has the same finding in both worlds. -/
lemma World.Same.finding?_eq (same : one.Same auditId other) (orderly : one.ledger.Orderly)
    (orderly' : other.ledger.Orderly) (own : one.ledger.Allotted true auditId id)
    (own' : other.ledger.Allotted true auditId id) :
    one.ledger.store.finding? id = other.ledger.store.finding? id := by
  have passes {one other : World}
      (findings : one.ledger.store.findingsOf auditId = other.ledger.store.findingsOf auditId)
      (orderly : one.ledger.Orderly) (orderly' : other.ledger.Orderly) (own : one.ledger.Allotted true auditId id)
      {finding : FindingRecord} (found : one.ledger.store.finding? id = some finding) :
      other.ledger.store.finding? id = some finding := by
    obtain ⟨stored, named⟩ := (find?_eq_some_iff_mem FindingRecord.id orderly.keyed).mp found
    have listed : finding ∈ one.ledger.store.findingsOf auditId :=
      List.mem_filter.mpr ⟨stored, own.whose finding found⟩
    rw [findings] at listed
    exact (find?_eq_some_iff_mem FindingRecord.id orderly'.keyed).mpr ⟨(List.mem_filter.mp listed).1, named⟩
  exact Option.ext fun finding => ⟨passes same.findings orderly orderly' own,
    passes same.findings.symm orderly' orderly own'⟩

/-- The findings of an audit after one was dropped. -/
lemma Store.findingsOf_dropFinding (store : Store) (auditId id : String) :
    (store.dropFinding id).findingsOf auditId = (store.findingsOf auditId).filter (·.id != id) := by
  rw [findingsOf, dropFinding, findingsOf, List.filter_filter, List.filter_filter]
  exact List.filter_congr fun finding _ => Bool.and_comm _ _

lemma World.Same.updateAudit {changes : List (AuditField × Json)} (same : one.Same auditId other)
    (saved : Saved (one.perform (.updateAudit auditId changes)).1)
    (saved' : Saved (other.perform (.updateAudit auditId changes)).1) :
    (one.perform (.updateAudit auditId changes)).1 = (other.perform (.updateAudit auditId changes)).1 ∧
      (one.perform (.updateAudit auditId changes)).2.Same auditId
        (other.perform (.updateAudit auditId changes)).2 := by
  have audit := same.audit
  obtain ⟨missing, does⟩ | ⟨record, disk, found, does⟩ := perform_updateAudit saved
  all_goals obtain ⟨missing', does'⟩ | ⟨record', disk', found', does'⟩ := perform_updateAudit saved'
  · rw [does, does']
    exact ⟨rfl, same⟩
  · rw [missing, found'] at audit
    cases audit
  · rw [found, missing'] at audit
    cases audit
  · obtain rfl : record = record' := Option.some.inj (found.symm.trans (audit.trans found'))
    rw [does, does']
    refine ⟨rfl, same.host, ?_, ?_⟩
    · simp [audit]
    · simpa [Store.findingsOf] using same.findings

lemma World.Same.deleteFinding (same : one.Same auditId other)
    (found : one.ledger.store.finding? id = other.ledger.store.finding? id)
    (saved : Saved (one.perform (.deleteFinding id)).1) (saved' : Saved (other.perform (.deleteFinding id)).1) :
    (one.perform (.deleteFinding id)).1 = (other.perform (.deleteFinding id)).1 ∧
      (one.perform (.deleteFinding id)).2.Same auditId (other.perform (.deleteFinding id)).2 := by
  obtain ⟨missing, does⟩ | ⟨finding, disk, present, does⟩ := perform_deleteFinding saved
  all_goals obtain ⟨missing', does'⟩ | ⟨finding', disk', present', does'⟩ := perform_deleteFinding saved'
  · rw [does, does']
    exact ⟨rfl, same⟩
  · rw [missing, present'] at found
    cases found
  · rw [present, missing'] at found
    cases found
  · rw [does, does']
    refine ⟨rfl, same.host, same.audit, ?_⟩
    dsimp only
    rw [Store.findingsOf_dropFinding, Store.findingsOf_dropFinding, same.findings]

end Same

section Requests

variable {auditId : String} {phase : Opening} {c : Call} {next : c.Reply → Program (Except StoreError Scan.Acceptance)}
variable {one other : World}

/-- Up to its question to the executor a request is replied the same in both worlds, and leaves the audit the same. -/
lemma Program.Requests.same (requests : (Program.call c next).Requests auditId one.ledger phase)
    (requests' : (Program.call c next).Requests auditId other.ledger phase) (isOpen : phase.isOpen = true)
    (other' : ∀ id, c ≠ .submit id) (same : one.Same auditId other) (orderly : one.ledger.Orderly)
    (orderly' : other.ledger.Orderly) (saved : Exchange.Saved ⟨c, (one.perform c).1⟩)
    (saved' : Exchange.Saved ⟨c, (other.perform c).1⟩) :
    (one.perform c).1 = (other.perform c).1 ∧ (one.perform c).2.Same auditId (other.perform c).2 := by
  have allowed := requests.opens.1
  cases phase with
  | fresh =>
    cases allowed
    exact ⟨same.audit, same⟩
  | seen =>
    cases allowed
    exact ⟨same.findings, same⟩
  | clearing left =>
    cases left with
    | nil =>
      cases allowed
      exact same.updateAudit saved saved'
    | cons finding rest =>
      cases allowed
      have found := same.finding?_eq orderly orderly' (requests.own finding List.mem_cons_self)
        (requests'.own finding List.mem_cons_self)
      exact same.deleteFinding found saved saved'
  | begun =>
    cases allowed
    exact absurd rfl (other' auditId)
  | refused | granted | closed => cases isOpen

end Requests

end RepoAudit
