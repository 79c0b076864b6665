import RepoAudit.Proofs.Store.Writing

/-!
# Operations that fail

An operation is refused before anything changes, or it fails when its change stands in memory already and cannot be
written. So whether those who read the store notice a failure is told by where the operation failed
(`Ledger.failures_show_their_change`).
-/

namespace RepoAudit

section Put

variable {store : Store}

lemma replaceKeyed_of_mem {α : Type} {key : α → String} {item : α} {items : List α}
    (distinct : (items.map key).Nodup) (stored : item ∈ items) : replaceKeyed key item items = items := by
  refine (List.map_congr_left fun old there => ?_).trans (List.map_id _)
  split
  · next same => exact (List.inj_on_of_nodup_map distinct there stored (by simpa using same)).symm
  · rfl

/-- Putting an audit that is there changes nothing. -/
lemma Store.putAudit_of_found {audit : AuditRecord} (distinct : (store.audits.map (·.id)).Nodup)
    (found : store.audit? audit.id = some audit) : store.putAudit audit = store := by
  have same := replaceKeyed_of_mem distinct (mem_of_audit? found)
  rw [putAudit, if_pos (by rw [found]; rfl)]
  exact congrArg (fun audits => { store with audits }) same

/-- Putting a finding that is there changes nothing. -/
lemma Store.putFinding_of_found {finding : FindingRecord} (keyed : store.Keyed)
    (found : store.finding? finding.id = some finding) : store.putFinding finding = store := by
  have same := replaceKeyed_of_mem keyed (mem_of_finding? found)
  rw [putFinding, if_pos (by rw [found]; rfl)]
  exact congrArg (fun findings => { store with findings }) same

end Put

namespace Ledger

/-- Whoever reads from the stores of two ledgers is answered the same. -/
structure ReadsAlike (ledger other : Ledger) : Prop where
  getAudit : ∀ id, (Action.on (getAudit id) other).1 = (Action.on (getAudit id) ledger).1
  listAudits : (Action.on listAudits other).1 = (Action.on listAudits ledger).1
  getFinding : ∀ id, (Action.on (getFinding id) other).1 = (Action.on (getFinding id) ledger).1
  listFindings : ∀ auditId, (Action.on (listFindings auditId) other).1 = (Action.on (listFindings auditId) ledger).1

section Reads

variable {ledger other : Ledger}

lemma listAudits_fst (ledger : Ledger) : (Action.on listAudits ledger).1 =
    match orderAudits ledger.store.audits with
    | .ok audits => .ok audits
    | .error error => .error (.noOrder error) := by
  cases ordered : orderAudits ledger.store.audits <;> simp [Ledger.listAudits, ordered]

lemma ReadsAlike.of_store (same : other.store = ledger.store) : ledger.ReadsAlike other where
  getAudit id := congrArg (fun store : Store => Except.ok (store.audit? id)) same
  listAudits := by rw [listAudits_fst, listAudits_fst, same]
  getFinding id := congrArg (fun store : Store => Except.ok (store.finding? id)) same
  listFindings auditId := congrArg (fun store : Store => Except.ok (store.findingsOf auditId)) same

lemma ReadsAlike.audit? (alike : ledger.ReadsAlike other) (id : String) :
    other.store.audit? id = ledger.store.audit? id := Except.ok.inj (alike.getAudit id)

lemma ReadsAlike.finding? (alike : ledger.ReadsAlike other) (id : String) :
    other.store.finding? id = ledger.store.finding? id := Except.ok.inj (alike.getFinding id)

/-- Readers notice every target that is another store. -/
lemma ReadsAlike.target {op : Operation} (alike : ledger.ReadsAlike other)
    (audits : (ledger.store.audits.map (·.id)).Nodup) (findings : ledger.store.Keyed)
    (is : op.target ledger = some other.store) : other.store = ledger.store := by
  have audit (id : String) := alike.audit? id
  have finding (id : String) := alike.finding? id
  generalize other.store = store at audit finding is
  cases op with
  | createAudit owner name address =>
    obtain rfl := Option.some.inj is
    exact Store.putAudit_of_found audits (by rw [← audit, Store.audit?_putAudit, if_pos rfl])
  | updateAudit id changes =>
    simp only [Operation.target, Option.ite_none_right_eq_some, Option.map_eq_some_iff] at is
    obtain ⟨-, old, -, rfl⟩ := is
    exact Store.putAudit_of_found audits (by rw [← audit, Store.audit?_putAudit, if_pos rfl])
  | deleteAudit id =>
    simp only [Operation.target, Option.map_eq_some_iff, Option.filter_eq_some_iff] at is
    obtain ⟨old, ⟨found, -⟩, rfl⟩ := is
    have gone := audit id
    rw [Store.audit?_dropAudit, if_pos rfl, found] at gone
    cases gone
  | createFinding auditId draft =>
    obtain ⟨old, -, rfl⟩ := Option.map_eq_some_iff.mp is
    exact Store.putFinding_of_found findings (by rw [← finding, Store.finding?_putFinding, if_pos rfl])
  | updateFinding id changes =>
    simp only [Operation.target, Option.ite_none_right_eq_some, Option.map_eq_some_iff] at is
    obtain ⟨-, old, -, rfl⟩ := is
    exact Store.putFinding_of_found findings (by rw [← finding, Store.finding?_putFinding, if_pos rfl])
  | deleteFinding id =>
    obtain ⟨old, found, rfl⟩ := Option.map_eq_some_iff.mp is
    have gone := finding id
    rw [Store.finding?_dropFinding, if_pos rfl, found] at gone
    cases gone

end Reads

/-- What an operation that fails leaves. When it was refused, the store and the disk are as before. When its change
could not be written, the change stands in memory, as if the operation had been done, and the file that there was is
read as before. So those who read the store are answered as before just when the operation was refused, or was about
nothing new. -/
theorem failures_show_their_change {op : Operation} {ledger after : Ledger} {error : StoreError}
    (audits : (ledger.store.audits.map (·.id)).Nodup) (findings : ledger.store.Keyed)
    (fails : Action.on op.action ledger = (.error error, after)) :
    (ledger.ReadsAlike after ↔ error.isWriteFailure = false ∨ op.target ledger = some ledger.store) ∧
    (error.isWriteFailure = false → after.store = ledger.store ∧ after.disk = ledger.disk) ∧
    (error.isWriteFailure = true → op.target ledger = some after.store ∧
      ∀ path octets, ledger.store.path = some path → ledger.disk.read path = .ok octets →
        after.disk.read path = .ok octets) := by
  obtain ⟨-, reply, saved, does⟩ | ⟨store, disk, error', is, failed, underway, does⟩ |
    ⟨store, disk, answer, -, -, does⟩ := op.outcome ledger
  · obtain ⟨rfl, rfl⟩ := Prod.mk.inj (does.symm.trans fails)
    have refused := saved error rfl
    refine ⟨⟨fun _ => .inl refused, fun _ => .of_store rfl⟩, fun _ => ⟨rfl, rfl⟩, fun failed => ?_⟩
    rw [refused] at failed
    cases failed
  · obtain ⟨same, rfl⟩ := Prod.mk.inj (does.symm.trans fails)
    cases same
    refine ⟨⟨fun alike => .inr ?_, fun or => .of_store ?_⟩, fun refused => ?_, fun _ => ⟨is, ?_⟩⟩
    · exact alike.target audits findings is ▸ is
    · obtain refused | same := or
      · rw [failed] at refused
        cases refused
      · exact Option.some.inj (is.symm.trans same)
    · rw [failed] at refused
      cases refused
    · intro path octets located reads
      exact underway.read ((Operation.path_target is).trans located) reads
  · cases does.symm.trans fails

section Sample

/-- A store in whose file's stead nothing can be written, because a directory stands beside it. -/
def barred : Ledger where
  store := { path := some ⟨false, ["store.json"]⟩ }
  disk := { entries := [(["store.json.tmp"], .directory)] }
  now := ⟨2024, 1, 1, 0, 0, 0, 0⟩
  ids := fun n => String.ofList (List.replicate n 'i')

/-- An audit whose making fails is shown to readers. -/
theorem failures_show_their_change_barred : ∃ error after,
    Action.on (Operation.createAudit "acme" "shop" "").action barred = (.error error, after) ∧
    error.isWriteFailure = true ∧ (after.store.audit? "i").isSome = true ∧ ¬ barred.ReadsAlike after := by
  have fails : (match Action.on (createAudit "acme" "shop" "") barred with
      | (.error error, after) => error.isWriteFailure && (after.store.audit? "i").isSome
      | _ => false) = true := by decide +kernel
  rcases does : Action.on (createAudit "acme" "shop" "") barred with ⟨error | audit, after⟩
  · rw [does] at fails
    obtain ⟨failed, shown⟩ := Bool.and_eq_true_iff.mp fails
    have fails : Action.on (Operation.createAudit "acme" "shop" "").action barred = (.error error, after) := does
    have distinct : (barred.store.audits.map (·.id)).Nodup := List.nodup_nil
    have keyed : barred.store.Keyed := List.nodup_nil
    obtain ⟨exact, -, taken⟩ := failures_show_their_change distinct keyed fails
    refine ⟨error, after, fails, failed, shown, fun alike => ?_⟩
    obtain refused | same := exact.mp alike
    · rw [failed] at refused
      cases refused
    · have kept : after.store = barred.store := Option.some.inj ((taken failed).1.symm.trans same)
      rw [kept] at shown
      cases shown
  · rw [does] at fails
    cases fails

end Sample

end Ledger

end RepoAudit
