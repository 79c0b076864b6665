import RepoAudit.Proofs.Scan.Tenure
import RepoAudit.Proofs.Store.Effect

/-!
# Effects of calls

What a call does to the world, when no write fails: calls that write the store do what the operation of the
store does and leave the rest, and the others leave the store.
-/

namespace RepoAudit

/-- An exchange in which no write failed. -/
def Exchange.Saved : Exchange → Prop
  | ⟨.updateAudit _ _, reply⟩ => RepoAudit.Saved reply
  | ⟨.createFinding _ _, reply⟩ => RepoAudit.Saved reply
  | ⟨.deleteFinding _, reply⟩ => RepoAudit.Saved reply
  | _ => True

instance : (exchange : Exchange) → Decidable exchange.Saved
  | ⟨.updateAudit _ _, reply⟩ => inferInstanceAs (Decidable (RepoAudit.Saved reply))
  | ⟨.createFinding _ _, reply⟩ => inferInstanceAs (Decidable (RepoAudit.Saved reply))
  | ⟨.deleteFinding _, reply⟩ => inferInstanceAs (Decidable (RepoAudit.Saved reply))
  | ⟨.now, _⟩ | ⟨.getAudit _, _⟩ | ⟨.listFindings _, _⟩ | ⟨.hostName, _⟩ | ⟨.repository _ _, _⟩
  | ⟨.languages _ _, _⟩ | ⟨.tree _ _ _, _⟩ | ⟨.file _ _ _, _⟩ | ⟨.submit _, _⟩
  | ⟨.register _ _, _⟩ | ⟨.watch _, _⟩ => .isTrue trivial

/-- True of a question about a repository that the host answers with it. -/
def Exchange.givesRepository (owner name : String) : Exchange → Bool
  | ⟨.repository asked of, .ok _⟩ => asked == owner && of == name
  | _ => false

lemma Exchange.exists_of_givesRepository {owner name : String} {e : Exchange}
    (gives : e.givesRepository owner name = true) : ∃ snapshot, e = ⟨.repository owner name, .ok snapshot⟩ := by
  unfold givesRepository at gives
  split at gives
  · next snapshot =>
    obtain ⟨asked, of⟩ := Bool.and_eq_true_iff.mp gives
    obtain rfl := eq_of_beq asked
    obtain rfl := eq_of_beq of
    exact ⟨snapshot, rfl⟩
  · cases gives

/-- True of the calls by which a scan writes the audit or its findings. -/
def Call.WritesTo (auditId : String) : Call → Prop
  | .updateAudit id _ => id = auditId
  | .createFinding id _ => id = auditId
  | _ => False

/-- True of the calls that may write the store. -/
def Call.writes : Call → Bool
  | .updateAudit _ _ => true
  | .createFinding _ _ => true
  | .deleteFinding _ => true
  | _ => false

namespace World

variable {world : World}

/-- A call that does not write leaves the store and all that belongs to it. -/
lemma perform_ledger {c : Call} (reads : c.writes = false) :
    (world.perform c).2.ledger = world.ledger := by
  cases c with
  | updateAudit | createFinding | deleteFinding => cases reads
  | _ => rfl

lemma perform_host (c : Call) : (world.perform c).2.host = world.host := by
  cases c <;> rfl

/-- The number of scans that were accepted grows only where one is accepted. -/
lemma perform_jobs {c : Call} (other : ∀ auditId, c ≠ .submit auditId) :
    (world.perform c).2.executor.jobs.length = world.executor.jobs.length := by
  cases c with
  | submit auditId => exact absurd rfl (other auditId)
  | watch number =>
    simp only [perform, onExecutor, Executor.watch, Executor.report]
    split
    · split <;> simp [Executor.forget, Executor.changeJob]
    · simp [Executor.changeJob]
  | _ => rfl

lemma perform_submit (world : World) (auditId : String) :
    ((world.perform (.submit auditId)).1 = none ∧ (world.perform (.submit auditId)).2 = world) ∨
    ((world.perform (.submit auditId)).1 = some world.executor.jobs.length ∧
      (world.perform (.submit auditId)).2.executor.jobs.length = world.executor.jobs.length + 1) := by
  by_cases accepting : world.executor.accepting = true
  · exact .inr (by simp [perform, Executor.submit, accepting])
  · exact .inl (by simp [perform, Executor.submit, accepting])

/-- A change of an audit leaves a missing audit missing, and changes one that is there. -/
lemma perform_updateAudit {id : String} {changes : List (AuditField × Json)}
    (saved : Saved (world.perform (.updateAudit id changes)).1) :
    (world.ledger.store.audit? id = none ∧
      world.perform (.updateAudit id changes) = (.ok none, world)) ∨
    ∃ audit disk, world.ledger.store.audit? id = some audit ∧
      world.perform (.updateAudit id changes) = (.ok (some (audit.change changes)), { world with
        ledger := { world.ledger with
          store := world.ledger.store.putAudit (audit.change changes), disk } }) := by
  have does : world.perform (.updateAudit id changes) =
    ((Ledger.Action.on (Ledger.updateAudit id changes) world.ledger).1,
      { world with ledger := (Ledger.Action.on (Ledger.updateAudit id changes) world.ledger).2 }) := rfl
  rw [does] at saved ⊢
  obtain ⟨missing, effect⟩ | ⟨audit, reply, disk, found, tried, effect⟩ :=
    Ledger.updateAudit_on id changes world.ledger
  · exact .inl ⟨missing, by rw [effect]⟩
  · rw [effect] at saved ⊢
    exact .inr ⟨audit, disk, found, by rw [tried.eq_ok saved]⟩

/-- A finding is kept when its audit is there. -/
lemma perform_createFinding {auditId : String} {draft : FindingRecord}
    (saved : Saved (world.perform (.createFinding auditId draft)).1) :
    (world.ledger.store.audit? auditId = none ∧
      world.perform (.createFinding auditId draft) = (.error (.noAudit auditId), { world with
        ledger := { world.ledger with drawn := world.ledger.drawn + 1 } })) ∨
    ∃ audit disk, world.ledger.store.audit? auditId = some audit ∧
      world.perform (.createFinding auditId draft) =
        (.ok (Ledger.filed draft (world.ledger.ids (world.ledger.drawn + 1)) auditId), { world with
          ledger := { world.ledger with
            store := world.ledger.store.putFinding
              (Ledger.filed draft (world.ledger.ids (world.ledger.drawn + 1)) auditId)
            disk
            drawn := world.ledger.drawn + 1 } }) := by
  have does : world.perform (.createFinding auditId draft) =
    ((Ledger.Action.on (Ledger.createFinding auditId draft) world.ledger).1,
      { world with
        ledger := (Ledger.Action.on (Ledger.createFinding auditId draft) world.ledger).2 }) := rfl
  rw [does] at saved ⊢
  obtain ⟨missing, effect⟩ | ⟨audit, reply, disk, found, tried, effect⟩ :=
    Ledger.createFinding_on auditId draft world.ledger
  · exact .inl ⟨missing, by rw [effect]⟩
  · rw [effect] at saved ⊢
    exact .inr ⟨audit, disk, found, by rw [tried.eq_ok saved]⟩

/-- A finding that is there is dropped. -/
lemma perform_deleteFinding {id : String} (saved : Saved (world.perform (.deleteFinding id)).1) :
    (world.ledger.store.finding? id = none ∧
      world.perform (.deleteFinding id) = (.ok false, world)) ∨
    ∃ finding disk, world.ledger.store.finding? id = some finding ∧
      world.perform (.deleteFinding id) = (.ok true, { world with
        ledger := { world.ledger with store := world.ledger.store.dropFinding id, disk } }) := by
  have does : world.perform (.deleteFinding id) =
    ((Ledger.Action.on (Ledger.deleteFinding id) world.ledger).1,
      { world with ledger := (Ledger.Action.on (Ledger.deleteFinding id) world.ledger).2 }) := rfl
  rw [does] at saved ⊢
  obtain ⟨missing, effect⟩ | ⟨finding, reply, disk, found, tried, effect⟩ :=
    Ledger.deleteFinding_on id world.ledger
  · exact .inl ⟨missing, by rw [effect]⟩
  · rw [effect] at saved ⊢
    exact .inr ⟨finding, disk, found, by rw [tried.eq_ok saved]⟩

/-- Ids come from the same source after a call, and more may have been drawn. -/
lemma perform_ids {c : Call} (saved : Exchange.Saved ⟨c, (world.perform c).1⟩) :
    (world.perform c).2.ledger.ids = world.ledger.ids ∧
      world.ledger.drawn ≤ (world.perform c).2.ledger.drawn := by
  cases c with
  | updateAudit id changes =>
    obtain ⟨-, does⟩ | ⟨_, _, -, does⟩ := perform_updateAudit saved <;> simp [does]
  | createFinding auditId draft =>
    obtain ⟨-, does⟩ | ⟨_, _, -, does⟩ := perform_createFinding saved <;> simp [does]
  | deleteFinding id =>
    obtain ⟨-, does⟩ | ⟨_, _, -, does⟩ := perform_deleteFinding saved <;> simp [does]
  | _ => exact ⟨rfl, Nat.le_refl _⟩

/-- A call leaves all audits, or it changes one that is there. -/
lemma perform_audits {c : Call} (saved : Exchange.Saved ⟨c, (world.perform c).1⟩) :
    ((∀ id changes, c = .updateAudit id changes → world.ledger.store.audit? id = none) ∧
      ∀ id, (world.perform c).2.ledger.store.audit? id = world.ledger.store.audit? id) ∨
    ∃ id changes audit, world.ledger.store.audit? id = some audit ∧
      (⟨c, (world.perform c).1⟩ : Exchange) =
        ⟨.updateAudit id changes, .ok (some (audit.change changes))⟩ ∧
      ∀ other, (world.perform c).2.ledger.store.audit? other =
        if other = id then some (audit.change changes) else world.ledger.store.audit? other := by
  cases c with
  | updateAudit id changes =>
    obtain ⟨missing, does⟩ | ⟨audit, disk, found, does⟩ := perform_updateAudit saved
    · refine .inl ⟨?_, by simp [does]⟩
      rintro _ _ ⟨rfl, rfl⟩
      exact missing
    · refine .inr ⟨id, changes, audit, found, by rw [does], fun other => ?_⟩
      simp [does, Store.id_of_audit? found]
  | createFinding auditId draft =>
    obtain ⟨-, does⟩ | ⟨_, _, -, does⟩ := perform_createFinding saved <;> exact .inl (by simp [does])
  | deleteFinding id =>
    obtain ⟨-, does⟩ | ⟨_, _, -, does⟩ := perform_deleteFinding saved <;> exact .inl (by simp [does])
  | _ => exact .inl ⟨by simp, fun _ => rfl⟩

/-- A scan that holds its audit as it thinks it does gets the replies that it counts on. -/
lemma perform_tenure {auditId : String} {p : Progress} {c : Call}
    (allowed : Scan.tenureAllows auditId p c)
    (stored : p.audit.isRunning = true → world.ledger.store.audit? auditId = some p.audit)
    (saved : Exchange.Saved ⟨c, (world.perform c).1⟩) :
    Scan.tenureReplies p ⟨c, (world.perform c).1⟩ := by
  cases c with
  | updateAudit id changes =>
    obtain ⟨rfl, running, -⟩ := allowed
    obtain ⟨missing, -⟩ | ⟨audit, disk, found, does⟩ := perform_updateAudit saved
    · rw [stored running] at missing
      cases missing
    · obtain rfl : p.audit = audit := by simpa [stored running] using found
      exact congrArg Prod.fst does
  | createFinding id draft =>
    obtain ⟨rfl, running, -⟩ := allowed
    obtain ⟨missing, -⟩ | ⟨audit, disk, found, does⟩ := perform_createFinding saved
    · rw [stored running] at missing
      cases missing
    · exact ⟨_, congrArg Prod.fst does⟩
  | getAudit id =>
    obtain rfl := allowed
    exact stored
  | _ => trivial

end World

end RepoAudit
