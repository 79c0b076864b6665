import RepoAudit.Proofs.Scan.Contract

/-!
# How a scan is opened

A request for a scan looks at the audit, drops what earlier scans found, marks the audit and asks the
executor. The contract `Scan.opening` follows it: the state tells how far the request has come, and in each
state there is one thing that it may do next.
-/

namespace RepoAudit

/-- How far a request for a scan has come. -/
inductive Opening where
  | fresh
  /-- The audit is there, and it is not being scanned. -/
  | seen
  /-- Findings of earlier scans that are still to be dropped. -/
  | clearing (left : List FindingRecord)
  /-- The audit is marked, if it was found. -/
  | begun (found : Option AuditRecord)
  /-- The executor takes no scan. -/
  | refused (found : Option AuditRecord)
  /-- The executor has taken the scan. -/
  | granted (found : Option AuditRecord) (number : Nat)
  | closed

/-- How far a request has come after a call and its reply. -/
def Opening.next : Opening → Exchange → Opening
  | fresh, ⟨.getAudit _, some audit⟩ => if audit.isRunning then closed else seen
  | seen, ⟨.listFindings _, findings⟩ => clearing (findings.filter (·.autoDetected.isTruthy))
  | clearing left, ⟨.deleteFinding _, .ok _⟩ => clearing left.tail
  | clearing _, ⟨.updateAudit _ _, .ok found⟩ => begun found
  | begun found, ⟨.submit _, none⟩ => refused found
  | begun found, ⟨.submit _, some number⟩ => granted found number
  | refused found, ⟨.now, _⟩ => refused found
  | granted found number, _ => granted found number
  | _, _ => closed

/-- How a request for a scan ends: it is told to be accepted just when the executor has taken it, and otherwise
it is over. -/
def Opening.EndsWith (result : Except StoreError Scan.Acceptance) : Opening → Prop
  | .granted _ _ => result = .ok Scan.started
  | .closed => result ≠ .ok Scan.started
  | _ => False

lemma Opening.EndsWith.iff {result : Except StoreError Scan.Acceptance} {s : Opening} (ends : s.EndsWith result) :
    result = .ok Scan.started ↔ ∃ found number, s = .granted found number := by
  cases s with
  | granted found number => exact iff_of_true ends ⟨found, number, rfl⟩
  | closed => exact iff_of_false ends (by simp)
  | fresh | seen | clearing | begun | refused => exact ends.elim

namespace Scan

/-- What a request for a scan may call. -/
def openingAllows (auditId : String) : Opening → Call → Prop
  | .fresh, c => c = .getAudit auditId
  | .seen, c => c = .listFindings auditId
  | .clearing [], c => c = .updateAudit auditId beginning
  | .clearing (finding :: _), c => c = .deleteFinding finding.id
  | .begun _, c => c = .submit auditId
  | .refused _, c => c = .now ∨ ∃ now, c = .updateAudit auditId (refusal now)
  | .granted _ number, c => c = .register auditId number ∨ c = .watch number
  | .closed, _ => False

/-- A request asks the executor for a scan of its audit just after it has marked the audit. -/
lemma begun_of_submit {owner auditId : String} {phase : Opening}
    (allowed : openingAllows owner phase (.submit auditId)) : ∃ record, phase = .begun record ∧ auditId = owner := by
  cases phase with
  | begun record => exact ⟨record, rfl, Call.submit.inj allowed⟩
  | clearing left => cases left <;> cases allowed
  | refused => obtain same | ⟨now, same⟩ := allowed <;> cases same
  | granted => obtain same | same := allowed <;> cases same
  | fresh | seen | closed => cases allowed

/-- A request changes its own audit: it marks it, or it takes the mark back. -/
lemma changes_of_opening {owner id : String} {changes : List (AuditField × Json)} {phase : Opening}
    (allowed : openingAllows owner phase (.updateAudit id changes)) :
    id = owner ∧ (phase = .clearing [] ∧ changes = beginning ∨
      ∃ found now, phase = .refused found ∧ changes = refusal now) := by
  cases phase with
  | clearing left =>
    cases left with
    | nil =>
      obtain ⟨rfl, rfl⟩ := Call.updateAudit.inj allowed
      exact ⟨rfl, .inl ⟨rfl, rfl⟩⟩
    | cons => cases allowed
  | refused found =>
    obtain same | ⟨now, same⟩ := allowed
    · cases same
    · obtain ⟨rfl, rfl⟩ := Call.updateAudit.inj same
      exact ⟨rfl, .inr ⟨found, now, rfl, rfl⟩⟩
  | granted => obtain same | same := allowed <;> cases same
  | fresh | seen | begun | closed => cases allowed

/-- A request for a scan enters no finding. -/
lemma not_openingAllows_createFinding {auditId id : String} {draft : FindingRecord} (phase : Opening) :
    ¬ openingAllows auditId phase (.createFinding id draft) := by
  cases phase with
  | clearing left => cases left <;> exact Call.noConfusion
  | fresh | seen | begun | refused | granted | closed => simp [openingAllows]

/-- The contract of a request for a scan. -/
def opening (auditId : String) : Contract Opening where
  allows := openingAllows auditId
  next := Opening.next

/-- A request keeps its contract up to its answer. -/
def Opens {α : Type} (auditId : String) (post : Except StoreError α → Opening → Prop)
    (part : Starting α) (s : Opening) : Prop :=
  part.run.Keeps (opening auditId) post s

section Rules

variable {σ : Type} {contract : Contract σ} {auditId : String} {α β : Type}

/-- One part of a request after another; the second one is left out when the first one fails. -/
lemma starting_bind {part : Starting α} {next : α → Starting β} {post : Except StoreError β → σ → Prop} {s : σ}
    (keeps : part.run.Keeps contract (fun result s => match result with
      | .ok value => (next value).run.Keeps contract post s
      | .error error => post (.error error) s) s) :
    (part >>= next).run.Keeps contract post s := by
  refine Program.keeps_bind.mpr (Program.Keeps.mono ?_ keeps)
  rintro (error | value) s holds
  · exact holds
  · exact holds

/-- A call of a request that may fail, and its failure. -/
lemma starting_accomplish {reply : Except StoreError α} {post : Except StoreError Unit → σ → Prop} {s : σ}
    (done : ∀ value, reply = .ok value → post (.ok ()) s)
    (failed : ∀ error, reply = .error error → post (.error error) s) :
    (accomplish reply).run.Keeps contract post s := by
  cases reply with
  | ok value => exact done value rfl
  | error error => exact failed error rfl

/-- The findings of earlier scans are dropped one after the other; the states tell which are left. -/
lemma starting_clear {post : Except StoreError Unit → σ → Prop} {s : σ} (left : List FindingRecord → σ)
    (lists : contract.allows s (.listFindings auditId))
    (listed : ∀ findings, contract.next s ⟨.listFindings auditId, findings⟩ =
      left (findings.filter (·.autoDetected.isTruthy)))
    (drops : ∀ finding rest, contract.allows (left (finding :: rest)) (.deleteFinding finding.id))
    (dropped : ∀ (finding : FindingRecord) rest value,
      contract.next (left (finding :: rest)) ⟨.deleteFinding finding.id, .ok value⟩ = left rest)
    (failed : ∀ (finding : FindingRecord) rest error, post (.error error)
      (contract.next (left (finding :: rest)) ⟨.deleteFinding finding.id, .error error⟩))
    (done : post (.ok ()) (left [])) : (clear auditId).run.Keeps contract post s := by
  refine starting_bind ⟨lists, ?_⟩
  rintro (findings : List FindingRecord) -
  refine starting_bind ?_
  rw [listed]
  induction findings with
  | nil => exact done
  | cons finding rest ih =>
    rw [List.forIn_cons]
    refine starting_bind ?_
    by_cases detected : finding.autoDetected.isTruthy = true
    · rw [if_pos detected, List.filter_cons, if_pos detected]
      refine starting_bind ⟨drops finding _, fun reply _ => starting_bind (starting_accomplish ?_ ?_)⟩
      · rintro value rfl
        rw [dropped]
        exact ih
      · rintro error rfl
        exact failed finding _ error
    · rw [if_neg detected, List.filter_cons, if_neg detected]
      exact ih

/-- A request keeps its contract to its end. -/
lemma opens_start_ends : Opens auditId (fun result s => s.EndsWith result) (start auditId) .fresh := by
  refine starting_bind ⟨rfl, ?_⟩
  rintro (_ | audit) -
  · exact nofun
  show Opens auditId _ (if audit.isRunning then _ else _) (if audit.isRunning then .closed else .seen)
  cases running : audit.isRunning with
  | true => exact nofun
  | false =>
    simp only [Bool.false_eq_true, if_false]
    refine starting_bind (starting_clear .clearing rfl (fun _ => rfl) (fun _ _ => rfl) (fun _ _ _ => rfl)
      (fun _ _ _ => nofun) ?_)
    refine starting_bind ⟨rfl, fun reply _ => starting_bind (starting_accomplish ?_ ?_)⟩
    · rintro found rfl
      refine starting_bind ⟨rfl, ?_⟩
      rintro (_ | number) -
      · refine starting_bind ⟨.inl rfl, fun now _ => ?_⟩
        refine starting_bind ⟨.inr ⟨now, rfl⟩, fun reply _ => starting_bind (starting_accomplish ?_ ?_)⟩
        · rintro _ rfl
          exact nofun
        · rintro _ rfl
          exact nofun
      · exact starting_bind ⟨.inl rfl, fun _ _ => starting_bind ⟨.inr rfl, fun _ _ => rfl⟩⟩
    · rintro error rfl
      exact nofun

/-- A request keeps its contract, and it is told to be accepted just when the executor has taken it. -/
lemma opens_start :
    Opens auditId (fun result s => result = .ok started ↔ ∃ found number, s = .granted found number)
      (start auditId) .fresh :=
  Program.Keeps.mono (fun _ _ => Opening.EndsWith.iff) opens_start_ends

end Rules

end Scan

end RepoAudit
