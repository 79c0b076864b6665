import RepoAudit.Proofs.Json.Plain
import RepoAudit.Proofs.Scan.Contract
import RepoAudit.Proofs.Store.Records

/-!
# The tenure of a scan

A scan holds its audit from the mark that its request set to its own last write. The contract `Scan.tenure`
says what a scan does with an audit that it holds: it changes this audit and adds findings to it only while
the audit is marked as running, it only ever adds to the log, and the mark goes with the write that makes the
audit complete. In return nobody else changes the audit, so the scan knows how it stands (`Progress`).
Between its parts a scan is at `standing`, and each part that writes has a rule that leads from there to
there.
-/

namespace RepoAudit

/-- What a step of a log tells, apart from its time: the step, how it went, and the message. -/
abbrev Line := String × String × String

/-- The lines of a log. -/
def ScanLog.lines (log : ScanLog) : List Line :=
  log.entries.map fun entry => (entry.step, entry.status, entry.message)

@[simp] lemma ScanLog.lines_push (log : ScanLog) (step message : String) (status : StepStatus)
    (now : Instant) :
    (log.push step status message now).lines = log.lines ++ [(step, status.name, message)] := by
  simp [lines, push]

/-- True of the calls that ask the host. -/
def Call.asksHost : Call → Bool
  | .hostName => true
  | .repository _ _ => true
  | .languages _ _ => true
  | .tree _ _ _ => true
  | .file _ _ _ => true
  | _ => false

/-- How far a scan has come: the audit as it stands, the findings that the store kept for it, and what the
host was asked. -/
structure Progress where
  audit : AuditRecord
  stored : List FindingRecord := []
  heard : List Exchange := []

/-- The progress after a call and its reply. -/
def Progress.next (p : Progress) : Exchange → Progress
  | ⟨.updateAudit _ changes, _⟩ => { p with audit := p.audit.change changes }
  | ⟨.createFinding _ _, .ok finding⟩ => { p with stored := p.stored ++ [finding] }
  | exchange => if exchange.call.asksHost then { p with heard := p.heard ++ [exchange] } else p

/-- Only a change of the audit changes how it stands. -/
lemma Progress.next_audit {exchange : Exchange}
    (other : ∀ id changes, exchange.call ≠ .updateAudit id changes) (p : Progress) :
    (p.next exchange).audit = p.audit := by
  unfold next
  split
  · exact absurd rfl (other _ _)
  · rfl
  · split <;> rfl

namespace Scan

/-- True of the changes that make an audit complete. -/
def Completes (changes : List (AuditField × Json)) : Prop :=
  (AuditField.status, Json.text Store.complete) ∈ changes

/-- A log that was only added to. -/
def Grows (before after : Json) : Prop :=
  ∃ entries more, before = .array entries ∧ after = .array (entries ++ more)

/-- What a scan may call while it holds an audit. -/
def tenureAllows (auditId : String) (p : Progress) : Call → Prop
  | .updateAudit id changes =>
    id = auditId ∧ p.audit.isRunning = true ∧
      Grows p.audit.scanLog (p.audit.change changes).scanLog ∧
      ((p.audit.change changes).isRunning = false ↔ Completes changes) ∧
      ∀ change ∈ changes, change.2.isPlain 3 = true
  | .createFinding id draft =>
    id = auditId ∧ p.audit.isRunning = true ∧ ∃ finding, draft = FindingRecord.ofFinding finding
  | .getAudit id => id = auditId
  | .listFindings _ | .deleteFinding _ | .submit _ | .register _ _ | .watch _ => False
  | _ => True

/-- What a scan may count on while it holds an audit. -/
def tenureReplies (p : Progress) : Exchange → Prop
  | ⟨.updateAudit _ changes, reply⟩ => reply = .ok (some (p.audit.change changes))
  | ⟨.createFinding auditId draft, reply⟩ => ∃ id, reply = .ok (Ledger.filed draft id auditId)
  | ⟨.getAudit _, reply⟩ => p.audit.isRunning = true → reply = some p.audit
  | _ => True

/-- The contract of a scan with the audit that it holds. -/
def tenure (auditId : String) : Contract Progress :=
  ⟨tenureAllows auditId, tenureReplies, Progress.next⟩

/-- Between its parts a scan has changed nothing of the log of its audit but what it has published. -/
def standing (base : AuditRecord) (log : ScanLog) (stored : List FindingRecord)
    (heard : List Exchange) : Progress :=
  ⟨{ base with scanLog := Json.ofList LogEntry.toJson log.entries }, stored, heard⟩

section Parts

variable {ε : Type} {auditId : String} {base : AuditRecord} {log : ScanLog}
variable {stored : List FindingRecord} {heard : List Exchange}

lemma keeps_update {changes : List (AuditField × Json)} {p : Progress}
    {post : Except StoreError Unit → ScanLog → Progress → Prop}
    (allowed : tenureAllows auditId p (.updateAudit auditId changes))
    (next : post (.ok ()) log { p with audit := p.audit.change changes }) :
    Keeps (tenure auditId) post (update auditId changes) log p := by
  refine ⟨allowed, ?_⟩
  rintro reply rfl
  exact next

/-- A step of the log: the longer log is published. -/
lemma keeps_note {step message : String} {status : StepStatus}
    {post : Except StoreError Unit → ScanLog → Progress → Prop} (running : base.isRunning = true)
    (next : ∀ longer : ScanLog, longer.lines = log.lines ++ [(step, status.name, message)] →
      post (.ok ()) longer (standing base longer stored heard)) :
    Keeps (tenure auditId) post (note auditId step status message) log
      (standing base log stored heard) := by
  refine ⟨trivial, fun now _ => ?_⟩
  refine keeps_update (p := standing base log stored heard)
    ⟨rfl, running, ⟨_, [LogEntry.toJson ⟨step, status.name, message, now.text⟩], rfl, ?_⟩, ?_, ?_⟩
    (next (log.push step status message now) (ScanLog.lines_push log step message status now))
  · simp [AuditRecord.change, AuditRecord.set, Json.ofList, ScanLog.push]
  · have marked : ((standing base log stored heard).audit.change
        [(.scanLog, Json.ofList LogEntry.toJson (log.push step status message now).entries)]).isRunning =
        true := running
    simp [marked, Completes]
  · simp [Json.isPlain_ofList]

lemma keeps_change {field : AuditField} {value : Json}
    {post : Except StoreError Unit → ScanLog → Progress → Prop} (running : base.isRunning = true)
    (other : field ≠ .status ∧ field ≠ .scanLog) (plain : value.isPlain 3 = true)
    (next : post (.ok ()) log (standing (base.set field value) log stored heard)) :
    Keeps (tenure auditId) post (update auditId [(field, value)]) log
      (standing base log stored heard) := by
  have swaps : (standing base log stored heard).audit.change [(field, value)] =
      (standing (base.set field value) log stored heard).audit := by
    cases field <;> first | rfl | simp at other
  have marked : (base.set field value).isRunning = true := by
    cases field <;> first | exact running | simp at other
  refine keeps_update ⟨rfl, running, ⟨_, [], rfl, ?_⟩, ?_, by simpa using plain⟩ ?_
  · rw [swaps, List.append_nil]; rfl
  · have marked : ((standing base log stored heard).audit.change [(field, value)]).isRunning = true := by
      rw [swaps]; exact marked
    simp [marked, Completes, Ne.symm other.1]
  · rw [swaps]; exact next

/-- A demand: there is a value, or the scan is interrupted. -/
lemma keeps_demand {α σ : Type} {contract : Contract σ} {s : σ} {result : Except String α}
    {post : Except Interruption α → ScanLog → σ → Prop}
    (value : ∀ a, result = .ok a → post (.ok a) log s)
    (reason : ∀ text, result = .error text → post (.error (.other text)) log s) :
    Keeps contract post (demand result) log s := by
  cases result with
  | ok a => exact keeps_pure (value a rfl)
  | error text => exact keeps_throw (reason text rfl)

end Parts

end Scan

end RepoAudit
