import RepoAudit.Proofs.Store.Records
import RepoAudit.Proofs.Traffic.Basic

/-!
# Effects of errands

All that an errand can do to the store. A write that fails is reported, but the change in memory stands, so
this does not depend on the disk.
-/

namespace RepoAudit

/-- What an errand does to the store and to what belongs to it. -/
inductive Errand.Does (ledger : Ledger) : Errand → Ledger → Prop
  | nothing (errand : Errand) : Does ledger errand ledger
  | makes (owner name address : String) (disk : Disk) :
    Does ledger (.createAudit owner name address) { ledger with
      store := ledger.store.putAudit
        (Ledger.newAudit (ledger.ids (ledger.drawn + 1)) owner name address ledger.now)
      disk
      drawn := ledger.drawn + 1 }
  | discards {id : String} {audit : AuditRecord} (disk : Disk) : ledger.store.audit? id = some audit →
    audit.isRunning = false →
    Does ledger (.deleteAudit id) { ledger with store := ledger.store.dropAudit id, disk }
  | files {auditId : String} {audit : AuditRecord} (draft : FindingRecord) (disk : Disk) :
    ledger.store.audit? auditId = some audit →
    Does ledger (.createFinding auditId draft) { ledger with
      store := ledger.store.putFinding (Ledger.filed draft (ledger.ids (ledger.drawn + 1)) auditId)
      disk
      drawn := ledger.drawn + 1 }
  | misses (auditId : String) (draft : FindingRecord) :
    Does ledger (.createFinding auditId draft) { ledger with drawn := ledger.drawn + 1 }
  | changes {id : String} {finding : FindingRecord} (changes : List (FindingField × Json))
    (disk : Disk) : ledger.store.finding? id = some finding →
    Does ledger (.updateFinding id changes) { ledger with
      store := ledger.store.putFinding (finding.change changes), disk }
  | drops {id : String} {finding : FindingRecord} (disk : Disk) :
    ledger.store.finding? id = some finding →
    Does ledger (.deleteFinding id) { ledger with store := ledger.store.dropFinding id, disk }

namespace Errand.Does

variable {errand : Errand} {ledger ledger' : Ledger}

lemma ids (does : Does ledger errand ledger') : ledger'.ids = ledger.ids := by
  cases does <;> rfl

lemma drawn (does : Does ledger errand ledger') : ledger.drawn ≤ ledger'.drawn := by
  cases does with
  | makes | files | misses => exact Nat.le_succ _
  | nothing | discards | changes | drops => exact Nat.le_refl _

/-- An audit that is missing before an errand is missing after it, unless its id is the one to be drawn. -/
lemma missing {id : String} (does : Does ledger errand ledger')
    (missing : ledger.store.audit? id = none) (other : ledger.ids (ledger.drawn + 1) ≠ id) :
    ledger'.store.audit? id = none := by
  cases does with
  | makes owner name address disk =>
    exact (Store.audit?_putAudit _ _ id).trans ((if_neg (Ne.symm other)).trans missing)
  | discards => rw [Store.audit?_dropAudit, missing, ite_self]
  | files | changes => rw [Store.audit?_putFinding, missing]
  | drops => rw [Store.audit?_dropFinding, missing]
  | nothing | misses => exact missing

/-- An audit goes with an errand only when this is to delete it, and when its scan is not running. -/
lemma gone {id : String} {audit : AuditRecord} (does : Does ledger errand ledger')
    (found : ledger.store.audit? id = some audit) (missing : ledger'.store.audit? id = none) :
    errand = .deleteAudit id ∧ audit.isRunning = false := by
  cases does with
  | makes owner name address disk =>
    rw [Store.audit?_putAudit] at missing
    split at missing
    · cases missing
    · rw [found] at missing
      cases missing
  | @discards other audit' disk present idle =>
    rw [Store.audit?_dropAudit] at missing
    split at missing
    · next same =>
      subst same
      obtain rfl : audit' = audit := by simpa [found] using present.symm
      exact ⟨rfl, idle⟩
    · rw [found] at missing
      cases missing
  | files | changes =>
    rw [Store.audit?_putFinding, found] at missing
    cases missing
  | drops =>
    rw [Store.audit?_dropFinding, found] at missing
    cases missing
  | nothing | misses =>
    rw [found] at missing
    cases missing

/-- An audit that is there after an errand was there before, or its id was drawn for it. -/
lemma present {id : String} {audit : AuditRecord} (does : Does ledger errand ledger')
    (found : ledger'.store.audit? id = some audit) :
    ledger.store.audit? id = some audit ∨ id = ledger.ids (ledger.drawn + 1) := by
  cases does with
  | makes owner name address disk =>
    rw [Store.audit?_putAudit] at found
    split at found
    · next same => exact .inr same
    · exact .inl found
  | discards =>
    rw [Store.audit?_dropAudit] at found
    split at found
    · cases found
    · exact .inl found
  | files | changes => exact .inl ((Store.audit?_putFinding _ _ id).symm.trans found)
  | drops => exact .inl ((Store.audit?_dropFinding _ _ id).symm.trans found)
  | nothing | misses => exact .inl found

end Errand.Does

lemma Errand.does (errand : Errand) (ledger : Ledger) :
    errand.Does ledger (Ledger.Action.on errand.action ledger).2 := by
  cases errand with
  | createAudit owner name address =>
    obtain ⟨reply, disk, -, effect⟩ := Ledger.createAudit_on owner name address ledger
    rw [action, effect]
    exact .makes owner name address disk
  | deleteAudit id =>
    obtain ⟨-, effect⟩ | ⟨_, -, -, effect⟩ | ⟨audit, reply, disk, found, idle, -, effect⟩ :=
      Ledger.deleteAudit_on id ledger
    · rw [action, effect]
      exact .nothing _
    · rw [action, effect]
      exact .nothing _
    · rw [action, effect]
      exact .discards disk found idle
  | createFinding auditId draft =>
    obtain ⟨-, effect⟩ | ⟨audit, reply, disk, found, -, effect⟩ :=
      Ledger.createFinding_on auditId draft ledger
    · rw [action, effect]
      exact .misses auditId draft
    · rw [action, effect]
      exact .files draft disk found
  | updateFinding id changes =>
    obtain ⟨-, effect⟩ | ⟨finding, reply, disk, found, -, effect⟩ :=
      Ledger.updateFinding_on id changes ledger
    · rw [action, effect]
      exact .nothing _
    · rw [action, effect]
      exact .changes changes disk found
  | deleteFinding id =>
    obtain ⟨-, effect⟩ | ⟨finding, reply, disk, found, -, effect⟩ := Ledger.deleteFinding_on id ledger
    · rw [action, effect]
      exact .nothing _
    · rw [action, effect]
      exact .drops disk found
  | listAudits =>
    have effect : (Ledger.Action.on Ledger.listAudits ledger).2 = ledger := by
      simp only [Ledger.listAudits, Ledger.Action.on_bind, Ledger.Action.on_get]
      split <;> rfl
    rw [action, effect]
    exact .nothing _
  | getAudit | getFinding | listFindings => exact .nothing _

/-- A deletion that is told to be done found the audit, and dropped it. -/
lemma Traffic.Step.deleted {t t' : Traffic} {auditId : String}
    (step : Step t (.did (.deleteAudit auditId) (.ok true)) t') :
    ∃ audit disk, t.audit? auditId = some audit ∧ t'.world = { t.world with ledger :=
      { t.world.ledger with store := t.world.ledger.store.dropAudit auditId, disk } } := by
  obtain ⟨reply, after⟩ := step.did_inv
  obtain ⟨-, effect⟩ | ⟨-, -, -, effect⟩ | ⟨audit, _, disk, found, -, -, effect⟩ :=
    Ledger.deleteAudit_on auditId t.world.ledger
  · cases reply.trans (congrArg Prod.fst effect)
  · cases reply.trans (congrArg Prod.fst effect)
  · rw [after, Errand.action, effect]
    exact ⟨audit, disk, found, rfl⟩

end RepoAudit
