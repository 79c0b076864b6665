import RepoAudit.Proofs.Store.Records
import RepoAudit.Proofs.Store.Typed

/-!
# Intact stores

In an intact store ids are apart, values are of their kinds, and each finding is of an audit that is there.
`Ledger.Changed` lists all that an operation with such values does to a store: every change keeps it intact, and an
audit that is missing comes only under an id that is drawn for it. A ledger leads to another one (`Ledger.Leads`) by
such a change.
-/

namespace RepoAudit

/-- A store whose records have ids of their own, and whose findings are of audits that are there. -/
structure Store.Intact (store : Store) : Prop where
  audits : (store.audits.map (·.id)).Nodup
  findings : store.Keyed
  owned : ∀ finding ∈ store.findings, ∃ auditId, finding.isOf auditId = true ∧ (store.audit? auditId).isSome
  typed : store.Typed

lemma Ledger.typed_newAudit (id owner name address : String) (now : Instant) :
    (newAudit id owner name address now).Typed := by
  intro field
  cases field with
  | ownerName | repoName | repoUrl | status | createdAt => exact ⟨_, rfl⟩
  | scores | executiveSummary | remediationPlan | repoMeta | scannedAt => exact .inl rfl
  | fileTree | scanLog => exact ⟨[], rfl⟩

/-- All that an operation with typed values does to a store, with the number of ids that are drawn after it. -/
inductive Ledger.Changed (ledger : Ledger) : Store → Nat → Prop
  | keeps {drawn : Nat} : ledger.drawn ≤ drawn → Changed ledger ledger.store drawn
  | makes {audit : AuditRecord} : audit.id = ledger.ids (ledger.drawn + 1) → audit.Typed →
    Changed ledger (ledger.store.putAudit audit) (ledger.drawn + 1)
  | changes {id : String} {audit : AuditRecord} {changes : List (AuditField × Json)} :
    ledger.store.audit? id = some audit → (∀ change ∈ changes, change.1.Admits change.2) →
    Changed ledger (ledger.store.putAudit (audit.change changes)) ledger.drawn
  | discards (id : String) : Changed ledger (ledger.store.dropAudit id) ledger.drawn
  | files {auditId : String} {audit : AuditRecord} {draft : FindingRecord} :
    ledger.store.audit? auditId = some audit → (∀ field, (draft.get field).isPlain 0 = true) →
    Changed ledger (ledger.store.putFinding
      (Ledger.filed draft (ledger.ids (ledger.drawn + 1)) auditId)) (ledger.drawn + 1)
  | amends {id : String} {finding : FindingRecord} {changes : List (FindingField × Json)} :
    ledger.store.finding? id = some finding → (∀ change ∈ changes, change.2.isPlain 0 = true) →
    Changed ledger (ledger.store.putFinding (finding.change changes)) ledger.drawn
  | drops (id : String) : Changed ledger (ledger.store.dropFinding id) ledger.drawn

namespace Store.Intact

variable {store : Store}

/-- An audit that is put leaves findings with their audits. -/
lemma putAudit {audit : AuditRecord} (intact : store.Intact) (typed : audit.Typed) :
    (store.putAudit audit).Intact := by
  refine ⟨nodup_putAudit intact.audits audit, ?_, fun finding stored => ?_, fun old stored => ?_, ?_⟩
  · rw [Keyed, findings_putAudit]
    exact intact.findings
  · rw [findings_putAudit] at stored
    obtain ⟨auditId, ofAudit, there⟩ := intact.owned finding stored
    refine ⟨auditId, ofAudit, ?_⟩
    rw [audit?_putAudit]
    split
    · rfl
    · exact there
  · obtain rfl | old := mem_audits_putAudit stored
    · exact typed
    · exact intact.typed.audits _ old
  · rw [findings_putAudit]
    exact intact.typed.findings

/-- A finding of an audit that is there may be put. -/
lemma putFinding {finding : FindingRecord} {auditId : String} (intact : store.Intact)
    (ofAudit : finding.isOf auditId = true) (there : (store.audit? auditId).isSome)
    (plain : finding.auditId.isPlain 0 = true ∧ ∀ field, (finding.get field).isPlain 0 = true) :
    (store.putFinding finding).Intact := by
  refine ⟨?_, intact.findings.putFinding finding, fun old stored => ?_, ?_, fun old stored => ?_⟩
  · rw [audits_putFinding]
    exact intact.audits
  · simp only [audit?_putFinding]
    obtain rfl | old := mem_findings_putFinding stored
    · exact ⟨auditId, ofAudit, there⟩
    · exact intact.owned _ old
  · rw [audits_putFinding]
    exact intact.typed.audits
  · obtain rfl | old := mem_findings_putFinding stored
    · exact plain
    · exact intact.typed.findings _ old

/-- An audit goes with its findings, so the others keep their audits. -/
lemma dropAudit (intact : store.Intact) (id : String) : (store.dropAudit id).Intact := by
  have audits : (store.dropAudit id).audits.Sublist store.audits := List.filter_sublist
  have findings : (store.dropAudit id).findings.Sublist store.findings := List.filter_sublist
  refine ⟨(audits.map _).nodup intact.audits, intact.findings.sublist findings, fun finding stored => ?_,
    fun audit stored => intact.typed.audits audit (audits.subset stored),
    fun finding stored => intact.typed.findings finding (findings.subset stored)⟩
  obtain ⟨auditId, ofAudit, there⟩ := intact.owned finding (findings.subset stored)
  refine ⟨auditId, ofAudit, ?_⟩
  rw [audit?_dropAudit, if_neg]
  · exact there
  · -- A finding that is left is not of the audit that goes.
    rintro rfl
    simp [Store.dropAudit, ofAudit] at stored

lemma dropFinding (intact : store.Intact) (id : String) : (store.dropFinding id).Intact := by
  have findings : (store.dropFinding id).findings.Sublist store.findings := List.filter_sublist
  exact ⟨intact.audits, intact.findings.sublist findings,
    fun finding stored => intact.owned finding (findings.subset stored), intact.typed.audits,
    fun finding stored => intact.typed.findings finding (findings.subset stored)⟩

end Store.Intact

namespace Ledger.Changed

variable {ledger : Ledger} {store : Store} {drawn : Nat}

/-- A change keeps a store intact. -/
lemma intact (changed : ledger.Changed store drawn) (intact : ledger.store.Intact) : store.Intact := by
  cases changed with
  | keeps => exact intact
  | makes _ typed => exact intact.putAudit typed
  | changes found admitted =>
    exact intact.putAudit ((intact.typed.audits _ (Store.mem_of_audit? found)).change admitted)
  | discards id => exact intact.dropAudit id
  | @files auditId _ draft found plain =>
    have ofAudit : (filed draft (ledger.ids (ledger.drawn + 1)) auditId).isOf auditId = true := beq_self_eq_true _
    refine intact.putFinding ofAudit ?_ ⟨rfl, fun field => ?_⟩
    · rw [found]
      rfl
    · rw [FindingRecord.get_filed]
      exact plain field
  | @amends _ finding changes found plain =>
    have stored := Store.mem_of_finding? found
    obtain ⟨auditId, ofAudit, there⟩ := intact.owned finding stored
    obtain ⟨ofPlain, fields⟩ := intact.typed.findings finding stored
    refine intact.putFinding (by rwa [FindingRecord.isOf_change]) there ⟨?_, fun field => ?_⟩
    · rwa [FindingRecord.change_auditId]
    · obtain kept | ⟨value, named, is⟩ := finding.get_change changes field
      · exact kept ▸ fields field
      · exact is ▸ plain _ named
  | drops id => exact intact.dropFinding id

lemma drawn_le (changed : ledger.Changed store drawn) : ledger.drawn ≤ drawn := by
  cases changed with
  | keeps later => exact later
  | makes | files => exact Nat.le_succ _
  | changes | discards | amends | drops => exact Nat.le_refl _

/-- An audit that is missing comes only under an id that is drawn. -/
lemma missing {id : String} (changed : ledger.Changed store drawn) (missing : ledger.store.audit? id = none)
    (undrawn : ∀ n, ledger.drawn < n → n ≤ drawn → ledger.ids n ≠ id) : store.audit? id = none := by
  cases changed with
  | keeps => exact missing
  | makes under _ =>
    have apart := undrawn (ledger.drawn + 1) (Nat.lt_succ_self _) (Nat.le_refl _)
    rw [Store.audit?_putAudit, under, if_neg (Ne.symm apart)]
    exact missing
  | @changes other audit _ found _ =>
    rw [Store.audit?_putAudit, AuditRecord.change_id, Store.id_of_audit? found, if_neg]
    · exact missing
    · rintro rfl
      rw [found] at missing
      cases missing
  | discards => rw [Store.audit?_dropAudit, missing, ite_self]
  | files | amends => rw [Store.audit?_putFinding, missing]
  | drops => rw [Store.audit?_dropFinding, missing]

end Ledger.Changed

/-- By an operation with typed values a ledger leads to another one, whatever becomes of the disk. -/
structure Ledger.Leads (ledger after : Ledger) : Prop where
  ids : after.ids = ledger.ids
  changed : ledger.Changed after.store after.drawn

namespace Ledger.Leads

variable {ledger after : Ledger}

lemma refl (ledger : Ledger) : ledger.Leads ledger := ⟨rfl, .keeps (Nat.le_refl _)⟩

/-- An audit that is missing, and whose id is not to be drawn, is so for good. -/
lemma missing {id : String} (leads : ledger.Leads after) (missing : ledger.store.audit? id = none)
    (undrawn : ∀ n, ledger.drawn < n → ledger.ids n ≠ id) :
    after.store.audit? id = none ∧ ∀ n, after.drawn < n → after.ids n ≠ id := by
  rw [leads.ids]
  exact ⟨leads.changed.missing missing fun n drawn _ => undrawn n drawn,
    fun n later => undrawn n (Nat.lt_of_le_of_lt leads.changed.drawn_le later)⟩

/-- Where ids do not repeat, those that are still to be drawn are not in use. -/
lemma unused (leads : ledger.Leads after) (injective : Function.Injective ledger.ids)
    (unused : ∀ n, ledger.drawn < n → ledger.store.audit? (ledger.ids n) = none) (n : Nat)
    (fresh : after.drawn < n) : after.store.audit? (after.ids n) = none := by
  rw [leads.ids]
  refine leads.changed.missing (unused n (Nat.lt_of_le_of_lt leads.changed.drawn_le fresh)) fun m _ before same => ?_
  obtain rfl := injective same
  exact absurd fresh (Nat.not_lt.mpr before)

end Ledger.Leads

end RepoAudit
